import Disassembly.Text.Quoted

/-!
Command-line arguments sorted into options and positional texts. An option may be shortened to a
beginning that no other option shares, and its value may follow an equals sign.
-/
namespace Disassembly.CommandLine

inductive OptionName where
  | help
  | mapMode
  | offset
  | harsh
  | lines
  deriving DecidableEq

namespace OptionName

/-- The name that messages use. -/
def shown : OptionName → String
  | help => "-h/--help"
  | mapMode => "--map-mode"
  | offset => "--offset"
  | harsh => "--harsh"
  | lines => "--lines"

/-- Every spelling with its option. -/
def spellings : List (String × OptionName) :=
  [ ("-h", help), ("--help", help), ("--map-mode", mapMode), ("--offset", offset),
    ("--harsh", harsh), ("--lines", lines) ]

def spelled? (text : String) : Option OptionName := spellings.lookup text

end OptionName

inductive UsageFault where
  | ambiguous (text : String) (candidates : List String)
  | valueExpected (name : OptionName)
  | valueIgnored (name : OptionName) (value : String)
  | badNumber (name : OptionName) (value : String)
  | badCount (value : String)
  | unknownLayout (message : String)
  | romMissing
  | unrecognized (texts : List String)
  | romNotFound (path : String)
  | offsetMissing
  | offsetOutside (offset : Int) (size : Nat)
  deriving DecidableEq

def UsageFault.message : UsageFault → String
  | ambiguous text candidates =>
    "ambiguous option: " ++ text ++ " could match " ++ ", ".intercalate candidates
  | valueExpected name => "argument " ++ name.shown ++ ": expected one argument"
  | valueIgnored name value =>
    "argument " ++ name.shown ++ ": ignored explicit argument " ++ Text.quoted value
  | badNumber name value =>
    "argument " ++ name.shown ++ ": invalid _parse_int value: " ++ Text.quoted value
  | badCount value =>
    "argument " ++ OptionName.lines.shown ++ ": invalid int value: " ++ Text.quoted value
  | unknownLayout message => "argument " ++ OptionName.mapMode.shown ++ ": " ++ message
  | romMissing => "the following arguments are required: rom"
  | unrecognized texts => "unrecognized arguments: " ++ " ".intercalate texts
  | romNotFound path => "ROM file not found: " ++ path
  | offsetMissing => "--harsh requires --offset"
  | offsetOutside offset size =>
    "offset " ++ Text.markedHex 0 offset ++ " outside ROM of " ++ Text.markedHex 0 size ++ " bytes"

/-- `helpLetters` is the short help option with further letters behind it. -/
inductive Token where
  | positional (text : String)
  | option (name : OptionName) (value : Option String)
  | helpLetters (letters : String)
  | unknown (text : String)
  | separator
  deriving DecidableEq

/-- A text cut at its first equals sign. -/
def splitValue (text : String) : String × Option String :=
  let cs := text.toList
  let name := String.ofList (cs.takeWhile (· ≠ '='))
  match cs.dropWhile (· ≠ '=') with
  | [] => (name, none)
  | _ :: value => (name, some (String.ofList value))

/-- A minus sign with digits and at most one point that has a digit behind it. One line end may
follow. -/
def isNegativeNumber (text : String) : Bool :=
  match text.toList with
  | '-' :: cs =>
    let cs := if cs.getLast? = some '\n' then cs.dropLast else cs
    match cs.dropWhile Char.isDigit with
    | [] => !cs.isEmpty
    | '.' :: fraction => !fraction.isEmpty && fraction.all Char.isDigit
    | _ => false
  | _ => false

/-- The options that a text which is no full spelling may stand for, each with its value. -/
def candidates (text : String) : List (String × Token) :=
  let cs := text.toList
  if cs.take 2 = ['-', '-'] then
    let (name, value) := splitValue text
    (OptionName.spellings.filter fun (spelling, _) => name.toList.isPrefixOf spelling.toList).map
      fun (spelling, option) => (spelling, .option option value)
  else if cs.take 2 = ['-', 'h'] then [("-h", .helpLetters (String.ofList (cs.drop 2)))]
  else []

/-- What is left for a text that begins with a minus sign and stands for no option. -/
def otherToken (text : String) : Token :=
  if isNegativeNumber text || text.contains ' ' then .positional text else .unknown text

def tokenOf (text : String) : Except UsageFault Token :=
  if !text.startsWith "-" || text = "-" then .ok (.positional text)
  else
    match OptionName.spelled? text with
    | some name => .ok (.option name none)
    | none =>
      match splitValue text with
      | (name, some value) =>
        if name = "-h" then .ok (.helpLetters value)
        else
          match OptionName.spelled? name with
          | some option => .ok (.option option (some value))
          | none => abbreviated text
      | (_, none) => abbreviated text
where
  abbreviated (text : String) : Except UsageFault Token :=
    match candidates text with
    | [] => .ok (otherToken text)
    | [(_, token)] => .ok token
    | several => .error (.ambiguous text (several.map Prod.fst))

/-- Behind a lone double hyphen every text is positional. -/
def tokens : List String → Except UsageFault (List Token)
  | [] => .ok []
  | text :: rest =>
    if text = "--" then .ok (.separator :: rest.map Token.positional)
    else do return (← tokenOf text) :: (← tokens rest)

end Disassembly.CommandLine

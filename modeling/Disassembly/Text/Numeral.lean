import Disassembly.Text.Blank
import Disassembly.Text.Letter
import Disassembly.Text.Quoted

/-!
Integer literals. A literal has an optional sign, an optional base mark, and digits that may be
separated by single underscores.
-/
namespace Disassembly.Text

/-- The base of a literal: decimal, hexadecimal with an optional mark, or chosen by its mark. -/
inductive Radix where
  | decimal
  | hexadecimal
  | byMark
  deriving DecidableEq

/-- The number by which a message names the base. -/
def Radix.name : Radix → String
  | .decimal => "10"
  | .hexadecimal => "16"
  | .byMark => "0"

def digit? (base : Nat) (c : Char) : Option Nat :=
  let value? :=
    if '0' ≤ c ∧ c ≤ '9' then some (c.toNat - '0'.toNat)
    else if 'a' ≤ c ∧ c ≤ 'z' then some (c.toNat - 'a'.toNat + 10)
    else if 'A' ≤ c ∧ c ≤ 'Z' then some (c.toNat - 'A'.toNat + 10)
    else none
  value?.filter (· < base)

/-- At least one digit, with single underscores allowed between two digits. -/
def digits? (base : Nat) : List Char → Option (List Nat)
  | [] => none
  | [c] => (digit? base c).map ([·])
  | c :: '_' :: rest => do return (← digit? base c) :: (← digits? base rest)
  | c :: rest => do return (← digit? base c) :: (← digits? base rest)

def ofDigits (base : Nat) (ds : List Nat) : Nat := ds.foldl (fun n d => n * base + d) 0

def natural? (base : Nat) (cs : List Char) : Option Nat := (digits? base cs).map (ofDigits base)

/-- The base that the letter after a leading zero stands for. -/
def markedBase? (c : Char) : Option Nat :=
  if c = 'x' ∨ c = 'X' then some 16
  else if c = 'o' ∨ c = 'O' then some 8
  else if c = 'b' ∨ c = 'B' then some 2
  else none

/-- The digits after a base mark; one underscore may stand between the two. -/
def afterMark? (base : Nat) : List Char → Option Nat
  | '_' :: rest => natural? base rest
  | rest => natural? base rest

/-- What is wrong with the text of a literal. -/
inductive NumeralFlaw where
  | malformed
  | tooLong (digits : Nat)
  deriving DecidableEq

/-- The most digits that a decimal literal may have. -/
def digitLimit : Nat := 4300

/-- The number of digits that a decimal literal starts with, if they are more than the limit. -/
def surplus? (cs : List Char) : Option Nat := do
  let ds ← digits? 10 (cs.takeWhile fun c => c.isDigit || c = '_')
  if digitLimit < ds.length then some ds.length else none

def orMalformed (value : Option Nat) : Except NumeralFlaw Nat :=
  match value with
  | some n => .ok n
  | none => .error .malformed

/-- A decimal literal. Too many digits are reported first, whatever follows them. -/
def decimal (cs : List Char) : Except NumeralFlaw Nat :=
  match surplus? cs with
  | some count => .error (.tooLong count)
  | none => orMalformed (natural? 10 cs)

/-- A decimal literal whose base was not marked: it begins with zero only if its value is zero. -/
def plain (cs : List Char) : Except NumeralFlaw Nat := do
  let n ← decimal cs
  if cs.head? = some '0' ∧ n ≠ 0 then .error .malformed else .ok n

def unsigned (radix : Radix) (cs : List Char) : Except NumeralFlaw Nat :=
  match radix, cs with
  | .decimal, _ => decimal cs
  | .hexadecimal, '0' :: c :: rest =>
    orMalformed (if markedBase? c = some 16 then afterMark? 16 rest else natural? 16 cs)
  | .hexadecimal, _ => orMalformed (natural? 16 cs)
  | .byMark, '0' :: c :: rest =>
    match markedBase? c with
    | some base => orMalformed (afterMark? base rest)
    | none => plain cs
  | .byMark, _ => plain cs

def signed (radix : Radix) : List Char → Except NumeralFlaw Int
  | '-' :: rest => (unsigned radix rest).map fun n => -(n : Int)
  | '+' :: rest => (unsigned radix rest).map Int.ofNat
  | rest => (unsigned radix rest).map Int.ofNat

/-- White space around a literal: of the ASCII characters only those of the narrow class. -/
def isLiteralBlank (c : Char) : Bool := if c.toNat < 0x80 then isAsciiBlank c else isBlank c

def integer (radix : Radix) (text : String) : Except NumeralFlaw Int :=
  signed radix (trimChars isLiteralBlank text.toList)

/-- A text that is no literal of the wanted base. -/
structure BadNumeral where
  radix : Radix
  text : String
  flaw : NumeralFlaw
  deriving DecidableEq

/-- How much of a quotation a message shows. -/
def shownLength : Nat := 200

def BadNumeral.message (e : BadNumeral) : String :=
  match e.flaw with
  | .malformed =>
    "invalid literal for int() with base " ++ e.radix.name ++ ": " ++
      String.ofList ((quoted e.text).toList.take shownLength)
  | .tooLong digits =>
    "Exceeds the limit (" ++ toString digitLimit ++
      " digits) for integer string conversion: value has " ++ toString digits ++
      " digits; use sys.set_int_max_str_digits() to increase the limit"

/-- A number as users type it: hexadecimal after a dollar sign, else with a base mark or decimal. -/
def parseNumber (text : String) : Except BadNumeral Int :=
  let value := lower (trim text)
  let (radix, body) :=
    match value.toList with
    | '$' :: rest => (Radix.hexadecimal, String.ofList rest)
    | _ => (Radix.byMark, value)
  (integer radix body).mapError fun flaw => ⟨radix, body, flaw⟩

end Disassembly.Text

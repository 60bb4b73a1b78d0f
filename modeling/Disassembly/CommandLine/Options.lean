import Disassembly.CommandLine.Token
import Disassembly.Layout.Basic
import Disassembly.Text.Numeral

/-! The options of a run, read from the command line. -/
namespace Disassembly.CommandLine

/-- What an option is given: nothing but a double hyphen behind its equals sign, or a value. -/
inductive Given (α : Type) where
  | empty
  | value (a : α)
  deriving DecidableEq

structure Options where
  rom : String
  layout : Option (Given Layout) := none
  offset : Option (Given Int) := none
  harsh : Option (Given Int) := none
  lines : Int := 0
  deriving DecidableEq

/-- Options read so far, with the texts that nothing has taken. -/
structure Draft where
  rom : Option String := none
  layout : Option (Given Layout) := none
  offset : Option (Given Int) := none
  harsh : Option (Given Int) := none
  lines : Int := 0
  extras : List String := []

inductive Request where
  | help
  | run (options : Options)
  deriving DecidableEq

/-- A path without empty and single-dot parts. -/
def normalPath (path : String) : String :=
  let cs := path.toList
  let root :=
    if cs.take 2 = ['/', '/'] && (cs.drop 2).head? != some '/' then "//"
    else if cs.head? == some '/' then "/"
    else ""
  let parts := (path.splitOn "/").filter fun part => part ≠ "" && part ≠ "."
  let normal := root ++ "/".intercalate parts
  if normal = "" then "." else normal

namespace Draft

def layoutOf (value : String) : Except UsageFault (Given Layout) :=
  if value = "--" then .ok .empty
  else
    match Layout.ofName value with
    | .ok layout => .ok (.value layout)
    | .error e => .error (.unknownLayout e.message)

def numberOf (name : OptionName) (value : String) : Except UsageFault (Given Int) :=
  if value = "--" then .ok .empty
  else
    match Text.parseNumber value with
    | .ok n => .ok (.value n)
    | .error _ => .error (.badNumber name value)

/-- A limit for the lines; an empty one is no limit. -/
def linesOf (value : String) : Except UsageFault Int :=
  if value = "--" then .ok 0
  else (Text.integer .decimal value).mapError fun _ => .badCount value

/-- Gives an option its value. The last occurrence of an option counts. -/
def set (d : Draft) (name : OptionName) (value : String) : Except UsageFault Draft :=
  match name with
  | .help => .error (.valueIgnored .help value)
  | .mapMode => do return { d with layout := some (← layoutOf value) }
  | .offset => do return { d with offset := some (← numberOf .offset value) }
  | .harsh => do return { d with harsh := some (← numberOf .harsh value) }
  | .lines => do return { d with lines := ← linesOf value }

def addExtra (d : Draft) (text : String) : Draft := { d with extras := d.extras ++ [text] }

/-- The first positional text is the path; the others are surplus. -/
def addPositional (d : Draft) (text : String) : Draft :=
  match d.rom with
  | none => { d with rom := some text }
  | some _ => d.addExtra text

/-- The options, if the path is there and nothing is left over. -/
def finish (d : Draft) : Except UsageFault Request :=
  match d.rom with
  | none => .error .romMissing
  | some rom =>
    if d.extras = [] then
      .ok (.run ⟨normalPath rom, d.layout, d.offset, d.harsh, d.lines⟩)
    else .error (.unrecognized d.extras)

end Draft

/-- Reads the tokens in order. A help option ends the reading at once. -/
def readTokens : List Token → Draft → Except UsageFault Request
  | [], d => d.finish
  | .unknown text :: rest, d => readTokens rest (d.addExtra text)
  | .option .help none :: _, _ => .ok .help
  | .helpLetters letters :: _, _ =>
    let surplus := letters.toList.dropWhile (· = 'h')
    if letters ≠ "" && surplus.isEmpty then .ok .help
    else .error (.valueIgnored .help (String.ofList surplus))
  | .option name (some value) :: rest, d => do readTokens rest (← d.set name value)
  | .option name none :: .positional value :: rest, d => do readTokens rest (← d.set name value)
  | .option name none :: _, _ => .error (.valueExpected name)
  | .positional text :: .separator :: rest, d =>
    if d.rom.isNone then readTokens rest (d.addPositional text)
    else readTokens rest ((d.addExtra text).addExtra "--")
  | .positional text :: rest, d => readTokens rest (d.addPositional text)
  | .separator :: .positional text :: rest, d =>
    if d.rom.isNone then readTokens rest (d.addPositional text)
    else readTokens rest ((d.addExtra "--").addExtra text)
  | .separator :: rest, d => readTokens rest (d.addExtra "--")

/-- Sorts all arguments before the first option is given its value. -/
def parse (args : List String) : Except UsageFault Request := do readTokens (← tokens args) {}

end Disassembly.CommandLine

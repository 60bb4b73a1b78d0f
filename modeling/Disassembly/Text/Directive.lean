import Disassembly.Text.Decimal
import Disassembly.Text.Numeral
import Disassembly.Text.Quoted

/-!
Message templates. A percent sign starts a directive that is replaced by the next argument; a
template that does not fit its arguments is shown as it is, with the arguments after it. Templates
are read from left to right, so that the first problem decides the outcome.
-/
namespace Disassembly.Text

inductive Argument where
  | text (s : String)
  | integer (n : Int)
  | truth (b : Bool)
  | absent
  deriving DecidableEq

namespace Argument

def shown : Argument → String
  | text s => s
  | integer n => toString n
  | truth true => "True"
  | truth false => "False"
  | absent => "None"

def quoted : Argument → String
  | text s => Text.quoted s
  | a => a.shown

/-- The value of an argument in a numeric directive; a truth value counts as one or zero. -/
def number? : Argument → Option Int
  | integer n => some n
  | truth b => some (if b then 1 else 0)
  | _ => none

/-- The arguments in brackets; a single one is followed by a comma. -/
def listing : List Argument → String
  | [a] => "(" ++ a.quoted ++ ",)"
  | args => "(" ++ ", ".intercalate (args.map quoted) ++ ")"

end Argument

inductive Conversion where
  | plain
  | quoted
  | quotedAscii
  | character
  | decimal
  | octal
  | hexadecimal (upper : Bool)
  | rounded (form : DecimalForm) (upper : Bool)
  deriving DecidableEq

def Conversion.ofChar? (c : Char) : Option Conversion :=
  if c = 's' then some .plain
  else if c = 'r' then some .quoted
  else if c = 'a' then some .quotedAscii
  else if c = 'c' then some .character
  else if c = 'd' ∨ c = 'i' ∨ c = 'u' then some .decimal
  else if c = 'o' then some .octal
  else if c = 'x' ∨ c = 'X' then some (.hexadecimal (c = 'X'))
  else if c = 'f' ∨ c = 'F' then some (.rounded .positional (c = 'F'))
  else if c = 'e' ∨ c = 'E' then some (.rounded .scientific (c = 'E'))
  else if c = 'g' ∨ c = 'G' then some (.rounded .general (c = 'G'))
  else none

/-- A demand that goes beyond what can be written. -/
inductive Excess where
  | width
  | precision
  | digits
  | character
  | magnitude
  | memory
  deriving DecidableEq

def Excess.message : Excess → String
  | width => "Python int too large to convert to C ssize_t"
  | precision => "Python int too large to convert to C int"
  | digits => "precision too large"
  | character => "%c arg not in range(0x110000)"
  | magnitude => "int too large to convert to float"
  | memory => ""

/-- Why a template is not filled. -/
inductive FillFault where
  | misfit
  | excess (e : Excess)
  deriving DecidableEq

/-- The options of a directive, and the room that it asks for. -/
structure Field where
  options : List Char
  left : Bool
  width : Nat
  precision : Option Nat

/-- What is left of a template and its arguments. -/
structure Rest where
  chars : List Char
  args : List Argument

def isOption (c : Char) : Bool := ['-', '+', ' ', '#', '0'].contains c

/--
A width or a precision: written out, or taken from the arguments. A number that does not fit in the
given bits and a sign is an excess in an argument and a misfit in the template.
-/
def extent (bits : Nat) (excess : Excess) (rest : Rest) : Except FillFault (Option Int × Rest) :=
  match rest with
  | ⟨'*' :: cs, a :: args⟩ =>
    match a.number? with
    | none => .error .misfit
    | some n =>
      let limit : Int := Nat.pow 2 bits
      if -limit ≤ n ∧ n < limit then .ok (some n, ⟨cs, args⟩) else .error (.excess excess)
  | ⟨'*' :: _, []⟩ => .error .misfit
  | ⟨cs, args⟩ =>
    match natural? 10 (cs.takeWhile Char.isDigit) with
    | none => .ok (none, rest)
    | some n =>
      if n < Nat.pow 2 bits then .ok (some n, ⟨cs.dropWhile Char.isDigit, args⟩)
      else .error .misfit

/-- A precision stands behind a point; it is zero if no number or a negative one follows. -/
def precisionOf (rest : Rest) : Except FillFault (Option Nat × Rest) :=
  match rest.chars with
  | '.' :: cs => do
    let (precision, rest) ← extent 31 .precision { rest with chars := cs }
    return (some (precision.getD 0).toNat, rest)
  | _ => .ok (none, rest)

/-- One size letter before the conversion has no effect. -/
def skipSize : List Char → List Char
  | c :: rest => if c = 'h' ∨ c = 'l' ∨ c = 'L' then rest else c :: rest
  | [] => []

/--
The directive after a percent sign, up to its conversion letter. A negative width asks for blanks on
the right; the least number of 64 bits has no opposite and asks for none.
-/
def fieldOf (rest : Rest) : Except FillFault (Field × Rest) := do
  let options := rest.chars.takeWhile isOption
  let (width, rest) ← extent 63 .width { rest with chars := rest.chars.dropWhile isOption }
  let (precision, rest) ← precisionOf rest
  let width := width.getD 0
  let field : Field :=
    { options
      left := options.contains '-' || width < 0
      width := if width = -0x8000000000000000 then 0 else width.natAbs
      precision }
  return (field, { rest with chars := skipSize rest.chars })

/-- The most characters that a field may ask for. -/
def roomLimit : Nat := 0x40000000

namespace Field

def has (f : Field) (option : Char) : Bool := f.options.contains option

/-- Brings a text to the width of the field. A number's zeros stand behind its sign and mark. -/
def pad (f : Field) (numeric : Bool) (head body : List Char) : Except FillFault (List Char) :=
  let gap := f.width - head.length - body.length
  if roomLimit < f.width then .error (.excess .memory)
  else if f.left then .ok (head ++ body ++ List.replicate gap ' ')
  else if numeric && f.has '0' then .ok (head ++ List.replicate gap '0' ++ body)
  else .ok (List.replicate gap ' ' ++ head ++ body)

/-- A text, cut to the precision. -/
def text (f : Field) (s : String) : Except FillFault (List Char) :=
  f.pad false [] (match f.precision with
    | some p => s.toList.take p
    | none => s.toList)

def sign (f : Field) (n : Int) : List Char :=
  if n < 0 then ['-'] else if f.has '+' then ['+'] else if f.has ' ' then [' '] else []

/-- A whole number; the precision is its least number of digits. -/
def whole (f : Field) (mark digits : List Char) (n : Int) : Except FillFault (List Char) :=
  let least := f.precision.getD 0
  if 0x7FFFFFFC < least then .error (.excess .digits)
  else if roomLimit < least then .error (.excess .memory)
  else
    f.pad true (f.sign n ++ if f.has '#' then mark else [])
      (List.replicate (least - digits.length) '0' ++ digits)

/-- A number with a point; six is the usual precision. -/
def rounded (f : Field) (form : DecimalForm) (upper : Bool) (n : Int) :
    Except FillFault (List Char) :=
  let places := f.precision.getD 6
  match nearestDouble? n.natAbs with
  | none => .error (.excess .magnitude)
  | some value =>
    if roomLimit < places then .error (.excess .memory)
    else f.pad true (f.sign n) (decimalChars form upper (f.has '#') places value)

/-- A single character, or the one with the given code point. -/
def character (f : Field) (a : Argument) : Except FillFault (List Char) :=
  match a, a.number? with
  | .text s, _ => if s.length = 1 then f.pad false [] s.toList else .error .misfit
  | _, some n =>
    if 0 ≤ n ∧ n < 0x110000 then f.pad false [] [Char.ofNat n.toNat]
    else .error (.excess .character)
  | _, none => .error .misfit

def number (f : Field) (conversion : Conversion) (n : Int) : Except FillFault (List Char) :=
  match conversion with
  | .octal => f.whole ['0', 'o'] (Nat.toDigits 8 n.natAbs) n
  | .hexadecimal upper =>
    f.whole ['0', if upper then 'X' else 'x'] (hexDigits upper n.natAbs) n
  | .rounded form upper => f.rounded form upper n
  | _ => f.whole [] (Nat.toDigits 10 n.natAbs) n

/-- The text of an argument. -/
def chars (f : Field) (conversion : Conversion) (a : Argument) : Except FillFault (List Char) :=
  match conversion with
  | .plain => f.text a.shown
  | .quoted => f.text a.quoted
  | .quotedAscii =>
    match a with
    | .text s => f.text (quotedAscii s)
    | _ => f.text a.quoted
  | .character => f.character a
  | _ =>
    match a.number? with
    | some n => f.number conversion n
    | none => .error .misfit

end Field

/--
Fills a template of at most `n` characters. Every directive needs an argument and every argument a
directive; two percent signs in a row stand for one.
-/
def fill : Nat → List Char → List Argument → Except FillFault (List Char)
  | _, [], [] => .ok []
  | _, [], _ :: _ => .error .misfit
  | 0, _ :: _, _ => .error .misfit
  | n + 1, '%' :: '%' :: cs, args => do return '%' :: (← fill n cs args)
  | n + 1, '%' :: cs, args => do
    match ← fieldOf ⟨cs, args⟩ with
    | (field, ⟨c :: cs, a :: args⟩) =>
      match Conversion.ofChar? c with
      | some conversion =>
        let text ← field.chars conversion a
        return text ++ (← fill n cs args)
      | none => .error .misfit
    | _ => .error .misfit
  | n + 1, c :: cs, args => do return c :: (← fill n cs args)

/-- A message without arguments is taken as it is. -/
def fillMessage (message : String) : List Argument → Except Excess String
  | [] => .ok message
  | args =>
    let cs := message.toList
    match fill cs.length cs args with
    | .ok filled => .ok (String.ofList filled)
    | .error .misfit => .ok (message ++ " " ++ Argument.listing args)
    | .error (.excess e) => .error e

end Disassembly.Text

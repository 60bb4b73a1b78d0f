/-! Hexadecimal fields: sign, optional `0x` mark, zeros up to a total width, digits. -/
namespace Disassembly.Text

/-- How a number is written in base sixteen. `width` counts sign and mark. -/
structure HexStyle where
  width : Nat := 0
  marked : Bool := false
  upper : Bool := false
  deriving DecidableEq

def hexDigits (upper : Bool) (n : Nat) : List Char :=
  (Nat.toDigits 16 n).map fun c => if upper then c.toUpper else c

def HexStyle.head (style : HexStyle) (n : Int) : List Char :=
  (if n < 0 then ['-'] else []) ++ (if style.marked then ['0', 'x'] else [])

def HexStyle.chars (style : HexStyle) (n : Int) : List Char :=
  let head := style.head n
  let digits := hexDigits style.upper n.natAbs
  head ++ List.replicate (style.width - head.length - digits.length) '0' ++ digits

def HexStyle.render (style : HexStyle) (n : Int) : String := String.ofList (style.chars n)

/-- Upper-case digits, as listings and traces show numbers. -/
def upperHex (width : Nat) : Int → String := HexStyle.render { width, upper := true }

/-- Lower-case digits, as diagnostics show numbers. -/
def lowerHex (width : Nat) : Int → String := HexStyle.render { width }

/-- Lower-case digits after `0x`, as error messages show numbers. -/
def markedHex (width : Nat) : Int → String := HexStyle.render { width, marked := true }

/-- A literal of assembly text: a dollar sign and at least `digits` digits. -/
def dollarHex (digits : Nat) (n : Int) : String := "$" ++ upperHex digits n

/-- Two upper-case digits per byte, separated by blanks. -/
def hexBytes (bytes : List UInt8) : String :=
  " ".intercalate (bytes.map fun b => upperHex 2 b.toNat)

/-- Text filled with blanks on the right up to `width` characters. -/
def padRight (width : Nat) (text : String) : String :=
  text ++ String.ofList (List.replicate (width - text.length) ' ')

/-- The column of a listing that shows bytes; four of them fill it. -/
def byteColumn (bytes : List UInt8) : String := padRight 11 (hexBytes bytes)

end Disassembly.Text

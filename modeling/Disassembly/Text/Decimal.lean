/-!
Decimal texts of natural numbers: with a fixed number of places, with a power of ten, or in the
shorter of the two forms.
-/
namespace Disassembly.Text

/-- The quotient rounded to the nearest number; a half goes to the even one. -/
def roundedQuotient (n d : Nat) : Nat :=
  let q := n / d
  let r := n % d
  if 2 * r < d ∨ (2 * r = d ∧ q % 2 = 0) then q else q + 1

/-- The nearest number with at most 53 binary digits, if it is below `2 ^ 1024`. -/
def nearestDouble? (n : Nat) : Option Nat :=
  let unit := Nat.pow 2 (n.log2 - 52)
  let value := roundedQuotient n unit * unit
  if value < Nat.pow 2 1024 then some value else none

inductive DecimalForm where
  | positional
  | scientific
  | general
  deriving DecidableEq

/-- The first `count` digits, rounded, and the power of ten of the first one. -/
def leadingDigits (count n : Nat) : List Char × Nat :=
  let digits := Nat.toDigits 10 n
  let power := digits.length - 1
  if digits.length ≤ count then
    (digits ++ List.replicate (count - digits.length) '0', power)
  else
    let rounded := Nat.toDigits 10 (roundedQuotient n (Nat.pow 10 (digits.length - count)))
    (rounded.take count, power + (rounded.length - count))

/-- Digits with a point behind the first `whole` of them, if any follow or one is wanted. -/
def withPoint (pointed : Bool) (whole : Nat) (digits : List Char) : List Char :=
  let fraction := digits.drop whole
  digits.take whole ++ if pointed || !fraction.isEmpty then '.' :: fraction else []

/-- Digits without the zeros at the end, of which the first `whole` stay. -/
def withoutZeros (whole : Nat) (digits : List Char) : List Char :=
  digits.take whole ++ ((digits.drop whole).reverse.dropWhile (· = '0')).reverse

def powerChars (upper : Bool) (power : Nat) : List Char :=
  let digits := Nat.toDigits 10 power
  (if upper then 'E' else 'e') :: '+' :: List.replicate (2 - digits.length) '0' ++ digits

/--
The text of a number with `places` digits behind the point. The general form counts significant
digits instead and drops zeros at the end, unless a point is wanted in any case.
-/
def decimalChars (form : DecimalForm) (upper pointed : Bool) (places n : Nat) : List Char :=
  match form with
  | .positional =>
    let digits := Nat.toDigits 10 n
    withPoint pointed digits.length (digits ++ List.replicate places '0')
  | .scientific =>
    let (digits, power) := leadingDigits (places + 1) n
    withPoint pointed 1 digits ++ powerChars upper power
  | .general =>
    let count := max places 1
    let (digits, power) := leadingDigits count n
    let whole := if power < count then power + 1 else 1
    let digits := if pointed then digits else withoutZeros whole digits
    withPoint pointed whole digits ++ if power < count then [] else powerChars upper power

end Disassembly.Text

import Disassembly.Text.Hex
import Mathlib.Algebra.Group.Nat.Defs
import Mathlib.Data.List.Basic

/-!
Literals of a fixed width. A number that fits its field is written with exactly as many digits as
the field has, so the field can be told from what stands around it and determines the number.
-/
namespace Disassembly.Text

/-- An upper-case digit. -/
def upperDigit (d : Nat) : Char := d.digitChar.toUpper

/-- The last `width` digits of a number, the highest first. -/
def field : (width n : Nat) → List Char
  | 0, _ => []
  | width + 1, n => field width (n / 16) ++ [upperDigit (n % 16)]

theorem field_zero (width : Nat) : field width 0 = List.replicate width '0' := by
  induction width with
  | zero => rfl
  | succ width ih =>
    rw [field, Nat.zero_div, ih, List.replicate_succ']
    rfl

theorem upperDigit_inj {a b : Nat} (ha : a < 16) (hb : b < 16) (h : upperDigit a = upperDigit b) :
    a = b := by
  have hall : ∀ a < 16, ∀ b < 16, upperDigit a = upperDigit b → a = b := by decide
  exact hall a ha b hb h

/-- A field determines the number if that fits. -/
theorem field_inj {width m n : Nat} (hm : m < 16 ^ width) (hn : n < 16 ^ width)
    (h : field width m = field width n) : m = n := by
  induction width generalizing m n with
  | zero =>
    rw [Nat.pow_zero] at hm hn
    omega
  | succ width ih =>
    obtain ⟨hhigh, hlow⟩ := List.append_inj' h rfl
    have hdigit := upperDigit_inj (Nat.mod_lt m (by decide)) (Nat.mod_lt n (by decide))
      (List.singleton_inj.1 hlow)
    have hrest := ih (Nat.div_lt_of_lt_mul (by rwa [Nat.pow_succ'] at hm))
      (Nat.div_lt_of_lt_mul (by rwa [Nat.pow_succ'] at hn)) hhigh
    omega

/-- The digits of a number stand behind zeros. -/
theorem chars_natCast (width n : Nat) : HexStyle.chars { width, upper := true } (n : Int) =
    List.replicate (width - (Nat.toDigits 16 n).length) '0' ++
      (Nat.toDigits 16 n).map Char.toUpper := by
  have hsign : ¬ (n : Int) < 0 := by omega
  simp [HexStyle.chars, HexStyle.head, hexDigits, hsign]

/-- A number that fits is written as its field. -/
theorem chars_eq_field {width n : Nat} (hpos : 0 < width) (hn : n < 16 ^ width) :
    HexStyle.chars { width, upper := true } (n : Int) = field width n := by
  rw [chars_natCast]
  induction width generalizing n with
  | zero => omega
  | succ width ih =>
    by_cases hsmall : n < 16
    · rw [Nat.toDigits_of_lt_base hsmall, field, Nat.div_eq_of_lt hsmall, Nat.mod_eq_of_lt hsmall,
        field_zero]
      simp [upperDigit]
    · have hhigh : n / 16 < 16 ^ width := Nat.div_lt_of_lt_mul (by rwa [Nat.pow_succ'] at hn)
      have hwidth : 0 < width := by
        by_contra hzero
        obtain rfl : width = 0 := by omega
        rw [Nat.pow_zero] at hhigh
        omega
      rw [Nat.toDigits_of_base_le (by decide) (by omega), field, ← ih hwidth hhigh]
      simp [upperDigit]

/-- The characters of a literal. -/
theorem toList_dollarHex {width n : Nat} (hpos : 0 < width) (hn : n < 16 ^ width) :
    (dollarHex width n).toList = '$' :: field width n := by
  simp [dollarHex, upperHex, HexStyle.render, chars_eq_field hpos hn]

/-- The characters of a column of bytes: two digits for each, with a blank between two of them. -/
theorem toList_hexBytes (bytes : List UInt8) :
    (hexBytes bytes).toList = [' '].intercalate (bytes.map fun b => field 2 b.toNat) := by
  have hbyte (b : UInt8) : (upperHex 2 b.toNat).toList = field 2 b.toNat := by
    simp [upperHex, HexStyle.render, chars_eq_field Nat.two_pos b.toNat_lt]
  simp only [hexBytes, String.toList_intercalate, List.map_map, Function.comp_def, hbyte]
  rfl

theorem field_ne_blank {width n : Nat} : ∀ c ∈ field width n, c ≠ ' ' := by
  have hdigit : ∀ d < 16, upperDigit d ≠ ' ' := by decide
  induction width generalizing n with
  | zero => simp [field]
  | succ width ih =>
    intro c hc
    rcases List.mem_append.1 hc with hc | hc
    · exact ih c hc
    · rw [List.mem_singleton.1 hc]
      exact hdigit _ (Nat.mod_lt n (by decide))

/-- Without its blanks a column shows the digits of all bytes one behind the other. -/
theorem filter_byteColumn (bytes : List UInt8) :
    (byteColumn bytes).toList.filter (· ≠ ' ') = bytes.flatMap fun b => field 2 b.toNat := by
  have hdigits (b : UInt8) : (field 2 b.toNat).filter (· ≠ ' ') = field 2 b.toNat := by
    simpa using field_ne_blank
  have hbytes : (hexBytes bytes).toList.filter (· ≠ ' ') =
      bytes.flatMap fun b => field 2 b.toNat := by
    rw [toList_hexBytes]
    induction bytes with
    | nil => rfl
    | cons b rest ih =>
      cases rest with
      | nil => simpa using hdigits b
      | cons c rest =>
        rw [List.map_cons] at ih
        rw [List.map_cons, List.map_cons, List.intercalate_cons_cons, List.filter_append,
          List.filter_append, hdigits, ih]
        simp
  simpa [byteColumn, padRight] using hbytes

theorem flatMap_field_inj {bytes others : List UInt8}
    (h : (bytes.flatMap fun b => field 2 b.toNat) = others.flatMap fun b => field 2 b.toNat) :
    bytes = others := by
  induction bytes generalizing others with
  | nil =>
    cases others with
    | nil => rfl
    | cons c more => simp [field] at h
  | cons b rest ih =>
    cases others with
    | nil => simp [field] at h
    | cons c more =>
      rw [List.flatMap_cons, List.flatMap_cons] at h
      obtain ⟨hfirst, hrest⟩ := List.append_inj h rfl
      rw [UInt8.toNat_inj.1 (field_inj b.toNat_lt c.toNat_lt hfirst), ih hrest]

/-- A column determines the bytes that it shows. -/
theorem byteColumn_inj {bytes others : List UInt8} (h : byteColumn bytes = byteColumn others) :
    bytes = others := by
  apply flatMap_field_inj
  rw [← filter_byteColumn, ← filter_byteColumn, h]

theorem dollarHex_inj {width m n : Nat} (hpos : 0 < width) (hm : m < 16 ^ width)
    (hn : n < 16 ^ width) (h : dollarHex width m = dollarHex width n) : m = n := by
  have hchars := congrArg String.toList h
  rw [toList_dollarHex hpos hm, toList_dollarHex hpos hn] at hchars
  exact field_inj hm hn (List.tail_eq_of_cons_eq hchars)

/-- Upper-case digits become zeros. -/
def blank (c : Char) : Char := if c.isDigit ∨ 'A' ≤ c ∧ c ≤ 'F' then '0' else c

theorem map_blank_field (width n : Nat) :
    (field width n).map blank = List.replicate width '0' := by
  have hdigit : ∀ d < 16, blank (upperDigit d) = '0' := by decide
  induction width generalizing n with
  | zero => rfl
  | succ width ih =>
    rw [field, List.map_append, ih, List.replicate_succ', List.map_singleton,
      hdigit _ (Nat.mod_lt n (by decide))]

/-- With its digits blanked, a literal shows its width only. -/
theorem map_blank_dollarHex {width n : Nat} (hpos : 0 < width) (hn : n < 16 ^ width) :
    (dollarHex width n).toList.map blank = '$' :: List.replicate width '0' := by
  rw [toList_dollarHex hpos hn, List.map_cons, map_blank_field]
  rfl

end Disassembly.Text

import Disassembly.Layout.Mirror
import Mathlib.Data.Int.ModEq
import Mathlib.Order.Bounds.Basic
import Mathlib.Tactic.Linarith
import Mathlib.Tactic.Positivity
import Mathlib.Tactic.Ring

/-!
Mirrors behind the end of an image. The window repeats with the least doubled half bank that covers
the image. What lies between the image and the end of its period is taken from the trailing chunk,
the largest doubled half bank that divides the image: it is counted back by chunks until it falls
into the image. An image that ends inside a half bank has no such chunk and goes back by half banks.
-/
namespace Disassembly.Layout

/-- Half a bank, doubled any number of times. -/
def IsDoubled (n : Int) : Prop := ∃ k : Nat, n = 0x8000 * 2 ^ k

namespace IsDoubled

variable {p q : Int}

theorem pos (h : IsDoubled p) : 0 < p := by
  obtain ⟨k, rfl⟩ := h
  positivity

theorem halfBank_dvd (h : IsDoubled p) : 0x8000 ∣ p := by
  obtain ⟨k, rfl⟩ := h
  exact dvd_mul_right _ _

/-- Of two doubled half banks the smaller one can be doubled further to the larger one. -/
theorem two_mul_dvd (hq : IsDoubled q) (hp : IsDoubled p) (h : q < p) : 2 * q ∣ p := by
  obtain ⟨j, rfl⟩ := hq
  obtain ⟨k, rfl⟩ := hp
  have hpow : (2 : Int) ^ j < 2 ^ k := by omega
  have hlt : j < k := (pow_lt_pow_iff_right₀ one_lt_two).1 hpow
  calc (2 : Int) * (0x8000 * 2 ^ j) = 0x8000 * 2 ^ (j + 1) := by ring
    _ ∣ 0x8000 * 2 ^ k := mul_dvd_mul_left _ (pow_dvd_pow 2 hlt)

theorem dvd_of_le (hq : IsDoubled q) (hp : IsDoubled p) (h : q ≤ p) : q ∣ p := by
  rcases h.lt_or_eq with hlt | rfl
  · exact (dvd_mul_left q 2).trans (hq.two_mul_dvd hp hlt)
  · exact dvd_rfl

end IsDoubled

section Period

variable {size : Int}

theorem doublings_le_iff {n k : Nat} : doublings n ≤ k ↔ n ≤ 0x8000 * 2 ^ k := by
  have hpow : 0 < 2 ^ k := Nat.two_pow_pos k
  unfold doublings
  split
  · omega
  · next hlarge =>
    have hhalves : (n - 1) / 0x8000 ≠ 0 := by omega
    rw [Nat.succ_le_iff, Nat.log2_lt hhalves, Nat.div_lt_iff_lt_mul (by omega)]
    omega

theorem period_eq (size : Int) : period size = 0x8000 * 2 ^ doublings size.toNat := by
  simp [period, halfBank]

/-- The period is the first doubled half bank that covers the image. -/
theorem isLeast_period (size : Int) : IsLeast {p | IsDoubled p ∧ size ≤ p} (period size) := by
  have hcovers (k : Nat) : size ≤ 0x8000 * 2 ^ k ↔ doublings size.toNat ≤ k := by
    rw [doublings_le_iff, Int.toNat_le]
    push_cast
    rfl
  constructor
  · exact ⟨⟨_, period_eq size⟩, by rw [period_eq, hcovers]⟩
  · rintro p ⟨⟨k, rfl⟩, hp⟩
    have hpow : (2 : Int) ^ doublings size.toNat ≤ 2 ^ k :=
      pow_le_pow_right₀ one_le_two ((hcovers k).1 hp)
    rw [period_eq]
    omega

theorem isDoubled_period (size : Int) : IsDoubled (period size) := (isLeast_period size).1.1

theorem le_period (size : Int) : size ≤ period size := (isLeast_period size).1.2

end Period

section Chunk

variable {size chunk : Int}

/-- Doubling ends at a chunk whose double does not divide the image, if it may go on long enough.
Unless it ends at once, the chunk itself divides the image. -/
theorem doubledChunk_spec {n : Nat} (hsize : 0 < size) (hchunk : 0 < chunk)
    (hfuel : size < chunk * 2 ^ (n + 1)) :
    (∃ k, doubledChunk size n chunk = chunk * 2 ^ k) ∧ ¬ 2 * doubledChunk size n chunk ∣ size ∧
      (doubledChunk size n chunk = chunk ∨ doubledChunk size n chunk ∣ size) := by
  induction n generalizing chunk with
  | zero =>
    refine ⟨⟨0, by simp [doubledChunk]⟩, fun hdvd => ?_, Or.inl rfl⟩
    have hle : 2 * chunk ≤ size := Int.le_of_dvd hsize hdvd
    omega
  | succ n ih =>
    rw [doubledChunk]
    split
    · next hdouble =>
      have hfuel' : size < 2 * chunk * 2 ^ (n + 1) := by
        calc size < chunk * 2 ^ (n + 1 + 1) := hfuel
          _ = 2 * chunk * 2 ^ (n + 1) := by ring
      obtain ⟨⟨k, hk⟩, hends, hdvd⟩ := ih (by omega) hfuel'
      refine ⟨⟨k + 1, by rw [hk]; ring⟩, hends, Or.inr ?_⟩
      rcases hdvd with hsame | hdvd
      · rw [hsame]
        exact Int.dvd_of_emod_eq_zero hdouble
      · exact hdvd
    · next hdouble =>
      refine ⟨⟨0, by simp⟩, fun hdvd => hdouble (Int.emod_eq_zero_of_dvd hdvd), Or.inl rfl⟩

theorem trailingChunk_spec (hsize : 0 < size) :
    IsDoubled (trailingChunk size) ∧ ¬ 2 * trailingChunk size ∣ size ∧
      (trailingChunk size = 0x8000 ∨ trailingChunk size ∣ size) := by
  have hlog : size.natAbs < 2 ^ (size.natAbs.log2 + 1) := Nat.lt_log2_self
  have hlog : size < 2 ^ (size.natAbs.log2 + 1) := by
    zify at hlog
    rwa [abs_of_pos hsize] at hlog
  exact doubledChunk_spec hsize (by decide) (by rw [halfBank]; omega)

/-- The trailing chunk is the largest doubled half bank that divides the image. -/
theorem isGreatest_trailingChunk (hsize : 0 < size) (hhalves : 0x8000 ∣ size) :
    IsGreatest {q | IsDoubled q ∧ q ∣ size} (trailingChunk size) := by
  obtain ⟨hdoubled, hends, hdvd⟩ := trailingChunk_spec hsize
  constructor
  · refine ⟨hdoubled, ?_⟩
    rcases hdvd with hhalf | hdvd
    · rwa [hhalf]
    · exact hdvd
  · rintro q ⟨hq, hqdvd⟩
    by_contra hlt
    exact hends ((hdoubled.two_mul_dvd hq (not_le.1 hlt)).trans hqdvd)

theorem trailingChunk_le (hsize : 0x8000 ≤ size) : trailingChunk size ≤ size := by
  have hpos : 0 < size := by omega
  rcases (trailingChunk_spec hpos).2.2 with hhalf | hdvd
  · rwa [hhalf]
  · exact Int.le_of_dvd hpos hdvd

theorem trailingChunk_dvd_period (hsize : 0x8000 ≤ size) : trailingChunk size ∣ period size :=
  (trailingChunk_spec (by omega)).1.dvd_of_le (isDoubled_period size)
    ((trailingChunk_le hsize).trans (le_period size))

end Chunk

section Folding

variable {size offset : Int}

/-- Offsets of the image lie in the first period and need no case of their own. -/
theorem unmirror_eq (h0 : 0 ≤ offset) :
    unmirror offset size =
      if offset % period size < size then offset % period size
      else size - trailingChunk size + (offset % period size - size) % trailingChunk size := by
  by_cases hin : offset < size
  · have hfirst : offset % period size = offset :=
      Int.emod_eq_of_lt h0 (hin.trans_le (le_period size))
    rw [unmirror_of_lt hin, hfirst, if_pos hin]
  · rw [unmirror, if_neg hin]

theorem unmirror_add_period (h0 : 0 ≤ offset) :
    unmirror (offset + period size) size = unmirror offset size := by
  have hpos := (isDoubled_period size).pos
  rw [unmirror_eq (by omega), unmirror_eq h0, Int.add_emod_right]

/-- Inside its period an offset is counted back by chunks as long as it lies behind the image. -/
theorem exists_unmirror_eq_sub (hsize : 0 < size) (h0 : 0 ≤ offset) :
    ∃ n : Nat, unmirror offset size = offset % period size - n * trailingChunk size ∧
      ∀ i < n, size ≤ offset % period size - i * trailingChunk size := by
  have hchunk := (trailingChunk_spec hsize).1.pos
  rw [unmirror_eq h0]
  generalize offset % period size = place
  split
  · exact ⟨0, by simp, by simp⟩
  · next hbehind =>
    obtain ⟨m, hm⟩ := Int.eq_ofNat_of_zero_le
      (Int.ediv_nonneg (a := place - size) (by omega) hchunk.le)
    have hdiv := Int.emod_add_mul_ediv (place - size) (trailingChunk size)
    rw [hm] at hdiv
    have hrest := Int.emod_nonneg (place - size) hchunk.ne'
    refine ⟨m + 1, ?_, fun i hi => ?_⟩
    · push_cast
      linarith
    · have hle : (i : Int) * trailingChunk size ≤ m * trailingChunk size :=
        Int.mul_le_mul_of_nonneg_right (by omega) hchunk.le
      linarith

theorem unmirror_modEq {m : Int} (hsize : 0 < size) (h0 : 0 ≤ offset) (hp : m ∣ period size)
    (hq : m ∣ trailingChunk size) : unmirror offset size ≡ offset [ZMOD m] := by
  obtain ⟨n, hn, -⟩ := exists_unmirror_eq_sub hsize h0
  have hplace : offset % period size ≡ offset [ZMOD m] := (Int.mod_modEq _ _).of_dvd hp
  have hcounted : (n : Int) * trailingChunk size ≡ 0 [ZMOD m] :=
    (Int.modEq_zero_iff_dvd).2 (hq.mul_left _)
  rw [hn]
  simpa using hplace.sub hcounted

theorem unmirror_modEq_halfBank (hsize : 0 < size) (h0 : 0 ≤ offset) :
    unmirror offset size ≡ offset [ZMOD 0x8000] :=
  unmirror_modEq hsize h0 (isDoubled_period size).halfBank_dvd
    (trailingChunk_spec hsize).1.halfBank_dvd

theorem unmirror_lt (hsize : 0 < size) (h0 : 0 ≤ offset) : unmirror offset size < size := by
  have hchunk := (trailingChunk_spec hsize).1.pos
  have hrest := Int.emod_lt_of_pos (offset % period size - size) hchunk
  rw [unmirror_eq h0]
  split
  · assumption
  · omega

/-- What lies behind the image falls into its trailing chunk. -/
theorem sub_le_unmirror (hsize : 0 < size) (h0 : 0 ≤ offset) (h : size ≤ offset % period size) :
    size - trailingChunk size ≤ unmirror offset size := by
  have hchunk := (trailingChunk_spec hsize).1.pos
  have hrest := Int.emod_nonneg (offset % period size - size) hchunk.ne'
  rw [unmirror_eq h0, if_neg (by omega)]
  omega

theorem unmirror_nonneg (hsize : 0x8000 ≤ size) (h0 : 0 ≤ offset) : 0 ≤ unmirror offset size := by
  by_cases hin : offset % period size < size
  · rw [unmirror_eq h0, if_pos hin]
    exact Int.emod_nonneg _ (isDoubled_period size).pos.ne'
  · have hpos : 0 < size := by omega
    have hfolded := sub_le_unmirror hpos h0 (by omega)
    have hchunk := trailingChunk_le hsize
    omega

/-- An offset that is not folded out of its half bank is read as it is. -/
theorem unmirror_eq_self (hsize : 0 < size) (h0 : 0 ≤ offset)
    (h : offset - offset % 0x8000 ≤ unmirror offset size) : unmirror offset size = offset := by
  by_cases hin : offset < size
  · exact unmirror_of_lt hin
  · have hlt := unmirror_lt hsize h0
    have hplace : unmirror offset size % 0x8000 = offset % 0x8000 :=
      unmirror_modEq_halfBank hsize h0
    omega

/-- Counting on inside a half bank does not reach the end of a period of half banks. -/
theorem emod_succ {n : Int} (hn : 0 < n) (hhalves : 0x8000 ∣ n) (h : offset % 0x8000 ≠ 0x7FFF) :
    (offset + 1) % n = offset % n + 1 := by
  have hlow : offset % n % 0x8000 = offset % 0x8000 := Int.emod_emod_of_dvd offset hhalves
  have hnonneg := Int.emod_nonneg offset hn.ne'
  have hlt := Int.emod_lt_of_pos offset hn
  have hnext : offset % n + 1 < n := by
    obtain ⟨c, rfl⟩ := hhalves
    omega
  rw [← Int.emod_add_emod, Int.emod_eq_of_lt (by omega) hnext]

theorem unmirror_succ (hsize : 0 < size) (hhalves : 0x8000 ∣ size) (h0 : 0 ≤ offset)
    (h : offset % 0x8000 ≠ 0x7FFF) : unmirror (offset + 1) size = unmirror offset size + 1 := by
  have hperiod := isDoubled_period size
  have hchunk := (trailingChunk_spec hsize).1
  have hlow : offset % period size % 0x8000 = offset % 0x8000 :=
    Int.emod_emod_of_dvd offset hperiod.halfBank_dvd
  rw [unmirror_eq h0, unmirror_eq (by omega), emod_succ hperiod.pos hperiod.halfBank_dvd h]
  generalize offset % period size = place at hlow
  have hin : place + 1 < size ↔ place < size := by omega
  simp only [hin]
  split
  · rfl
  · have hrest : (place - size) % 0x8000 ≠ 0x7FFF := by omega
    have hnext : place + 1 - size = place - size + 1 := by omega
    rw [hnext, emod_succ hchunk.pos hchunk.halfBank_dvd hrest]
    omega

/--
Folding ends inside the image, at the same place of a half bank. It keeps the offsets of the image
and repeats with the least doubled half bank that covers the image. Behind an image of whole half
banks it ends in the largest doubled half bank at the end of the image that divides it.
-/
theorem unmirror_folds (hsize : 0x8000 ≤ size) (h0 : 0 ≤ offset) :
    (∃ n : Nat, unmirror offset size = offset % period size - n * trailingChunk size ∧
      ∀ i < n, size ≤ offset % period size - i * trailingChunk size) ∧
    (0 ≤ unmirror offset size ∧ unmirror offset size < size) ∧
    unmirror offset size ≡ offset [ZMOD 0x8000] ∧
    (offset < size → unmirror offset size = offset) ∧
    IsLeast {p | IsDoubled p ∧ size ≤ p} (period size) ∧
    unmirror (offset + period size) size = unmirror offset size ∧
    (0x8000 ∣ size →
      IsGreatest {q | IsDoubled q ∧ q ∣ size} (trailingChunk size) ∧
      unmirror offset size ≡ offset [ZMOD trailingChunk size] ∧
      (size ≤ offset % period size → size - trailingChunk size ≤ unmirror offset size)) := by
  have hpos : 0 < size := by omega
  refine ⟨exists_unmirror_eq_sub hpos h0, ⟨unmirror_nonneg hsize h0, unmirror_lt hpos h0⟩,
    unmirror_modEq_halfBank hpos h0, unmirror_of_lt, isLeast_period size, unmirror_add_period h0,
    fun hhalves => ⟨isGreatest_trailingChunk hpos hhalves, ?_, sub_le_unmirror hpos h0⟩⟩
  exact unmirror_modEq hpos h0 (trailingChunk_dvd_period hsize) dvd_rfl

/-- Behind three megabytes the third one is repeated, in every period of four. -/
theorem unmirror_folds_trailing :
    (0x8000 : Int) ∣ 0x300000 ∧ (0x300000 : Int) ≤ 0xB3A123 % period 0x300000 ∧
      unmirror 0xB3A123 0x300000 = 0x23A123 ∧
      0x300000 - trailingChunk 0x300000 ≤ unmirror 0xB3A123 0x300000 ∧
      unmirror (0xB3A123 + period 0x300000) 0x300000 = unmirror 0xB3A123 0x300000 := by
  have hhalves : (0x8000 : Int) ∣ 0x300000 := by decide
  have hbehind : (0x300000 : Int) ≤ 0xB3A123 % period 0x300000 := by decide +kernel
  obtain ⟨-, -, -, -, -, hrepeats, htrailing⟩ :=
    @unmirror_folds 0x300000 0xB3A123 (by decide) (by decide)
  exact ⟨hhalves, hbehind, by decide +kernel, (htrailing hhalves).2.2 hbehind, hrepeats⟩

end Folding

end Disassembly.Layout

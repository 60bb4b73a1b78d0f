import Disassembly.Proofs.Layout.FirstBank
import Disassembly.Proofs.Layout.RoundTrip
import Mathlib.Tactic.SplitIfs

/-!
Neighbouring bytes. A bank shows its part of the image in one piece, so inside a bank canonical
addresses count with the offsets. Where a bank ends the next byte of the image is shown in another
bank, if it is shown at all; the layout says in which.
-/
namespace Disassembly

namespace Layout

variable {layout : Layout} {speed : Speed} {offset address next n : Int}

theorem upperHalfAddress_add (hn : 0 ≤ n) (h : offset % 0x8000 + n < 0x8000) :
    upperHalfAddress (offset + n) = upperHalfAddress offset + n := by
  unfold upperHalfAddress
  omega

/-- Inside a bank canonical addresses count with the offsets. -/
theorem canonical?_add (h0 : 0 ≤ offset) (hn : 0 ≤ n)
    (h : layout.canonical? speed offset = some address)
    (hbank : address % 0x10000 + n < 0x10000) :
    layout.canonical? speed (offset + n) = some (address + n) := by
  cases layout with
  | loRom =>
    simp only [canonical?, Option.ite_none_right_eq_some, Option.some.injEq] at h ⊢
    obtain ⟨hlt, rfl⟩ := h
    have hin : offset % 0x8000 + n < 0x8000 := by
      unfold upperHalfAddress at hbank
      split at hbank <;> omega
    -- Both bytes are moved away from work memory, or none is.
    have hmoved : 0x7E0000 ≤ upperHalfAddress offset + n ↔ 0x7E0000 ≤ upperHalfAddress offset := by
      unfold upperHalfAddress
      omega
    simp only [upperHalfAddress_add hn hin, hmoved]
    refine ⟨by omega, ?_⟩
    split <;> omega
  | _ =>
    simp only [canonical?, upperHalfAddress] at h ⊢
    split_ifs at h ⊢
    all_goals
      simp only [Option.some.injEq] at h ⊢
      omega

/-- No address belongs to two bytes. -/
theorem Places.unique {offset' : Int} (h : layout.Places address offset)
    (h' : layout.Places address offset') : offset = offset' := by
  obtain ⟨-, -, -, p, hp, -, hsum⟩ := h
  obtain ⟨-, -, -, p', hp', -, hsum'⟩ := h'
  obtain rfl := Option.some.inj (hp.symm.trans hp')
  exact hsum.symm.trans hsum'

theorem canonical?_inj {offset' : Int} (h0 : 0 ≤ offset) (h0' : 0 ≤ offset')
    (h : layout.canonical? speed offset = some address)
    (h' : layout.canonical? speed offset' = some address) : offset = offset' := by
  cases layout with
  | loRom => exact (loRom_places h0 h).unique (loRom_places h0' h')
  | exHiRom => exact (exHiRom_places h0 h).unique (exHiRom_places h0' h')
  | exLoRom => exact (exLoRom_places h0 h).unique (exLoRom_places h0' h')
  | superFx => exact (superFx_places h0 h).unique (superFx_places h0' h')
  | sa1 => exact (sa1_places h0 h).unique (sa1_places h0' h')
  | exSa1 => exact (exSa1_places h0 h).unique (exSa1_places h0' h')
  | hiRom | superMmc =>
    simp only [canonical?, Option.ite_none_right_eq_some, Option.some.injEq] at h h'
    omega

/-- Behind the end of a bank another bank is shown. -/
theorem bank_canonical?_add (h0 : 0 ≤ offset) (h : layout.canonical? speed offset = some address)
    (hend : 0x10000 ≤ address % 0x10000 + n)
    (hnext : layout.canonical? speed (offset + n) = some next) :
    next / 0x10000 ≠ address / 0x10000 := by
  intro hsame
  -- Two bytes of one bank have its last byte in common.
  have hlast := canonical?_add h0 (n := 0xFFFF - address % 0x10000) (by omega) h (by omega)
  have hlast' := canonical?_add (by omega) (n := 0xFFFF - next % 0x10000) (by omega) hnext
    (by omega)
  have hbyte : next + (0xFFFF - next % 0x10000) = address + (0xFFFF - address % 0x10000) := by
    omega
  rw [hbyte] at hlast'
  have hoffset := canonical?_inj (by omega) (by omega) hlast hlast'
  omega

end Layout

namespace Store

variable {s : Store} {offset address : Int} {n : Nat}

/-- The address behind the first `n` bytes from `address` on, which is the address of `offset`: that
of the next byte of the image if it has one, else counted on. -/
def addressAfter (s : Store) (offset address : Int) (n : Nat) : Int :=
  (s.busAddress? (offset + n)).getD (address + n)

theorem addressAfter_of_lt (h : s.busAddress? offset = some address)
    (hbank : address % 0x10000 + n < 0x10000) : s.addressAfter offset address n = address + n := by
  obtain ⟨hin, hcanonical⟩ := canonical?_of_busAddress? h
  have h0 := hin.1
  have hnext := Layout.canonical?_add h0 (Int.natCast_nonneg n) hcanonical hbank
  unfold addressAfter busAddress?
  split
  · rw [Layout.busAddress?, if_neg (by omega), hnext, Option.getD_some]
  · rfl

theorem bank_addressAfter_ne (h : s.busAddress? offset = some address)
    (hend : 0x10000 ≤ address % 0x10000 + n) :
    s.addressAfter offset address n / 0x10000 ≠ address / 0x10000 := by
  obtain ⟨hin, hcanonical⟩ := canonical?_of_busAddress? h
  unfold addressAfter
  cases hnext : s.busAddress? (offset + n) with
  | none =>
    rw [Option.getD_none]
    omega
  | some next =>
    have hnext := (canonical?_of_busAddress? hnext).2
    exact Layout.bank_canonical?_add hin.1 hcanonical hend hnext

end Store

end Disassembly

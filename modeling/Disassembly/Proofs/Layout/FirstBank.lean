import Disassembly.Proofs.Layout.Mirror
import Disassembly.Store.Basic

/-!
The first bank. Vectors hold addresses without a bank, which the processor reads in bank 0. Some
layouts have the canonical addresses of the bytes found there in bank 0 as well; others show the
same bytes in a higher bank.
-/
namespace Disassembly

namespace Layout

/-- Canonical addresses have 24 bits. -/
theorem canonical?_bounds {layout : Layout} {speed : Speed} {offset address : Int}
    (h0 : 0 ≤ offset) (h : layout.canonical? speed offset = some address) :
    0 ≤ address ∧ address < 0x1000000 := by
  unfold canonical? upperHalfAddress at h
  grind

/-- Bytes that are found in the first bank have their canonical addresses there. -/
def InFirstBank (layout : Layout) (speed : Speed) (offset : Int) : Prop :=
  match layout with
  | loRom => speed ≠ .fast
  | sa1 | exSa1 | superFx => True
  | exLoRom => 0x400000 ≤ offset
  | hiRom | superMmc | exHiRom => False

instance (layout : Layout) (speed : Speed) (offset : Int) :
    Decidable (layout.InFirstBank speed offset) :=
  match layout with
  | loRom => inferInstanceAs (Decidable (speed ≠ .fast))
  | sa1 | exSa1 | superFx => inferInstanceAs (Decidable True)
  | exLoRom => inferInstanceAs (Decidable (0x400000 ≤ offset))
  | hiRom | superMmc | exHiRom => inferInstanceAs (Decidable False)

variable {layout : Layout} {speed : Speed} {size target offset address : Int}

/-- The other canonical addresses lie in higher banks. -/
theorem le_canonical?_of_not_inFirstBank (h0 : 0 ≤ offset)
    (hbank : ¬ layout.InFirstBank speed offset)
    (h : layout.canonical? speed offset = some address) : 0x10000 ≤ address := by
  have hupper (offset : Int) : 0 ≤ upperHalfAddress offset := by
    unfold upperHalfAddress
    omega
  have hfirst := hupper offset
  cases layout <;> simp only [InFirstBank, canonical?] at hbank h
  all_goals grind

/-- What is read in the first bank is read in its upper half. -/
theorem upperHalf_of_fileOffset? (h0 : 0 ≤ target) (ht : target < 0x10000)
    (h : layout.fileOffset? size target = some offset) :
    0x8000 ≤ target ∧ 0 < size ∧
      ∃ p, layout.place? target = some p ∧ p.base + unmirror p.inside size = offset := by
  obtain ⟨-, hsize, hsystem, hplace⟩ := fileOffset?_eq_some_iff.1 h
  refine ⟨?_, hsize, hplace⟩
  unfold IsSystem InLowerHalf at hsystem
  omega

/-- Where the layouts find the upper half of the first bank. -/
theorem place?_firstBank (hlo : 0x8000 ≤ target) (hhi : target < 0x10000)
    (hbank : layout.InFirstBank speed offset) : layout.place? target =
      some { inside := target - 0x8000 + if layout = exLoRom then 0x400000 else 0 } := by
  have hsave : ¬ IsSaveMemory target := by
    unfold IsSaveMemory
    omega
  have hhalf : ¬ InLowerHalf target := by
    unfold InLowerHalf
    omega
  have hlow : upperHalfOffset target = target - 0x8000 := by
    unfold upperHalfOffset
    omega
  have h4 : ¬ 0x400000 ≤ target := by omega
  have h6 : ¬ 0x600000 ≤ target := by omega
  have h8 : ¬ 0x800000 ≤ target := by omega
  have hC : ¬ 0xC00000 ≤ target := by omega
  cases layout with
  | hiRom | superMmc | exHiRom => exact absurd hbank id
  | exLoRom =>
    have hinside : (target / 0x10000 + 0x80) % 0x100 * 0x8000 + target % 0x8000 =
        target - 0x8000 + 0x400000 := by omega
    simp [place?, hsave, hinside]
  | _ => simp [place?, hsave, hhalf, hlow, h4, h6, h8, hC]

/-- A byte found in the first bank that has its canonical address there has it where it is found. -/
theorem canonical?_of_inFirstBank (h0 : 0 ≤ target) (ht : target < 0x10000)
    (hfile : layout.fileOffset? size target = some offset) (hoffset : 0 ≤ offset)
    (hbank : layout.InFirstBank speed offset)
    (h : layout.canonical? speed offset = some address) : address = target := by
  obtain ⟨hupper, hsize, p, hp, hplace⟩ := upperHalf_of_fileOffset? h0 ht hfile
  rw [place?_firstBank hupper ht hbank] at hp
  obtain rfl := Option.some.inj hp
  simp only [Int.zero_add] at hplace
  by_cases hex : layout = exLoRom
  · subst hex
    rw [if_pos rfl] at hplace
    have hbase : 0x400000 ≤ offset := hbank
    rw [unmirror_eq_self hsize (by omega) (by omega)] at hplace
    simp only [canonical?, upperHalfAddress] at h
    grind
  · rw [if_neg hex, Int.add_zero] at hplace
    rw [unmirror_eq_self hsize (by omega) (by omega)] at hplace
    have haddress : upperHalfAddress offset = target := by
      unfold upperHalfAddress
      omega
    cases layout with
    | hiRom | superMmc | exHiRom => exact absurd hbank id
    | exLoRom => exact absurd rfl hex
    | loRom =>
      have hslow : speed ≠ .fast := hbank
      simp only [canonical?, haddress] at h
      grind
    | _ =>
      simp only [canonical?, haddress] at h
      grind

end Layout

namespace Store

variable {s : Store} {offset address : Int}

theorem canonical?_of_busAddress? (h : s.busAddress? offset = some address) :
    s.Contains offset ∧ s.layout.canonical? s.speed offset = some address := by
  unfold busAddress? at h
  split at h
  · next hin =>
    rw [Layout.busAddress?, if_neg (Int.not_lt.2 hin.1)] at h
    exact ⟨hin, h⟩
  · simp at h

theorem busAddress?_bounds (h : s.busAddress? offset = some address) :
    0 ≤ address ∧ address < 0x1000000 := by
  obtain ⟨hin, hcanonical⟩ := canonical?_of_busAddress? h
  exact Layout.canonical?_bounds hin.1 hcanonical

end Store

end Disassembly

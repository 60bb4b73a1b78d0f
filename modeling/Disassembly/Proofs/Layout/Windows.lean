import Disassembly.Layout.Address
import Disassembly.Proofs.Layout.Mirror
import Mathlib.Tactic.SplitIfs

/-!
The windows through which a layout shows the image. They begin and end with half banks and show
half banks of the image, so bytes that follow each other inside a half bank of the bus follow each
other in the image. Folding leads back into the image. Two windows of one layout start at a base of
their own, and only what lies behind the base is folded: there an address may be read behind the end
of the image.
-/
namespace Disassembly.Layout

variable {layout : Layout} {address : Int}

/-- A place lies in a half bank of the image as its address does in one of the bus. A window with a
base of its own is no longer than its base. -/
theorem place?_spec {p : Place} (hlo : 0 ≤ address) (hhi : address ≤ 0xFFFFFF)
    (h : layout.place? address = some p) :
    0 ≤ p.inside ∧ p.inside % 0x8000 = address % 0x8000 ∧ 0 ≤ p.base ∧ p.base % 0x8000 = 0 ∧
      (0 < p.base → layout = superFx ∧ 0x800000 ≤ address ∧ p.inside < p.base) := by
  cases layout with
  | hiRom | exHiRom | superMmc =>
    cases h
    simp only [reduceCtorEq, false_and]
    omega
  | _ =>
    simp only [place?, upperHalfOffset] at h
    split_ifs at h
    all_goals
      cases h
      simp only [reduceCtorEq, true_and, false_and]
      omega

section HalfBanks

variable (hlow : address % 0x8000 ≠ 0x7FFF)

include hlow

/-- No window begins or ends inside a half bank. -/
theorem le_succ_iff {bound : Int} (hbound : bound % 0x8000 = 0) :
    bound ≤ address + 1 ↔ bound ≤ address := by
  omega

theorem inLowerHalf_succ : InLowerHalf (address + 1) ↔ InLowerHalf address := by
  unfold InLowerHalf
  omega

theorem isSystem_succ : IsSystem (address + 1) ↔ IsSystem address :=
  or_congr (by omega) (and_congr (by omega) (inLowerHalf_succ hlow))

theorem isSaveMemory_succ : IsSaveMemory (address + 1) ↔ IsSaveMemory address :=
  and_congr (by omega) (inLowerHalf_succ hlow)

theorem place?_succ : layout.place? (address + 1) =
    (layout.place? address).map fun p => { p with inside := p.inside + 1 } := by
  cases layout with
  | hiRom | exHiRom | superMmc =>
    simp only [place?, Option.map_some, Option.some.injEq, Place.mk.injEq, true_and]
    omega
  | _ =>
    simp (disch := decide) only [place?, isSaveMemory_succ hlow, inLowerHalf_succ hlow,
      le_succ_iff hlow]
    split_ifs <;>
      simp only [upperHalfOffset, Option.map_some, Option.map_none, Option.some.injEq,
        Place.mk.injEq, true_and] <;>
      omega

end HalfBanks

/--
Inside a half bank the bus shows consecutive bytes of an image of whole half banks, or nothing at
all. What is read stands at the same place of its half bank as the address.
-/
theorem fileOffset?_contiguous (layout : Layout) {size : Int} (hsize : 0 < size)
    (hhalves : 0x8000 ∣ size) (address : Int) :
    (address % 0x8000 ≠ 0x7FFF →
      layout.fileOffset? size (address + 1) = (layout.fileOffset? size address).map (· + 1)) ∧
    ∀ offset, layout.fileOffset? size address = some offset →
      0 ≤ offset ∧ offset % 0x8000 = address % 0x8000 := by
  constructor
  · intro hlow
    have houtside : address + 1 < 0 ∨ 0xFFFFFF < address + 1 ∨ size ≤ 0 ∨ IsSystem (address + 1) ↔
        address < 0 ∨ 0xFFFFFF < address ∨ size ≤ 0 ∨ IsSystem address := by
      refine or_congr ?_ (or_congr ?_ (or_congr Iff.rfl (isSystem_succ hlow)))
      · omega
      · omega
    unfold fileOffset?
    simp only [houtside]
    split
    · rfl
    · next hread =>
      rw [place?_succ hlow]
      cases hp : layout.place? address with
      | none => rfl
      | some p =>
        obtain ⟨hinside, hplace, -⟩ := place?_spec (by omega) (by omega) hp
        simp only [Option.map_some, unmirror_succ hsize hhalves hinside (by omega), Int.add_assoc]
  · intro offset h
    obtain ⟨⟨hlo, hhi⟩, -, -, p, hp, rfl⟩ := fileOffset?_eq_some_iff.1 h
    obtain ⟨hinside, hplace, hbase, hhalf, -⟩ := place?_spec hlo hhi hp
    have hle : 0x8000 ≤ size := Int.le_of_dvd hsize hhalves
    have hnonneg := unmirror_nonneg hle hinside
    have hfolded : unmirror p.inside size % 0x8000 = p.inside % 0x8000 :=
      unmirror_modEq_halfBank hsize hinside
    omega

/-- The fourth half bank behind an image of three shows the third. -/
theorem fileOffset?_contiguous_mirrored :
    loRom.fileOffset? 0x18000 0x03A344 = some 0x12344 ∧
      loRom.fileOffset? 0x18000 0x03A345 = some 0x12345 := by
  have hread : loRom.fileOffset? 0x18000 0x03A344 = some 0x12344 := by decide +kernel
  have hsize : (0 : Int) < 0x18000 := by decide
  have hnext := (fileOffset?_contiguous loRom hsize (by decide) 0x03A344).1 (by decide)
  rw [hread] at hnext
  exact ⟨hread, hnext⟩

/--
Counted from the base of its window, what an address reads lies in the image. It lies behind the end
of the image exactly if the window has a base of its own and the image does not reach to the place
of the address. Such windows are in the upper half of the bus of one layout only.
-/
theorem fileOffset?_range {layout : Layout} {size address offset : Int} (hsize : 0x8000 ≤ size)
    (h : layout.fileOffset? size address = some offset) :
    0 ≤ offset ∧ ∃ p, layout.place? address = some p ∧
      (p.base ≤ offset ∧ offset < p.base + size) ∧
      (0 < p.base → layout = superFx ∧ 0x800000 ≤ address) ∧
      (size ≤ offset ↔ 0 < p.base ∧ size ≤ p.base + p.inside) := by
  obtain ⟨⟨hlo, hhi⟩, hpos, -, p, hp, rfl⟩ := fileOffset?_eq_some_iff.1 h
  obtain ⟨hinside, -, hbase, -, hupper⟩ := place?_spec hlo hhi hp
  have hnonneg := unmirror_nonneg hsize hinside
  have hlt := unmirror_lt hpos hinside
  refine ⟨by omega, p, hp, by omega, fun hown => ⟨(hupper hown).1, (hupper hown).2.1⟩, ?_⟩
  by_cases hown : 0 < p.base
  · have hshort := (hupper hown).2.2
    -- An image that reaches to the base covers the window as far as the base: nothing is folded.
    by_cases hreaches : p.base < size
    · rw [unmirror_of_lt (by omega)]
      exact (and_iff_right hown).symm
    · omega
  · omega

/-- The last byte of an image of three megabytes, and the address behind it. -/
theorem fileOffset?_range_end :
    superFx.fileOffset? 0x300000 0x9FFFFF = some 0x2FFFFF ∧
      superFx.fileOffset? 0x300000 0xA08000 = some 0x300000 ∧
      ∃ p, superFx.place? 0xA08000 = some p ∧ 0 < p.base ∧ 0x300000 ≤ p.base + p.inside := by
  have hbehind : superFx.fileOffset? 0x300000 0xA08000 = some 0x300000 := by decide +kernel
  obtain ⟨-, p, hp, -, -, hleaves⟩ := fileOffset?_range (by decide) hbehind
  exact ⟨by decide +kernel, hbehind, p, hp, hleaves.1 (Int.le_refl _)⟩

/-- An image of two megabytes ends where the second window of this layout begins. -/
theorem not_fileOffset?_inside :
    ¬ ∀ (layout : Layout) (size address offset : Int), 0x8000 ≤ size →
      layout.fileOffset? size address = some offset → 0 ≤ offset ∧ offset < size := by
  intro h
  have hread : superFx.fileOffset? 0x200000 0x808000 = some 0x200000 := by decide +kernel
  exact absurd (h superFx 0x200000 0x808000 0x200000 (by decide) hread).2 (by decide)

end Disassembly.Layout

import Disassembly.Layout.Basic
import Disassembly.Layout.Mirror

/-!
Image offsets and bus addresses. `busAddress?` gives the canonical address of an offset,
`fileOffset?` the offset that an address reads, through the mirrors of the layout.
-/
namespace Disassembly.Layout

/-- The address of an offset where the upper halves of the banks hold the image. -/
def upperHalfAddress (offset : Int) : Int :=
  offset / 0x8000 % 0x80 * 0x10000 + 0x8000 + offset % 0x8000

/-- The offset of an address where the upper halves of the banks hold the image. -/
def upperHalfOffset (address : Int) : Int :=
  address / 0x10000 % 0x80 * 0x8000 + address % 0x8000

/-- The canonical address of an offset from zero on, if the layout reaches that far. -/
def canonical? (layout : Layout) (speed : Speed) (offset : Int) : Option Int :=
  match layout with
  | loRom =>
    if offset < 0x400000 then
      let address := upperHalfAddress offset
      some (if speed = .fast ∨ 0x7E0000 ≤ address then address + 0x800000 else address)
    else none
  | hiRom | superMmc =>
    if offset < 0x400000 then
      some (if speed = .fast then offset + 0xC00000 else offset + 0x400000)
    else none
  | exHiRom =>
    if offset < 0x400000 then some (offset + 0xC00000)
    else if offset < 0x7E0000 then some offset
    else none
  | exLoRom =>
    if offset < 0x400000 then some (upperHalfAddress offset + 0x800000)
    else if offset < 0x7E0000 then some (upperHalfAddress (offset - 0x400000))
    else none
  | sa1 =>
    if offset < 0x200000 then some (upperHalfAddress offset)
    else if offset < 0x400000 then some (upperHalfAddress offset + 0x400000)
    else none
  | exSa1 =>
    if offset < 0x200000 then some (upperHalfAddress offset)
    else if offset < 0x400000 then some (upperHalfAddress offset + 0x400000)
    else if offset < 0x800000 then some (offset + 0x800000)
    else none
  | superFx =>
    if offset < 0x200000 then some (upperHalfAddress offset)
    else if offset < 0x400000 then some (upperHalfAddress (offset - 0x200000) + 0x800000)
    else if offset < 0x800000 then some (offset - 0x400000 + 0xC00000)
    else none

def busAddress? (layout : Layout) (speed : Speed) (offset : Int) : Option Int :=
  if offset < 0 then none else layout.canonical? speed offset

/-- A place in a window of the image that starts at `base` and repeats. -/
structure Place where
  base : Int := 0
  inside : Int
  deriving DecidableEq

/-- Whether an address lies in the lower half of its bank. -/
def InLowerHalf (address : Int) : Prop := address / 0x8000 % 2 = 0

instance (address : Int) : Decidable (InLowerHalf address) := inferInstanceAs (Decidable (_ = _))

/-- Work memory, and the lower halves of the system banks with their registers. -/
def IsSystem (address : Int) : Prop :=
  address / 0x20000 = 0x3F ∨ address / 0x400000 % 2 = 0 ∧ InLowerHalf address

instance (address : Int) : Decidable (IsSystem address) := inferInstanceAs (Decidable (_ ∨ _))

/-- Save memory of the layouts that use the upper halves of the banks. -/
def IsSaveMemory (address : Int) : Prop := address / 0x100000 % 8 = 7 ∧ InLowerHalf address

instance (address : Int) : Decidable (IsSaveMemory address) := inferInstanceAs (Decidable (_ ∧ _))

/-- Where the layout finds the byte of a 24-bit address outside the system area. -/
def place? (layout : Layout) (address : Int) : Option Place :=
  match layout with
  | loRom => if IsSaveMemory address then none else some { inside := upperHalfOffset address }
  | hiRom | superMmc => some { inside := address % 0x400000 }
  | exHiRom => some { inside := (1 - address / 0x800000) * 0x400000 + address % 0x400000 }
  | exLoRom =>
    if IsSaveMemory address then none
    else some { inside := (address / 0x10000 + 0x80) % 0x100 * 0x8000 + address % 0x8000 }
  | sa1 | exSa1 =>
    if 0xC00000 ≤ address then
      some { inside := if layout = exSa1 then address % 0x800000 else address % 0x400000 }
    else if InLowerHalf address then none
    else if 0x800000 ≤ address then some { inside := upperHalfOffset (address - 0x400000) }
    else if 0x400000 ≤ address then none
    else some { inside := upperHalfOffset address }
  | superFx =>
    if 0xC00000 ≤ address then some { base := 0x400000, inside := address % 0x400000 }
    else if 0x800000 ≤ address then some { base := 0x200000, inside := upperHalfOffset address }
    else if 0x600000 ≤ address then none
    else if 0x400000 ≤ address then some { inside := address % 0x400000 }
    else some { inside := upperHalfOffset address }

/--
The offset that an address reads in an image of `size` bytes. Where a window starts behind the
image the offset lies outside it.
-/
def fileOffset? (layout : Layout) (size address : Int) : Option Int :=
  if address < 0 ∨ 0xFFFFFF < address ∨ size ≤ 0 ∨ IsSystem address then none
  else (layout.place? address).map fun p => p.base + unmirror p.inside size

/-- What is read of the image is found at a place of its layout and folded there. -/
theorem fileOffset?_eq_some_iff {layout : Layout} {size address offset : Int} :
    layout.fileOffset? size address = some offset ↔
      (0 ≤ address ∧ address ≤ 0xFFFFFF) ∧ 0 < size ∧ ¬ IsSystem address ∧
        ∃ p, layout.place? address = some p ∧ p.base + unmirror p.inside size = offset := by
  unfold fileOffset?
  split
  · next houtside =>
    constructor
    · intro h
      cases h
    · rintro ⟨hbus, hsize, hsystem, -⟩
      rcases houtside with h | h | h | h
      · omega
      · omega
      · omega
      · exact absurd h hsystem
  · next hread =>
    simp only [not_or] at hread
    rw [Option.map_eq_some_iff]
    exact ⟨fun h => ⟨by omega, by omega, hread.2.2.2, h⟩, fun h => h.2.2.2⟩

end Disassembly.Layout

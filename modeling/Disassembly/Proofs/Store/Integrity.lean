import Disassembly.Proofs.Store.Reachable

/-!
The integrity of a store. Whatever is done to it and whatever fails, the image stays as it was
given, each byte keeps one cell, direct page and bank are recorded within their widths, and no label
or comment is empty.
-/
namespace Disassembly

namespace Notes

variable {notes : Notes}

/-- Every entry has a text. -/
def Filled (notes : Notes) : Prop :=
  ∀ (address : Int) (text : String), notes[address]? = some text → text ≠ ""

theorem filled_empty : Filled {} := by
  intro address text h
  simp at h

theorem Filled.put (h : notes.Filled) (address : Int) (text : String) :
    (notes.put address text).Filled := by
  intro other found hfound
  unfold Notes.put at hfound
  split at hfound
  · rw [Std.TreeMap.getElem?_erase] at hfound
    split at hfound
    · simp at hfound
    · exact h other found hfound
  · next htext =>
    rw [Std.TreeMap.getElem?_insert] at hfound
    split at hfound
    · rwa [← Option.some.inj hfound]
    · exact h other found hfound

end Notes

/-- What the elementary changes keep, a sequence of actions keeps. -/
theorem Stable.applyAll {I : Store → Prop} (h : Stable I) {p : Project} (hp : I p.store)
    (actions : List Action) : I (p.applyAll actions).store := by
  induction actions generalizing p with
  | nil => exact hp
  | cons a rest ih => exact ih (h.apply p a hp)

namespace Store

/-- The store keeps the image `rom` and records nothing about it that cannot be. -/
structure Intact (rom : Array UInt8) (s : Store) : Prop where
  image : s.rom = rom
  size_cells : s.cells.size = rom.size
  directPage : ∀ c ∈ s.cells, 0 ≤ c.context.directPage ∧ c.context.directPage ≤ 0xFFFF
  dataBank : ∀ c ∈ s.cells, 0 ≤ c.context.dataBank ∧ c.context.dataBank ≤ 0xFF
  labels : s.labels.Filled
  comments : s.comments.Filled

theorem stable_rom (rom : Array UInt8) : Stable (·.rom = rom) where
  editRun _ _ _ h := h
  clearMarks h := h
  putLabel _ _ h := h
  putComment _ _ h := h

theorem stable_labels : Stable (·.labels.Filled) where
  editRun _ _ _ h := h
  clearMarks h := h
  putLabel address name h := h.put address name
  putComment _ _ h := h

theorem stable_comments : Stable (·.comments.Filled) where
  editRun _ _ _ h := h
  clearMarks h := h
  putLabel _ _ h := h
  putComment address text h := h.put address text

/-- The cells of a valid store hold a 16-bit direct page and an 8-bit bank. -/
theorem Valid.bounds_of_mem {s : Store} (hs : s.Valid) {c : Cell} (hc : c ∈ s.cells) :
    (0 ≤ c.context.directPage ∧ c.context.directPage < 0x10000) ∧
      0 ≤ c.context.dataBank ∧ c.context.dataBank < 0x100 := by
  obtain ⟨j, hj, rfl⟩ := Array.mem_iff_getElem.1 hc
  have hcell : s.cell j = s.cells[j] := by
    simp [cell, Array.getD_eq_getD_getElem?, hj]
  have hmasked := hs.masked j
  rw [hcell] at hmasked
  exact Context.masked_eq_iff.1 hmasked

end Store

/--
A project on a fresh store of an image keeps that store intact through every sequence of actions, in
which any of them may fail.
-/
theorem Project.applyAll_intact {rom : Array UInt8} {layout : Layout} {speed : Speed} {p : Project}
    (hfresh : Store.create rom layout speed = .ok p.store) (actions : List Action) :
    (p.applyAll actions).store.Intact rom := by
  have hstore := Store.eq_of_create hfresh
  have himage := (Store.stable_rom rom).applyAll (by rw [hstore]) actions
  have hvalid := Store.stable_valid.applyAll (Store.valid_create hfresh) actions
  refine ⟨himage, ?_, ?_, ?_, ?_, ?_⟩
  · rw [hvalid.size_cells, Store.size, himage]
  · intro c hc
    have hbounds := (hvalid.bounds_of_mem hc).1
    omega
  · intro c hc
    have hbounds := (hvalid.bounds_of_mem hc).2
    omega
  · refine Store.stable_labels.applyAll ?_ actions
    rw [hstore]
    exact Notes.filled_empty
  · refine Store.stable_comments.applyAll ?_ actions
    rw [hstore]
    exact Notes.filled_empty

/-- Registers out of range, an edit and a walk outside the image, and a label that is taken away. -/
theorem Project.applyAll_intact_failures :
    let fresh : Store := ⟨#[0xC2, 0x30, 0x28], .loRom, .slow, Array.replicate 3 {}, {}, {}⟩
    let p := Project.applyAll { store := fresh }
      [.setDirectPage 0 (-1), .setDataBank 3 0x1FF, .fillDataBank 1 0x17E 9, .label 0x8000 "start",
        .label 0x8000 "", .analyze (-1) false 0 4, .analyze 0 false 0 4, .seedVectors true]
    Store.create #[0xC2, 0x30, 0x28] .loRom .slow = .ok fresh ∧
      (p.store.cell 1).context.directPage = 0xFFFF ∧ p.store.Intact #[0xC2, 0x30, 0x28] := by
  intro fresh p
  have hfresh : Store.create #[0xC2, 0x30, 0x28] .loRom .slow = .ok fresh := rfl
  exact ⟨hfresh, by decide +kernel, applyAll_intact hfresh _⟩

end Disassembly

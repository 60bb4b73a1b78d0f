import Disassembly.Decode.Step
import Disassembly.Proofs.Store.Operation

/-!
The store cell by cell. A valid store has one cell for each byte of the image; two of them that
agree outside their cells are equal as soon as their cells are.
-/
namespace Disassembly

namespace Marks

/-- Some mark of `p` is set. -/
def Has (m p : Marks) : Prop := m.bits &&& p.bits ≠ 0

instance (m p : Marks) : Decidable (m.Has p) := inferInstanceAs (Decidable (_ ≠ _))

@[simp] theorem not_has_empty (p : Marks) : ¬ Has {} p := by simp [Has]

theorem has_union {a b p : Marks} : (a.union b).Has p ↔ a.Has p ∨ b.Has p := by
  have h : (a.bits ||| b.bits) &&& p.bits = (a.bits &&& p.bits) ||| (b.bits &&& p.bits) := by
    simp [← UInt8.toBitVec_inj, BitVec.and_or_distrib_right]
  simp only [Has, union, h, ne_eq, UInt8.or_eq_zero_iff]
  exact Decidable.not_and_iff_not_or_not

@[simp] theorem union_empty (a : Marks) : a.union {} = a := by simp [union]

end Marks

/-- All marks that a list leaves at an offset. -/
def marksAt (offset : Int) : List (Int × Marks) → Marks
  | [] => {}
  | (o, m) :: rest => if o = offset then m.union (marksAt offset rest) else marksAt offset rest

theorem has_marksAt {offset : Int} {marks : List (Int × Marks)} {p : Marks} :
    (marksAt offset marks).Has p ↔ ∃ m, (offset, m) ∈ marks ∧ m.Has p := by
  induction marks with
  | nil => simp [marksAt]
  | cons q rest ih =>
    obtain ⟨o, m⟩ := q
    by_cases h : o = offset
    · subst h
      simp only [marksAt, if_pos, Marks.has_union, ih, List.mem_cons, Prod.mk.injEq, true_and]
      constructor
      · rintro (hm | ⟨m', hm', hp⟩)
        · exact ⟨m, Or.inl rfl, hm⟩
        · exact ⟨m', Or.inr hm', hp⟩
      · rintro ⟨m', rfl | hm', hp⟩
        · exact Or.inl hp
        · exact Or.inr ⟨m', hm', hp⟩
    · simp [marksAt, h, ih, Ne.symm h]

@[simp] theorem Cell.flag_clearMarks (c : Cell) : c.clearMarks.flag = c.flag := by
  unfold clearMarks
  split <;> rfl

@[simp] theorem Cell.context_clearMarks (c : Cell) : c.clearMarks.context = c.context := by
  unfold clearMarks
  split <;> rfl

@[simp] theorem Cell.marks_clearMarks (c : Cell) : c.clearMarks.marks = {} := by
  unfold clearMarks
  split
  · assumption
  · rfl

@[simp] theorem Cell.flag_setWidths (bits : Int) (c : Cell) :
    (c.setWidths bits).flag = c.flag := rfl

@[simp] theorem Cell.context_setWidths (bits : Int) (c : Cell) :
    (c.setWidths bits).context = c.context.withWidths bits := rfl

/-- The cell change leaves contexts as a store keeps them. -/
def Cell.Masking (f : Cell → Cell) : Prop :=
  ∀ c, c.context.masked = c.context → (f c).context.masked = (f c).context

theorem Context.masked_eq_iff {c : Context} : c.masked = c ↔
    (0 ≤ c.directPage ∧ c.directPage < 0x10000) ∧ 0 ≤ c.dataBank ∧ c.dataBank < 0x100 := by
  obtain ⟨d, b, x, m⟩ := c
  simp only [masked, mk.injEq, and_self, and_true]
  omega

namespace Cell

theorem masking_setFlag (flag : Flag) : Masking (·.setFlag flag) := fun _ h => h

theorem masking_setContext (context : Context) : Masking (·.setContext context) :=
  fun _ _ => Context.masked_masked context

theorem masking_setDirectPage (value : Int) : Masking (·.setDirectPage value) := by
  intro c h
  rw [Context.masked_eq_iff] at h ⊢
  simp only [setDirectPage]
  omega

theorem masking_setDataBank (value : Int) : Masking (·.setDataBank value) := by
  intro c h
  rw [Context.masked_eq_iff] at h ⊢
  simp only [setDataBank]
  omega

/-- Widths are stored as they come. -/
theorem masking_widths {f : Cell → Cell}
    (hd : ∀ c, (f c).context.directPage = c.context.directPage)
    (hb : ∀ c, (f c).context.dataBank = c.context.dataBank) : Masking f := by
  intro c h
  rw [Context.masked_eq_iff] at h ⊢
  rwa [hd, hb]

theorem masking_setXFlag (value : Bool) : Masking (·.setXFlag value) :=
  masking_widths (fun _ => rfl) fun _ => rfl

theorem masking_setMFlag (value : Bool) : Masking (·.setMFlag value) :=
  masking_widths (fun _ => rfl) fun _ => rfl

theorem masking_setWidths (bits : Int) : Masking (·.setWidths bits) :=
  masking_widths (fun _ => rfl) fun _ => rfl

theorem masking_addMarks (marks : Marks) : Masking (·.addMarks marks) := fun _ h => h

theorem masking_own (flag : Flag) (context : Context) :
    Masking fun c => (c.setFlag flag).setContext context :=
  fun _ _ => Context.masked_masked context

end Cell

namespace Store

variable {s t : Store} {offset i : Int}

/-- What every store has that was made from an image: a cell for each byte, and in each cell a
16-bit direct page and an 8-bit bank. -/
structure Valid (s : Store) : Prop where
  size_cells : s.cells.size = s.size
  masked : ∀ i, (s.cell i).context.masked = (s.cell i).context

theorem contains_of_rom (h : t.rom = s.rom) : t.Contains i ↔ s.Contains i := by
  unfold Contains size
  rw [h]

theorem peek_of_rom (h : t.rom = s.rom) (i : Int) : t.peek i = s.peek i := by
  unfold peek
  rw [h]

/-- The second store differs from the first in its cells at most. -/
structure Agrees (s t : Store) : Prop where
  rom : t.rom = s.rom
  layout : t.layout = s.layout
  speed : t.speed = s.speed
  labels : t.labels = s.labels
  comments : t.comments = s.comments

namespace Agrees

theorem refl (s : Store) : s.Agrees s := ⟨rfl, rfl, rfl, rfl, rfl⟩

theorem trans {u : Store} (h : s.Agrees t) (k : t.Agrees u) : s.Agrees u :=
  ⟨k.rom.trans h.rom, k.layout.trans h.layout, k.speed.trans h.speed, k.labels.trans h.labels,
    k.comments.trans h.comments⟩

theorem size (h : s.Agrees t) : t.size = s.size := congrArg Array.size h.rom

theorem contains (h : s.Agrees t) : t.Contains i ↔ s.Contains i := contains_of_rom h.rom

theorem peek (h : s.Agrees t) (i : Int) : t.peek i = s.peek i := peek_of_rom h.rom i

theorem busAddress? (h : s.Agrees t) (i : Int) : t.busAddress? i = s.busAddress? i := by
  simp only [Store.busAddress?, h.contains, h.layout, h.speed]

theorem fileOffset? (h : s.Agrees t) (address : Int) :
    t.fileOffset? address = s.fileOffset? address := by
  simp only [Store.fileOffset?, h.contains, h.layout, h.size]

end Agrees

theorem eq_of_cell_eq (h : s.Agrees t) (hs : s.Valid) (ht : t.Valid)
    (hc : ∀ i, s.Contains i → t.cell i = s.cell i) : t = s := by
  have hsize : t.cells.size = s.cells.size := by rw [ht.size_cells, hs.size_cells, h.size]
  have hcells : t.cells = s.cells := by
    apply Array.ext hsize
    intro j hj hj'
    have hin : s.Contains j := ⟨by omega, by rw [← hs.size_cells]; omega⟩
    have hj := hc j hin
    simpa [cell, Array.getD_eq_getD_getElem?, *] using hj
  obtain ⟨hr, hl, hsp, hla, hco⟩ := h
  cases s
  cases t
  simp only at hr hl hsp hla hco hcells
  subst hr hl hsp hla hco hcells
  rfl

section Edits

variable (f : Cell → Cell) (n : Nat)

theorem agrees_editRun (s : Store) (offset : Int) : s.Agrees (s.editRun offset n f) :=
  ⟨rfl, rfl, rfl, rfl, rfl⟩

/-- Wherever a cell is looked up, an edit has changed it once or not at all. -/
theorem cell_editRun_eq_or (s : Store) (offset i : Int) :
    (s.editRun offset n f).cell i = s.cell i ∨ (s.editRun offset n f).cell i = f (s.cell i) := by
  simp only [cell, editRun, Array.getD_eq_getD_getElem?, getElem?_editCells]
  split
  · cases s.cells[i.toNat]? with
    | none => exact Or.inl rfl
    | some c => exact Or.inr rfl
  · exact Or.inl rfl

theorem Valid.editRun (hs : s.Valid) {f : Cell → Cell} (hf : Cell.Masking f) (offset : Int)
    (n : Nat) : (s.editRun offset n f).Valid := by
  refine ⟨(size_editCells _ _ _ _).trans hs.size_cells, ?_⟩
  intro i
  rcases cell_editRun_eq_or f n s offset i with h | h
  · rw [h]
    exact hs.masked i
  · rw [h]
    exact hf _ (hs.masked i)

theorem Valid.cell_editRun (hs : s.Valid) (ho : 0 ≤ offset) (hi : s.Contains i) :
    (s.editRun offset n f).cell i =
      if offset ≤ i ∧ i < offset + n then f (s.cell i) else s.cell i :=
  Store.cell_editRun s n f ho hi.1 (by rw [hs.size_cells]; exact hi.2)

end Edits

theorem cell_clearMarks (s : Store) (i : Int) : s.clearMarks.cell i = (s.cell i).clearMarks := by
  simp only [cell, clearMarks, Array.getD_eq_getD_getElem?, Array.getElem?_map]
  cases s.cells[i.toNat]? with
  | none => rfl
  | some c => rfl

/-- The store with marks added in the order of the list. -/
def withMarks (s : Store) : List (Int × Marks) → Store
  | [] => s
  | (offset, m) :: rest => (s.editRun offset 1 (·.addMarks m)).withMarks rest

theorem agrees_withMarks (s : Store) (marks : List (Int × Marks)) :
    s.Agrees (s.withMarks marks) := by
  induction marks generalizing s with
  | nil => exact Agrees.refl s
  | cons p rest ih => exact (agrees_editRun _ _ s p.1).trans (ih _)

theorem Valid.withMarks (hs : s.Valid) (marks : List (Int × Marks)) :
    (s.withMarks marks).Valid := by
  induction marks generalizing s with
  | nil => exact hs
  | cons p rest ih => exact ih (hs.editRun (Cell.masking_addMarks p.2) p.1 1)

/-- Marks add up in each cell; role and context stay. -/
theorem Valid.cell_withMarks (hs : s.Valid) {marks : List (Int × Marks)}
    (hm : ∀ p ∈ marks, 0 ≤ p.1) (hi : s.Contains i) :
    (s.withMarks marks).cell i = (s.cell i).addMarks (marksAt i marks) := by
  induction marks generalizing s with
  | nil => simp [Store.withMarks, marksAt, Cell.addMarks]
  | cons p rest ih =>
    obtain ⟨o, m⟩ := p
    have hrest : ∀ p ∈ rest, 0 ≤ p.1 := fun p hp => hm p (List.mem_cons_of_mem _ hp)
    have hhead := hs.cell_editRun (·.addMarks m) 1 (hm (o, m) List.mem_cons_self) hi
    rw [Store.withMarks, ih (hs.editRun (Cell.masking_addMarks m) o 1) hrest hi, hhead]
    by_cases h : o = i
    · rw [if_pos (by omega), marksAt, if_pos h]
      simp only [Cell.addMarks, Marks.union_assoc]
    · rw [if_neg (by omega), marksAt, if_neg h]

theorem withMarks_append (s : Store) (a b : List (Int × Marks)) :
    s.withMarks (a ++ b) = (s.withMarks a).withMarks b := by
  induction a generalizing s with
  | nil => rfl
  | cons p rest ih => exact ih _

end Store

namespace StoreM

theorem addMarks_of_contains {s : Store} {marks : List (Int × Marks)}
    (hm : ∀ p ∈ marks, s.Contains p.1) : addMarks marks s = .ok () (s.withMarks marks) := by
  induction marks generalizing s with
  | nil => rfl
  | cons p rest ih =>
    obtain ⟨o, m⟩ := p
    have hhead := edit_of_contains (hm (o, m) List.mem_cons_self) (·.addMarks m)
    rw [addMarks, bind_of_ok hhead]
    exact ih fun p hp => hm p (List.mem_cons_of_mem _ hp)

end StoreM

end Disassembly

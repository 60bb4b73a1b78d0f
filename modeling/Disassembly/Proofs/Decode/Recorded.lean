import Disassembly.Proofs.Decode.Effect

/-!
Marks are never taken away by decoding. An instruction is recorded if its marks are in the cells
where they belong; it stays so as long as its own context stays, and marking it once more changes
nothing.
-/
namespace Disassembly

namespace Marks

variable {a b c : Marks}

/-- The marks of the first are among those of the second. -/
instance : HasSubset Marks := ⟨fun a b => a.union b = b⟩

instance (a b : Marks) : Decidable (a ⊆ b) := inferInstanceAs (Decidable (a.union b = b))

theorem subset_iff : a ⊆ b ↔ a.union b = b := Iff.rfl

theorem subset_refl (a : Marks) : a ⊆ a := union_self a

theorem empty_subset (a : Marks) : ({} : Marks) ⊆ a := by
  rw [subset_iff, union_comm, union_empty]

theorem subset_union_left (a b : Marks) : a ⊆ a.union b := by
  rw [subset_iff, ← union_assoc, union_self]

theorem subset_union_right (a b : Marks) : b ⊆ a.union b := by
  rw [union_comm]
  exact subset_union_left b a

theorem subset_trans (hab : a ⊆ b) (hbc : b ⊆ c) : a ⊆ c := by
  rw [subset_iff] at *
  calc a.union c = a.union (b.union c) := by rw [hbc]
    _ = (a.union b).union c := (union_assoc a b c).symm
    _ = c := by rw [hab, hbc]

theorem union_subset_iff : a.union b ⊆ c ↔ a ⊆ c ∧ b ⊆ c := by
  constructor
  · intro h
    exact ⟨subset_trans (subset_union_left a b) h, subset_trans (subset_union_right a b) h⟩
  · rintro ⟨ha, hb⟩
    rw [subset_iff] at *
    rw [union_assoc, hb, ha]

end Marks

/-- The marks that a list leaves at an offset are among `m` if each of them is. -/
theorem marksAt_subset_iff {i : Int} {marks : List (Int × Marks)} {m : Marks} :
    marksAt i marks ⊆ m ↔ ∀ p ∈ marks, p.1 = i → p.2 ⊆ m := by
  induction marks with
  | nil => simp [marksAt, Marks.empty_subset]
  | cons q rest ih =>
    rw [marksAt]
    split
    · next h => simp [Marks.union_subset_iff, ih, h]
    · next h => simp [ih, h]

theorem subset_marksAt {marks : List (Int × Marks)} {p : Int × Marks} (hp : p ∈ marks) :
    p.2 ⊆ marksAt p.1 marks :=
  marksAt_subset_iff.1 (Marks.subset_refl _) p hp rfl

theorem Cell.addMarks_of_subset {c : Cell} {m : Marks} (h : m ⊆ c.marks) : c.addMarks m = c := by
  rw [addMarks, Marks.union_comm, Marks.subset_iff.1 h]

namespace Store

variable {s t : Store} {o : Int}

/-- The marks of the instruction at `o` are in the cells where they belong. -/
def Recorded (s : Store) (o : Int) : Prop :=
  ∀ p ∈ Opcode.marks (s.peek o) o (s.target? o), p.2 ⊆ (s.cell p.1).marks

/-- No mark of the first store is missing in the second. -/
def KeepsMarks (s t : Store) : Prop :=
  ∀ i, s.Contains i → (s.cell i).marks ⊆ (t.cell i).marks

theorem KeepsMarks.refl (s : Store) : s.KeepsMarks s := fun _ _ => Marks.subset_refl _

theorem KeepsMarks.trans {u : Store} (h : s.KeepsMarks t) (hagree : s.Agrees t)
    (k : t.KeepsMarks u) : s.KeepsMarks u := by
  intro i hi
  exact Marks.subset_trans (h i hi) (k i (hagree.contains.2 hi))

/-- The marks of an instruction depend on its own context, not on what else was decoded. -/
theorem Recorded.of_agrees (h : s.Recorded o) (hagree : s.Agrees t) (hkept : s.KeepsMarks t)
    (ho : s.Contains o) (hc : (t.cell o).context = (s.cell o).context) : t.Recorded o := by
  intro p hp
  rw [hagree.peek, hagree.target? hc] at hp
  exact Marks.subset_trans (h p hp) (hkept p.1 (contains_of_mem_marks ho hp))

section Marking

variable (hs : s.Valid) (ho : s.Contains o)

include hs ho

theorem keepsMarks_marked : s.KeepsMarks (s.marked o) := by
  intro i hi
  rw [hs.cell_marked ho hi]
  exact Marks.subset_union_left _ _

theorem recorded_marked : (s.marked o).Recorded o := by
  have hagree := agrees_marked s o
  intro p hp
  rw [hagree.peek, hs.target?_marked ho] at hp
  rw [hs.cell_marked ho (contains_of_mem_marks ho hp)]
  exact Marks.subset_trans (subset_marksAt hp) (Marks.subset_union_right _ _)

/-- Marking an instruction that is recorded changes nothing. -/
theorem marked_of_recorded (h : s.Recorded o) : s.marked o = s := by
  refine eq_of_cell_eq (agrees_marked s o) hs (hs.marked o) ?_
  intro i hi
  rw [hs.cell_marked ho hi]
  apply Cell.addMarks_of_subset
  rw [marksAt_subset_iff]
  rintro p hp rfl
  exact h p hp

end Marking

section Decoding

variable (hs : s.Valid) (ho : s.Contains o)

include hs ho

theorem keepsMarks_own (context : Context) : s.KeepsMarks (s.own o context) := by
  intro i hi
  rw [hs.marks_own ho hi]
  exact Marks.subset_refl _

theorem keepsMarks_decoded (prev : Int) : s.KeepsMarks (s.decoded o prev) :=
  (keepsMarks_own hs ho _).trans (agrees_own s o _) (keepsMarks_marked (hs.own o _) ho)

theorem recorded_decoded (prev : Int) : (s.decoded o prev).Recorded o :=
  recorded_marked (hs.own o _) ho

end Decoding

end Store

end Disassembly

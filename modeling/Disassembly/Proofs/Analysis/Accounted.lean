import Disassembly.Proofs.Analysis.Rescan
import Disassembly.Proofs.Analysis.Walk
import Disassembly.Proofs.Decode.Recorded

/-!
Stores whose instructions are all recorded. Marks are left when an instruction is decoded, under the
context that it has then; later decodings may overwrite its bytes and restores change its record.
Still every byte that is an opcode in the end has left the marks of the context that it has in the
end, so that a rescan finds no mark that is not there already.
-/
namespace Disassembly

/-- A restore leaves no marks, whatever its record says. -/
theorem Opcode.marks_restore (o : Int) (target : Option Int) : marks plp o target = [] := by
  cases target with
  | none => rfl
  | some t => rfl

namespace Store

variable {s t : Store} {o : Int}

/-- A valid store that holds the marks of all its instructions where they belong. -/
structure Accounted (s : Store) : Prop where
  valid : s.Valid
  recorded : ∀ p, s.IsInstruction p → s.Recorded p

namespace Accounted

theorem of_none (hs : s.Valid) (h : ∀ i, s.Contains i → (s.cell i).flag ≠ .opcode) :
    s.Accounted := by
  refine ⟨hs, ?_⟩
  intro p hp
  exact absurd hp.2 (h p hp.1)

/-- A store keeps the property if each of its opcodes is recorded in it, or was one before under
the same context. -/
theorem of_kept (h : s.Accounted) (ht : t.Valid) (hagree : s.Agrees t) (hkept : s.KeepsMarks t)
    (hcells : ∀ p, s.Contains p → (t.cell p).flag = .opcode → t.Recorded p ∨
      (s.cell p).flag = .opcode ∧ (t.cell p).context = (s.cell p).context) : t.Accounted := by
  refine ⟨ht, ?_⟩
  rintro p ⟨hp, hflag⟩
  have hp := hagree.contains.1 hp
  rcases hcells p hp hflag with hrecorded | ⟨hflag, hcontext⟩
  · exact hrecorded
  · exact (h.recorded p ⟨hp, hflag⟩).of_agrees hagree hkept hp hcontext

theorem decoded (h : s.Accounted) (ho : s.Contains o) (prev : Int) :
    (s.decoded o prev).Accounted := by
  have hs := h.valid
  refine h.of_kept (hs.decoded o prev) (agrees_decoded s o prev) (keepsMarks_decoded hs ho prev) ?_
  intro p hp hflag
  by_cases hself : p = o
  · rw [hself]
    exact Or.inl (recorded_decoded hs ho prev)
  · -- An opcode that is left is no operand byte of the instruction, so it was not touched.
    have houtside : p < o ∨ o + s.lengthUnder o (s.decodingContext o prev) ≤ p := by
      refine Decidable.byContradiction fun hinside => ?_
      have hoperand : ((s.decoded o prev).cell p).flag = .operand :=
        flag_decoded_operand hs ho hp (by omega)
      rw [hoperand] at hflag
      cases hflag
    rw [flag_decoded_outside hs ho hp houtside] at hflag
    exact Or.inr ⟨hflag, context_decoded_outside hs ho hp houtside⟩

theorem marked (h : s.Accounted) (ho : s.Contains o) : (s.marked o).Accounted := by
  have hs := h.valid
  refine h.of_kept (hs.marked o) (agrees_marked s o) (keepsMarks_marked hs ho) ?_
  intro p hp hflag
  rw [hs.cell_marked ho hp] at hflag ⊢
  exact Or.inr ⟨hflag, rfl⟩

/-- A restore that gets its widths back changes a record on which no marks depend. -/
theorem setWidths (h : s.Accounted) (ho : s.Contains o) (hop : s.peek o = Opcode.plp)
    (bits : Int) : (s.editRun o 1 (·.setWidths bits)).Accounted := by
  have hs := h.valid
  have hagree := agrees_editRun (·.setWidths bits) 1 s o
  have hkept : s.KeepsMarks (s.editRun o 1 (·.setWidths bits)) := by
    intro i hi
    rw [hs.cell_editRun _ _ ho.1 hi]
    split
    · exact Marks.subset_refl _
    · exact Marks.subset_refl _
  refine h.of_kept (hs.editRun (Cell.masking_setWidths bits) o 1) hagree hkept ?_
  intro p hp hflag
  by_cases hself : p = o
  · refine Or.inl fun q hq => ?_
    rw [hself, hagree.peek, hop, Opcode.marks_restore] at hq
    cases hq
  · rw [hs.cell_editRun _ _ ho.1 hp, if_neg (by omega)] at hflag ⊢
    exact Or.inr ⟨hflag, rfl⟩

theorem storeAfter {w : Walk} (h : s.Accounted) (ho : s.Contains w.offset) :
    (w.storeAfter s).Accounted := by
  have hagree := agrees_decoded s w.offset w.prev
  have hd := h.decoded ho w.prev
  unfold Walk.storeAfter Walk.restored
  split
  · next hop =>
    split
    · exact hd
    · exact hd.setWidths (hagree.contains.2 ho) ((hagree.peek w.offset).trans hop) _
  · exact hd

end Accounted

section Rescanned

variable {i : Int}

/-- All the marks that a rescan leaves were there before. -/
theorem Accounted.marks_rescanned (h : s.Accounted) (hi : s.Contains i) :
    (s.rescanned.cell i).marks ⊆ (s.cell i).marks := by
  rw [h.valid.cell_rescanned hi, marksAt_subset_iff]
  rintro ⟨j, m⟩ hm rfl
  obtain ⟨p, hp, hm⟩ := mem_marksOf_instructions.1 hm
  exact h.recorded p hp _ hm

theorem Valid.recorded_rescanned (hs : s.Valid) (ho : s.IsInstruction o) :
    s.rescanned.Recorded o := by
  have hagree := agrees_rescanned s
  have hcontext : (s.rescanned.cell o).context = (s.cell o).context := by
    rw [hs.cell_rescanned ho.1]
  intro p hp
  rw [hagree.peek, hagree.target? hcontext] at hp
  rw [hs.cell_rescanned (contains_of_mem_marks ho.1 hp)]
  exact subset_marksAt (mem_marksOf_instructions.2 ⟨o, ho, hp⟩)

end Rescanned

end Store

section Keeping

variable {s : Store} {w : Walk}

theorem Walk.run_outside (n : Nat) (ho : ¬ s.Contains w.offset) :
    finalState (w.run n s) = s := by
  cases n with
  | zero => rfl
  | succ n =>
    unfold run
    split
    · rfl
    · rw [bind_of_error (advance_outside ho)]
      rfl

namespace StoreM

theorem keeps_accounted_decode (offset : Int) (branch force : Bool) (prev : Int) :
    Keeps Store.Accounted (decode offset branch force prev) := by
  intro s hs
  by_cases ho : s.Contains offset
  · rw [decode_of_contains hs.valid ho]
    exact hs.decoded ho prev
  · rw [decode_outside ho]
    exact hs

theorem keeps_accounted_markFlow (offset : Int) : Keeps Store.Accounted (markFlow offset) := by
  intro s hs
  by_cases ho : s.Contains offset
  · rw [markFlow_of_contains ho]
    exact hs.marked ho
  · rw [markFlow_outside ho]
    exact hs

/-- A walk fails at its first step or not at all. -/
theorem keeps_accounted_walk (start limit : Int) : Keeps Store.Accounted (walk start limit) := by
  intro s hs
  by_cases hstart : s.Contains start
  · obtain ⟨w, t, hrun, ht⟩ := Walk.run_keeps (P := fun _ t => t.Accounted)
      (fun w t _ ho _ h => h.storeAfter ho) (fun _ _ _ h => h) limit.toNat hs.valid
      (w := Walk.start start) hstart rfl hs
    rw [walk, hrun]
    exact ht
  · rw [walk, Walk.run_outside _ hstart]
    exact hs

end StoreM

/-- Actions that decode instructions or mark their flow, and do nothing else. -/
def Action.Decodes : Action → Prop
  | .step .. | .markFlow .. | .sweep .. | .analyze .. => True
  | _ => False

theorem Action.keeps_accounted {a : Action} (h : a.Decodes) :
    Keeps (fun p : Project => p.store.Accounted) a.perform := by
  cases a with
  | step offset branch force prev =>
    exact (ProjectM.keeps_step (StoreM.keeps_accounted_decode _ _ _ _)).bind fun _ => Keeps.pure _
  | markFlow offset =>
    exact (ProjectM.keeps_markFlow (StoreM.keeps_accounted_markFlow _)).bind fun _ => Keeps.pure _
  | sweep start behind =>
    exact (ProjectM.keeps_sweep (StoreM.keeps_sweep StoreM.keeps_accounted_decode _ _)).bind
      fun _ => Keeps.pure _
  | analyze offset linear amount limit =>
    refine (Keeps.ite ?_ ?_).bind fun _ => Keeps.pure _
    · exact ProjectM.keeps_sweep (StoreM.keeps_sweep StoreM.keeps_accounted_decode _ _)
    · exact ProjectM.keeps_walk (StoreM.keeps_accounted_walk _ _)
  | _ => exact h.elim

theorem Project.accounted_applyAll {p : Project} (hp : p.store.Accounted) {actions : List Action}
    (h : ∀ a ∈ actions, a.Decodes) : (p.applyAll actions).store.Accounted := by
  induction actions generalizing p with
  | nil => exact hp
  | cons a rest ih =>
    apply ih
    · rw [apply_eq]
      exact Action.keeps_accounted (h a List.mem_cons_self) p hp
    · intro b hb
      exact h b (List.mem_cons_of_mem a hb)

end Keeping

/--
Decoding leaves all the marks that a rescan would leave. However instructions were decoded and
marked in a store that had none, a rescan adds no mark anywhere, and keeps those of the instructions
that are left.
-/
theorem Project.rescan_adds_no_mark (p : Project) (hs : p.store.Valid)
    (hnone : ∀ i, p.store.Contains i → (p.store.cell i).flag ≠ .opcode) (actions : List Action)
    (hactions : ∀ a ∈ actions, a.Decodes) :
    ∃ count q, ProjectM.rescan (p.applyAll actions) = .ok count q ∧
      (∀ i, (p.applyAll actions).store.Contains i →
        (q.store.cell i).marks ⊆ ((p.applyAll actions).store.cell i).marks) ∧
      ∀ o, (p.applyAll actions).store.IsInstruction o → q.store.Recorded o := by
  have haccounted := accounted_applyAll (Store.Accounted.of_none hs hnone) hactions
  obtain ⟨flows, hrescan⟩ := StoreM.rescan_of_valid haccounted.valid
  refine ⟨_, _, (bind_of_ok (ProjectM.onStore_of_ok hrescan)).trans rfl, ?_, ?_⟩
  · intro i hi
    exact haccounted.marks_rescanned hi
  · intro o ho
    exact haccounted.valid.recorded_rescanned ho

/-- A branch that is decoded first and then becomes the operand of a change of widths, between a
save and a restore, and a branch to itself behind them: the marks of the first go, those of the
second stay. -/
theorem Project.rescan_adds_no_mark_overlap :
    let fresh : Store := ⟨#[0x08, 0xE2, 0x80, 0x28, 0x80, 0xFE], .loRom, .slow,
      Array.replicate 6 {}, {}, {}⟩
    let p := Project.applyAll { store := fresh }
      [.step 2 false false (-1), .analyze 0 false 0 5]
    fresh.Valid ∧ (p.store.cell 2).flag = .operand ∧ (p.store.cell 2).marks ≠ {} ∧
      ∃ count q, ProjectM.rescan p = .ok count q ∧ (q.store.cell 2).marks = {} ∧
        (q.store.cell 4).marks = (p.store.cell 4).marks ∧ (q.store.cell 4).marks ≠ {} ∧
        ∀ i, p.store.Contains i → (q.store.cell i).marks ⊆ (p.store.cell i).marks := by
  intro fresh p
  have hcreate : Store.create #[0x08, 0xE2, 0x80, 0x28, 0x80, 0xFE] .loRom .slow = .ok fresh := rfl
  have hs : fresh.Valid := Store.valid_create hcreate
  have hmarks : (match ProjectM.rescan p with
      | .ok _ q => decide ((q.store.cell 2).marks = {} ∧
        (q.store.cell 4).marks = (p.store.cell 4).marks ∧ (q.store.cell 4).marks ≠ {})
      | .error _ _ => false) = true := by decide +kernel
  obtain ⟨count, q, hrun, hsubset, -⟩ := rescan_adds_no_mark { store := fresh } hs
    (by
      intro i _
      rw [Store.cell_create hcreate]
      decide)
    [.step 2 false false (-1), .analyze 0 false 0 5] (by simp [Action.Decodes])
  have hrun : ProjectM.rescan p = .ok count q := hrun
  rw [hrun, decide_eq_true_eq] at hmarks
  exact ⟨hs, by decide +kernel, by decide +kernel, count, q, hrun, hmarks.1, hmarks.2.1,
    hmarks.2.2, hsubset⟩

end Disassembly

import Disassembly.Proofs.Decode.Effect
import Disassembly.Proofs.Store.Reachable

/-!
A rescan replaces all marks by those of the decoded instructions. What it leaves at a byte is read
off the store alone: which instructions there are, and where each of them points.
-/
namespace Disassembly

namespace Store

variable {s t : Store} {i : Int}

/-- A byte that was decoded as an opcode. -/
def IsInstruction (s : Store) (p : Int) : Prop := s.Contains p ∧ (s.cell p).flag = .opcode

/-- The marks at the byte `i` that tell the flow of control between the instructions of a store. -/
structure FlowMarks (s : Store) (i : Int) (m : Marks) : Prop where
  stop : m.Has .stop ↔ s.IsInstruction i ∧ s.peek i ∈ Opcode.ends
  exit : m.Has .exit ↔ s.IsInstruction i ∧ s.peek i ∈ Opcode.flows ∧
    ∃ target, s.targetAt i = .ok (some target)
  entry : m.Has .entry ↔ ∃ p, s.IsInstruction p ∧ s.peek p ∈ Opcode.flows ∧
    s.targetAt p = .ok (some i)
  read : m.Has .read ↔ ∃ p, s.IsInstruction p ∧ Opcode.isReading (s.peek p) ∧
    s.targetAt p = .ok (some i)
  other : ¬ m.Has ⟨0xF0⟩

section Offsets

theorem offsetsIn_eq (s : Store) (flag : Flag) (first behind : Nat) :
    s.offsetsIn flag first behind =
      (List.range' first (behind - first)).filter fun o : Nat => (s.cell o).flag == flag := by
  rw [offsetsIn, collectOffsets_eq, List.append_nil]

theorem offsetsWith_eq (s : Store) (flag : Flag) :
    s.offsetsWith flag = (List.range s.size).filter fun o : Nat => (s.cell o).flag == flag := by
  rw [offsetsWith, offsetsIn_eq, List.range_eq_range']
  rfl

theorem mem_offsetsWith {o : Nat} :
    o ∈ s.offsetsWith .opcode ↔ s.IsInstruction o := by
  rw [offsetsWith_eq, List.mem_filter, List.mem_range]
  simp [IsInstruction, Contains]

theorem IsInstruction.mem_offsets (h : s.IsInstruction i) :
    ∃ o ∈ s.offsetsWith .opcode, i = (o : Nat) := by
  obtain ⟨o, rfl⟩ := Int.eq_ofNat_of_zero_le h.1.1
  exact ⟨o, mem_offsetsWith.2 h, rfl⟩

end Offsets

section Clearing

theorem agrees_clearMarks (s : Store) : s.Agrees s.clearMarks := ⟨rfl, rfl, rfl, rfl, rfl⟩

theorem offsetsWith_clearMarks (s : Store) (flag : Flag) :
    s.clearMarks.offsetsWith flag = s.offsetsWith flag := by
  simp only [offsetsWith_eq, cell_clearMarks, Cell.flag_clearMarks]
  rfl

end Clearing

section Marking

variable {offsets : List Nat}

/-- The marks that the instructions at some offsets leave. -/
def marksOf (s : Store) (offsets : List Nat) : List (Int × Marks) :=
  offsets.flatMap fun o : Nat => Opcode.marks (s.peek o) o (s.target? o)

theorem contains_of_mem_marksOf (ho : ∀ o ∈ offsets, s.Contains (o : Nat)) {p : Int × Marks}
    (hp : p ∈ s.marksOf offsets) : s.Contains p.1 := by
  obtain ⟨o, hmem, hp⟩ := List.mem_flatMap.1 hp
  exact contains_of_mem_marks (ho o hmem) hp

/-- Marks depend on the image and on the contexts of the instructions, not on marks. -/
theorem Agrees.marksOf (h : s.Agrees t)
    (hc : ∀ o ∈ offsets, (t.cell (o : Nat)).context = (s.cell o).context) :
    t.marksOf offsets = s.marksOf offsets := by
  induction offsets with
  | nil => simp only [Store.marksOf, List.flatMap_nil]
  | cons o rest ih =>
    have hrest := ih fun o' ho' => hc o' (List.mem_cons_of_mem _ ho')
    simp only [Store.marksOf, List.flatMap_cons] at hrest ⊢
    rw [hrest, h.peek, h.target? (hc o List.mem_cons_self)]

theorem mem_marksOf_instructions {m : Marks} :
    (i, m) ∈ s.marksOf (s.offsetsWith .opcode) ↔
      ∃ o, s.IsInstruction o ∧ (i, m) ∈ Opcode.marks (s.peek o) o (s.target? o) := by
  constructor
  · intro h
    obtain ⟨o, ho, hm⟩ := List.mem_flatMap.1 h
    exact ⟨o, mem_offsetsWith.1 ho, hm⟩
  · rintro ⟨o, ho, hm⟩
    obtain ⟨n, hn, rfl⟩ := ho.mem_offsets
    exact List.mem_flatMap.2 ⟨n, hn, hm⟩

/-- The store with its marks replaced by those of its instructions. -/
def rescanned (s : Store) : Store :=
  s.clearMarks.withMarks (s.marksOf (s.offsetsWith .opcode))

theorem agrees_rescanned (s : Store) : s.Agrees s.rescanned :=
  (agrees_clearMarks s).trans (agrees_withMarks _ _)

/-- A rescan keeps the role and the context of every byte. -/
theorem Valid.cell_rescanned (hs : s.Valid) (hi : s.Contains i) : s.rescanned.cell i =
    ⟨(s.cell i).flag, (s.cell i).context, marksAt i (s.marksOf (s.offsetsWith .opcode))⟩ := by
  have hclear := stable_valid.clearMarks hs
  have hnonneg : ∀ p ∈ s.marksOf (s.offsetsWith .opcode), 0 ≤ p.1 := by
    intro p hp
    exact (contains_of_mem_marksOf (fun o ho => (mem_offsetsWith.1 ho).1) hp).1
  rw [rescanned, hclear.cell_withMarks hnonneg ((agrees_clearMarks s).contains.2 hi),
    cell_clearMarks, Cell.addMarks, Cell.marks_clearMarks, Marks.union_comm, Marks.union_empty,
    Cell.flag_clearMarks, Cell.context_clearMarks]

end Marking

end Store

namespace StoreM

/-- Marking the flow of instructions one after the other adds up the marks of all of them. -/
theorem markAll_of_contains {s : Store} (hs : s.Valid) {offsets : List Nat}
    (ho : ∀ o ∈ offsets, s.Contains (o : Nat)) (flows : List Flow) :
    ∃ flows', markAll offsets flows s = .ok flows' (s.withMarks (s.marksOf offsets)) := by
  induction offsets generalizing s flows with
  | nil => exact ⟨flows, rfl⟩
  | cons o rest ih =>
    have hhead : s.Contains o := ho o List.mem_cons_self
    have hrest : ∀ o' ∈ rest, s.Contains (o' : Nat) := fun o' h => ho o' (List.mem_cons_of_mem _ h)
    have hagree := Store.agrees_marked s o
    have hmarks : (s.marked o).marksOf rest = s.marksOf rest := by
      refine hagree.marksOf fun o' ho' => ?_
      rw [hs.cell_marked hhead (hrest o' ho')]
      rfl
    obtain ⟨flows', hrun⟩ := ih (hs.marked o) (fun o' h => hagree.contains.2 (hrest o' h))
      (((Opcode.flowTarget (s.peek o) (s.target? o)).map (⟨s.peek o, o, ·⟩)).toList ++ flows)
    have hmarked : (s.marked o).withMarks (s.marksOf rest) = s.withMarks (s.marksOf (o :: rest)) :=
      (Store.withMarks_append s _ _).symm
    rw [hmarks, hmarked] at hrun
    exact ⟨flows', (bind_of_ok (markFlow_of_contains hhead)).trans hrun⟩

/-- On a valid store a rescan succeeds: all marks go, then those of the instructions come. -/
theorem rescan_of_valid {s : Store} (hs : s.Valid) :
    ∃ flows, rescan s = .ok ⟨(s.offsetsWith .opcode).length, flows⟩ s.rescanned := by
  have hagree := Store.agrees_clearMarks s
  have hinside : ∀ o ∈ s.offsetsWith .opcode, s.clearMarks.Contains (o : Nat) := by
    intro o ho
    exact hagree.contains.2 (Store.mem_offsetsWith.1 ho).1
  have hmarks : s.clearMarks.marksOf (s.offsetsWith .opcode) =
      s.marksOf (s.offsetsWith .opcode) := by
    refine hagree.marksOf fun o _ => ?_
    rw [Store.cell_clearMarks, Cell.context_clearMarks]
  obtain ⟨flows, hrun⟩ := markAll_of_contains (Store.stable_valid.clearMarks hs) hinside []
  rw [hmarks] at hrun
  refine ⟨flows, ?_⟩
  unfold rescan
  have hclear : (modify (·.clearMarks) : StoreM Unit) s = .ok () s.clearMarks := rfl
  refine (bind_of_ok hclear).trans ?_
  refine (bind_of_ok (get_run s.clearMarks)).trans ?_
  rw [Store.offsetsWith_clearMarks]
  exact bind_of_ok hrun

end StoreM

namespace Store

variable {s : Store} {i : Int}

theorem IsInstruction.targetAt (h : s.IsInstruction i) : s.targetAt i = .ok (s.target? i) :=
  targetAt_of_contains h.1

/-- The marks that all instructions leave at a byte, kind by kind. -/
theorem has_marksOf_instructions {p : Marks} :
    (marksAt i (s.marksOf (s.offsetsWith .opcode))).Has p ↔
      (Marks.read.Has p ∧ ∃ o, s.IsInstruction o ∧ Opcode.isReading (s.peek o) ∧
        s.targetAt o = .ok (some i)) ∨
      (Marks.stop.Has p ∧ s.IsInstruction i ∧ s.peek i ∈ Opcode.ends) ∨
      (Marks.exit.Has p ∧ s.IsInstruction i ∧ s.peek i ∈ Opcode.flows ∧
        ∃ target, s.targetAt i = .ok (some target)) ∨
      (Marks.entry.Has p ∧ ∃ o, s.IsInstruction o ∧ s.peek o ∈ Opcode.flows ∧
        s.targetAt o = .ok (some i)) := by
  have htarget {o target : Int} (ho : s.IsInstruction o) :
      s.targetAt o = .ok (some target) ↔ s.target? o = some target := by
    rw [ho.targetAt, Except.ok.injEq]
  simp only [has_marksAt, mem_marksOf_instructions, Opcode.mem_marks]
  constructor
  · rintro ⟨m, ⟨o, ho, hm⟩, hp⟩
    rcases hm with ⟨rfl, hop, ht⟩ | ⟨rfl, rfl, hop⟩ | ⟨rfl, rfl, hop, ht⟩ | ⟨rfl, hop, ht⟩
    · exact Or.inl ⟨hp, o, ho, hop, (htarget ho).2 ht⟩
    · exact Or.inr (Or.inl ⟨hp, ho, hop⟩)
    · obtain ⟨target, ht⟩ := Option.isSome_iff_exists.1 ht
      exact Or.inr (Or.inr (Or.inl ⟨hp, ho, hop, target, (htarget ho).2 ht⟩))
    · exact Or.inr (Or.inr (Or.inr ⟨hp, o, ho, hop, (htarget ho).2 ht⟩))
  · rintro (⟨hp, o, ho, hop, ht⟩ | ⟨hp, ho, hop⟩ | ⟨hp, ho, hop, target, ht⟩ |
      ⟨hp, o, ho, hop, ht⟩)
    · exact ⟨_, ⟨o, ho, Or.inl ⟨rfl, hop, (htarget ho).1 ht⟩⟩, hp⟩
    · exact ⟨_, ⟨i, ho, Or.inr (Or.inl ⟨rfl, rfl, hop⟩)⟩, hp⟩
    · have hsome : (s.target? i).isSome := by rw [(htarget ho).1 ht]; rfl
      exact ⟨_, ⟨i, ho, Or.inr (Or.inr (Or.inl ⟨rfl, rfl, hop, hsome⟩))⟩, hp⟩
    · exact ⟨_, ⟨o, ho, Or.inr (Or.inr (Or.inr ⟨rfl, hop, (htarget ho).1 ht⟩))⟩, hp⟩

/-- The marks of all instructions together tell the flow of control. -/
theorem flowMarks_marksOf (s : Store) (i : Int) :
    s.FlowMarks i (marksAt i (s.marksOf (s.offsetsWith .opcode))) where
  stop := by
    rw [has_marksOf_instructions]
    simp +decide
  exit := by
    rw [has_marksOf_instructions]
    simp +decide
  entry := by
    rw [has_marksOf_instructions]
    simp +decide
  read := by
    rw [has_marksOf_instructions]
    simp +decide
  other := by
    rw [has_marksOf_instructions]
    simp +decide

end Store

/--
A rescan leaves exactly the flow of control between the instructions as marks, tells how many
instructions there are, and changes nothing but marks.
-/
theorem StoreM.rescan_rebuilds_flow {s : Store} (hs : s.Reachable) :
    ∃ r t, rescan s = .ok r t ∧ s.Agrees t ∧
      r.count = (List.range s.size).countP (fun i : Nat => (s.cell i).flag == .opcode) ∧
      ∀ i, s.Contains i → (t.cell i).flag = (s.cell i).flag ∧
        (t.cell i).context = (s.cell i).context ∧ s.FlowMarks i (t.cell i).marks := by
  obtain ⟨flows, hrun⟩ := rescan_of_valid hs.valid
  refine ⟨_, _, hrun, s.agrees_rescanned, ?_, ?_⟩
  · rw [List.countP_eq_length_filter, Store.offsetsWith_eq]
  · intro i hi
    rw [hs.valid.cell_rescanned hi]
    exact ⟨rfl, rfl, s.flowMarks_marksOf i⟩

/-- A jump to itself leaves, enters and ends at one byte. -/
theorem StoreM.rescan_rebuilds_flow_self_jump :
    let fresh : Store := ⟨#[0x80, 0xFE], .loRom, .slow, Array.replicate 2 {}, {}, {}⟩
    let s := (Project.apply { store := fresh } (.step 0 false false (-1))).store
    s.Reachable ∧ ∃ r t, rescan s = .ok r t ∧ r.count = 1 ∧ s.FlowMarks 0 (t.cell 0).marks := by
  intro fresh s
  have hcreate : Store.create #[0x80, 0xFE] .loRom .slow = .ok fresh := rfl
  have hs : s.Reachable := .apply { store := fresh } _ (.create hcreate)
  have hcount : (List.range s.size).countP (fun i : Nat => (s.cell i).flag == .opcode) = 1 := by
    decide +kernel
  obtain ⟨r, t, hrun, -, hr, hcells⟩ := rescan_rebuilds_flow hs
  exact ⟨hs, r, t, hrun, hr.trans hcount, (hcells 0 (by decide +kernel)).2.2⟩

end Disassembly

import Disassembly.Proofs.Decode.Operand

/-!
What decoding an instruction does. The bytes from the opcode to the end of the instruction, or of
the image, become its own under one context; then marks are added at the opcode and at its target.
Nothing else changes.
-/
namespace Disassembly

namespace Opcode

theorem mem_marks {op : UInt8} {offset i : Int} {target : Option Int} {m : Marks} :
    (i, m) ∈ marks op offset target ↔
      (m = .read ∧ isReading op ∧ target = some i) ∨ (m = .stop ∧ i = offset ∧ op ∈ ends) ∨
        (m = .exit ∧ i = offset ∧ op ∈ flows ∧ target.isSome) ∨
        (m = .entry ∧ op ∈ flows ∧ target = some i) := by
  cases target with
  | none => simp [marks, and_assoc, and_comm, and_left_comm]
  | some t =>
    simp only [marks, List.mem_append, List.mem_ite_nil_right, List.mem_cons, List.not_mem_nil,
      or_false, Prod.mk.injEq, List.contains_iff_mem, Option.some.injEq, Option.isSome_some]
    grind

/-- Marks are left at the instruction and at its target only. -/
theorem mem_marks_offset {op : UInt8} {offset : Int} {target : Option Int} {p : Int × Marks}
    (h : p ∈ marks op offset target) : p.1 = offset ∨ some p.1 = target := by
  rcases mem_marks.1 h with ⟨-, -, ht⟩ | ⟨-, ho, -⟩ | ⟨-, ho, -⟩ | ⟨-, -, ht⟩
  · exact Or.inr ht.symm
  · exact Or.inl ho
  · exact Or.inl ho
  · exact Or.inr ht.symm

end Opcode

namespace Store

variable {s t : Store} {offset prev i : Int} {context : Context}

/-- The context that an instruction of the image takes over from the byte `prev`. -/
def inherited (s : Store) (offset prev : Int) : Context :=
  if s.Contains prev ∧ (s.cell (s.owner 3 prev)).flag = .opcode then
    (s.cell (s.owner 3 prev)).context
  else (s.cell offset).context

/-- The context of an instruction of the image that is decoded behind `prev`. -/
def decodingContext (s : Store) (offset prev : Int) : Context :=
  s.statusContext offset (s.peek offset) (s.inherited offset prev)

def lengthUnder (s : Store) (offset : Int) (context : Context) : Nat :=
  (s.modeUnder offset context).length

/-- The store with the bytes of an instruction made its own. -/
def own (s : Store) (offset : Int) (context : Context) : Store :=
  (s.editRun offset 1 fun c => (c.setFlag .opcode).setContext context).editRun (offset + 1)
    (min (offset + s.lengthUnder offset context) s.size - (offset + 1)).toNat
    fun c => (c.setFlag .operand).setContext context

/-- The store with the marks of the instruction at `offset`. -/
def marked (s : Store) (offset : Int) : Store :=
  s.withMarks (Opcode.marks (s.peek offset) offset (s.target? offset))

/-- The store after decoding the instruction at `offset` behind `prev`. -/
def decoded (s : Store) (offset prev : Int) : Store :=
  (s.own offset (s.decodingContext offset prev)).marked offset

/-- What decoding reports. The flags decide only where it goes on. -/
def decoding (s : Store) (offset : Int) (branch force : Bool) (prev : Int) : Decoded :=
  let op := s.peek offset
  let context := s.decodingContext offset prev
  let target := (s.own offset context).target? offset
  let behind := offset + s.lengthUnder offset context
  { offset, opcode := op, context
    flow := (Opcode.flowTarget op target).map (⟨op, offset, ·⟩)
    next := if Opcode.followsTarget op branch force then target.getD behind else behind }

theorem inheritedContext_of_contains (h : s.Contains offset) :
    s.inheritedContext offset prev = .ok (s.inherited offset prev) := by
  unfold inheritedContext inherited
  dsimp only
  split
  · rfl
  · exact contextAt_of_contains h

section Own

theorem agrees_own (s : Store) (offset : Int) (context : Context) :
    s.Agrees (s.own offset context) := ⟨rfl, rfl, rfl, rfl, rfl⟩

theorem Valid.own (hs : s.Valid) (offset : Int) (context : Context) :
    (s.own offset context).Valid :=
  (hs.editRun (Cell.masking_own _ _) _ _).editRun (Cell.masking_own _ _) _ _

/-- The opcode byte and the operand bytes change role and context, all other cells stay. -/
theorem Valid.cell_own (hs : s.Valid) (ho : s.Contains offset) (hi : s.Contains i) :
    (s.own offset context).cell i =
      if i = offset then ⟨.opcode, context.masked, (s.cell i).marks⟩
      else if offset < i ∧ i < offset + s.lengthUnder offset context then
        ⟨.operand, context.masked, (s.cell i).marks⟩
      else s.cell i := by
  have h0 := ho.1
  have hsize := hi.2
  have hopened := hs.editRun (Cell.masking_own .opcode context) offset 1
  unfold Store.own
  rw [hopened.cell_editRun _ _ (by omega) hi, hs.cell_editRun _ _ h0 hi]
  by_cases hself : i = offset
  · rw [if_neg (by omega), if_pos (by omega), if_pos hself]
    rfl
  · rw [if_neg (show ¬ (offset ≤ i ∧ i < offset + (1 : Nat)) by omega), if_neg hself]
    by_cases hoperand : offset < i ∧ i < offset + s.lengthUnder offset context
    · rw [if_pos (by omega), if_pos hoperand]
      rfl
    · rw [if_neg (by omega), if_neg hoperand]

theorem Valid.cell_own_self (hs : s.Valid) (ho : s.Contains offset) :
    (s.own offset context).cell offset = ⟨.opcode, context.masked, (s.cell offset).marks⟩ := by
  rw [hs.cell_own ho ho, if_pos rfl]

theorem Valid.cell_own_operand (hs : s.Valid) (ho : s.Contains offset) (hi : s.Contains i)
    (h : offset < i ∧ i < offset + s.lengthUnder offset context) :
    (s.own offset context).cell i = ⟨.operand, context.masked, (s.cell i).marks⟩ := by
  rw [hs.cell_own ho hi, if_neg (by omega), if_pos h]

theorem Valid.cell_own_outside (hs : s.Valid) (ho : s.Contains offset) (hi : s.Contains i)
    (h : i < offset ∨ offset + s.lengthUnder offset context ≤ i) :
    (s.own offset context).cell i = s.cell i := by
  have hpos : 1 ≤ s.lengthUnder offset context := Mode.length_pos _
  rw [hs.cell_own ho hi, if_neg (by omega), if_neg (by omega)]

/-- Marks are not touched when bytes change hands. -/
theorem Valid.marks_own (hs : s.Valid) (ho : s.Contains offset) (hi : s.Contains i) :
    ((s.own offset context).cell i).marks = (s.cell i).marks := by
  rw [hs.cell_own ho hi]
  split
  · rfl
  · split
    · rfl
    · rfl

/-- An instruction that has its operand bytes under its own context owns them already. -/
theorem Valid.own_eq_self (hs : s.Valid) (ho : s.Contains offset)
    (hflag : (s.cell offset).flag = .opcode)
    (hoperand : ∀ i, s.Contains i → offset < i → i < offset + s.length offset →
      (s.cell i).flag = .operand ∧ (s.cell i).context = (s.cell offset).context) :
    s.own offset (s.cell offset).context = s := by
  refine eq_of_cell_eq (agrees_own s offset _) hs (hs.own offset _) ?_
  intro i hi
  rw [hs.cell_own ho hi, hs.masked]
  split
  · next hself => rw [hself, ← hflag]
  · split
    · next hin =>
      obtain ⟨iflag, icontext⟩ := hoperand i hi hin.1 hin.2
      rw [← iflag, ← icontext]
    · rfl

end Own

section Marked

theorem contains_of_mem_marks (ho : s.Contains offset) {p : Int × Marks}
    (hp : p ∈ Opcode.marks (s.peek offset) offset (s.target? offset)) : s.Contains p.1 := by
  rcases Opcode.mem_marks_offset hp with h | h
  · rwa [h]
  · exact contains_of_target? h.symm

theorem agrees_marked (s : Store) (offset : Int) : s.Agrees (s.marked offset) :=
  agrees_withMarks s _

theorem Valid.marked (hs : s.Valid) (offset : Int) : (s.marked offset).Valid := hs.withMarks _

theorem Valid.cell_marked (hs : s.Valid) (ho : s.Contains offset) (hi : s.Contains i) :
    (s.marked offset).cell i = (s.cell i).addMarks
      (marksAt i (Opcode.marks (s.peek offset) offset (s.target? offset))) :=
  hs.cell_withMarks (fun _ hp => (contains_of_mem_marks ho hp).1) hi

theorem Valid.target?_marked (hs : s.Valid) (ho : s.Contains offset) :
    (s.marked offset).target? offset = s.target? offset :=
  (agrees_marked s offset).target? (by rw [hs.cell_marked ho ho]; rfl)

end Marked

section Decoded

theorem agrees_decoded (s : Store) (offset prev : Int) : s.Agrees (s.decoded offset prev) :=
  (agrees_own s offset _).trans (agrees_marked _ offset)

theorem Valid.decoded (hs : s.Valid) (offset prev : Int) : (s.decoded offset prev).Valid :=
  (hs.own offset _).marked offset

theorem Valid.flag_decoded (hs : s.Valid) (ho : s.Contains offset) (hi : s.Contains i) :
    ((s.decoded offset prev).cell i).flag =
      ((s.own offset (s.decodingContext offset prev)).cell i).flag := by
  unfold Store.decoded
  rw [(hs.own offset _).cell_marked ho hi]
  rfl

theorem Valid.context_decoded (hs : s.Valid) (ho : s.Contains offset) (hi : s.Contains i) :
    ((s.decoded offset prev).cell i).context =
      ((s.own offset (s.decodingContext offset prev)).cell i).context := by
  unfold Store.decoded
  rw [(hs.own offset _).cell_marked ho hi]
  rfl

end Decoded

end Store

namespace StoreM

variable {s : Store} {offset prev : Int}

theorem markFlow_of_contains (ho : s.Contains offset) :
    markFlow offset s = .ok ((Opcode.flowTarget (s.peek offset) (s.target? offset)).map
      (⟨s.peek offset, offset, ·⟩)) (s.marked offset) := by
  unfold markFlow
  rw [bind_of_ok (read_of_ok (Store.byteAt_of_contains ho)),
    bind_of_ok (read_of_ok (Store.targetAt_of_contains ho)),
    bind_of_ok (addMarks_of_contains fun _ hp => Store.contains_of_mem_marks ho hp)]
  rfl

/-- Outside the image an instruction is neither marked nor decoded. -/
theorem markFlow_outside (ho : ¬ s.Contains offset) :
    markFlow offset s = .error (.outside 1 offset s.size) s :=
  bind_of_error (read_of_error (Store.byteAt_outside ho))

theorem decode_outside (ho : ¬ s.Contains offset) (branch force : Bool) (prev : Int) :
    decode offset branch force prev s = .error (.outside 1 offset s.size) s :=
  bind_of_error (read_of_error (Store.byteAt_outside ho))

theorem decode_of_contains (hs : s.Valid) (ho : s.Contains offset) (branch force : Bool)
    (prev : Int) : decode offset branch force prev s =
      .ok (s.decoding offset branch force prev) (s.decoded offset prev) := by
  let context := s.decodingContext offset prev
  let opened := s.editRun offset 1 fun c => (c.setFlag .opcode).setContext context
  have hcell : (opened.cell offset).context = context.masked := by
    rw [hs.cell_editRun _ _ ho.1 ho, if_pos (by omega)]
    rfl
  have hlength : opened.lengthAt offset = .ok (s.lengthUnder offset context) := by
    rw [Store.lengthAt_of_contains (show opened.Contains offset from ho), Store.length,
      Store.mode, hcell]
    rfl
  have hown : ownOperands offset (s.lengthUnder offset context) context opened =
      .ok () (s.own offset context) := rfl
  have howned : (s.own offset context).Contains offset := ho
  have htarget := Store.targetAt_of_contains
    (((Store.agrees_marked (s.own offset context) offset).contains).2 howned)
  rw [(hs.own offset context).target?_marked howned] at htarget
  unfold decode
  refine (bind_of_ok (read_of_ok (Store.byteAt_of_contains ho))).trans ?_
  refine (bind_of_ok (read_of_ok (Store.inheritedContext_of_contains ho))).trans ?_
  refine (bind_of_ok (get_run s)).trans ?_
  refine (bind_of_ok (edit_of_contains ho _)).trans ?_
  refine (bind_of_ok (read_of_ok hlength)).trans ?_
  refine (bind_of_ok hown).trans ?_
  refine (bind_of_ok (markFlow_of_contains howned)).trans ?_
  exact (bind_of_ok (read_of_ok htarget)).trans rfl

end StoreM

end Disassembly

import Disassembly.Proofs.Store.Cells

/-!
Instructions inside the image. There the checked reads of mode, length and operand succeed and
give the views `mode`, `length`, `operand?` and `target?`, which depend on the image, its layout
and the context of the opcode byte alone.
-/
namespace Disassembly

namespace Mode

theorem length_pos (m : Mode) : 1 ≤ m.length := by
  cases m <;> decide

theorem length_le (m : Mode) : m.length ≤ 4 := by
  cases m <;> decide

/-- The kind of an operand address tells how long the instruction is. -/
theorem length_of_kind (m : Mode) :
    (m.isDirectPage = true → m.length = 2) ∧ (m.isStackRelative = true → m.length = 2) ∧
      (m.isAbsolute = true → m.length = 3) ∧ (m.isPointer = true → m.length = 3) ∧
      (m.isLong = true → m.length = 4) := by
  cases m <;> decide

theorem eq_of_isRelative {m : Mode} (h : m.isRelative) : m = .relative8 ∨ m = .relative16 := by
  revert h
  cases m <;> decide

end Mode

/-- No register takes part in the operand of a transfer of control. -/
theorem Opcode.mode_of_flow {op : UInt8} (h : op ∈ flows) :
    (mode op = .absolute ∧ op ∈ inProgramBank) ∨ mode op = .long ∨ mode op = .relative8 ∨
      mode op = .relative16 := by
  have hall : ∀ op ∈ flows, (mode op = .absolute ∧ op ∈ inProgramBank) ∨ mode op = .long ∨
      mode op = .relative8 ∨ mode op = .relative16 := by decide +kernel
  exact hall op h

/-- The length of an instruction: an immediate operand whose width is that of a register takes one
byte or two, all others have the length of their mode. -/
def Opcode.lengthUnder (op : UInt8) (context : Context) : Nat :=
  match mode op with
  | .immediateX => if context.xFlag then 2 else 3
  | .immediateM => if context.mFlag then 2 else 3
  | mode => mode.length

theorem ok_bind {α β : Type} (a : α) (f : α → Except Fault β) :
    ((.ok a : Except Fault α) >>= f) = f a := rfl

namespace Store

variable {s t : Store} {offset : Int}

/-- The mode under given widths. -/
def modeUnder (s : Store) (offset : Int) (context : Context) : Mode :=
  (Opcode.mode (s.peek offset)).resolve context.xFlag context.mFlag

theorem length_modeUnder (s : Store) (offset : Int) (context : Context) :
    (s.modeUnder offset context).length = Opcode.lengthUnder (s.peek offset) context := by
  unfold modeUnder Opcode.lengthUnder
  generalize Opcode.mode (s.peek offset) = mode
  exact Mode.length_resolve _ _ mode

def mode (s : Store) (offset : Int) : Mode := s.modeUnder offset (s.cell offset).context

def length (s : Store) (offset : Int) : Nat := (s.mode offset).length

theorem length_pos (s : Store) (o : Int) : 1 ≤ s.length o := Mode.length_pos _

theorem length_eq (s : Store) (o : Int) :
    s.length o = Opcode.lengthUnder (s.peek o) (s.cell o).context :=
  s.length_modeUnder o _

/-- The two operand bytes of a word. -/
def word (s : Store) (offset : Int) : Nat :=
  (s.peek offset).toNat + (s.peek (offset + 1)).toNat * 0x100

theorem word_lt (s : Store) (offset : Int) : s.word offset < 0x10000 := by
  have hlow := (s.peek offset).toNat_lt
  have hhigh := (s.peek (offset + 1)).toNat_lt
  unfold word
  omega

/-- The address that the operand of an instruction in the image designates. -/
def operand? (s : Store) (offset : Int) (resolve : Bool) : Option Int :=
  let mode := s.mode offset
  let context := (s.cell offset).context
  let low := (s.peek (offset + 1)).toNat
  if (s.size : Int) < offset + mode.length then none
  else if mode.isDirectPage then
    some (if resolve then (context.directPage + low) % 0x10000 else low)
  else if mode.isStackRelative then some low
  else if mode.isAbsolute then
    some ((if Opcode.inProgramBank.contains (s.peek offset) then s.programBank offset
      else context.dataBank) * 0x10000 + s.word (offset + 1))
  else if mode.isPointer then some (s.word (offset + 1))
  else if mode.isLong then
    some (s.word (offset + 1) + (s.peek (offset + 1 + 2)).toNat * 0x10000 : Nat)
  else if mode = .relative8 then s.relativeTarget? offset 2 (signed 1 low)
  else if mode = .relative16 then s.relativeTarget? offset 3 (signed 2 (s.word (offset + 1)))
  else none

/-- The byte of the image that the operand designates. -/
def target? (s : Store) (offset : Int) : Option Int :=
  (s.operand? offset true).bind s.fileOffset?

section Reads

theorem byteAt_outside (h : ¬ s.Contains offset) :
    s.byteAt offset = .error (.outside 1 offset s.size) := by
  have hfault : s.check 1 offset = .error (.outside 1 offset s.size) := by
    unfold Contains at h
    exact if_pos (by omega)
  unfold byteAt
  rw [hfault]
  rfl

theorem modeAt_of_contains (h : s.Contains offset) : s.modeAt offset = .ok (s.mode offset) := by
  unfold modeAt contextAt
  rw [byteAt_of_contains h, cellAt_of_contains h]
  rfl

theorem lengthAt_of_contains (h : s.Contains offset) :
    s.lengthAt offset = .ok (s.length offset) := by
  unfold lengthAt
  rw [modeAt_of_contains h]
  rfl

theorem truncatedAt_of_contains (h : s.Contains offset) :
    s.truncatedAt offset = .ok (decide ((s.size : Int) < offset + s.length offset)) := by
  unfold truncatedAt
  rw [lengthAt_of_contains h]
  rfl

theorem fits_of_complete (h : s.Contains offset) (hcomplete : s.truncatedAt offset = .ok false) :
    offset + s.length offset ≤ s.size := by
  rw [truncatedAt_of_contains h] at hcomplete
  exact Int.not_lt.1 (of_decide_eq_false (Except.ok.inj hcomplete))

theorem contextAt_of_contains (h : s.Contains offset) :
    s.contextAt offset = .ok (s.cell offset).context := by
  unfold contextAt
  rw [cellAt_of_contains h]
  rfl

theorem wordAt_of_le (h0 : 0 ≤ offset) (h : offset + 2 ≤ s.size) :
    s.wordAt offset = .ok (s.word offset) := by
  unfold wordAt
  rw [check_eq_ok_iff.2 ⟨h0, h⟩]
  rfl

theorem longAt_of_le (h0 : 0 ≤ offset) (h : offset + 3 ≤ s.size) :
    s.longAt offset = .ok (s.word offset + (s.peek (offset + 2)).toNat * 0x10000) := by
  unfold longAt
  rw [check_eq_ok_iff.2 ⟨h0, h⟩]
  rfl

/-- An instruction that ends in the image has all its operand bytes there. -/
theorem operandAddress_of_contains (h : s.Contains offset) (resolve : Bool) :
    s.operandAddress offset resolve = .ok (s.operand? offset resolve) := by
  have h0 := h.1
  unfold operandAddress operand?
  rw [modeAt_of_contains h, ok_bind, truncatedAt_of_contains h, ok_bind]
  generalize hm : s.mode offset = m
  have hlength : s.length offset = m.length := congrArg Mode.length hm
  obtain ⟨hdirect2, hstack2, habsolute3, hpointer3, hlong4⟩ := m.length_of_kind
  rw [hlength]
  by_cases htrunc : (s.size : Int) < offset + m.length
  · simp only [htrunc, decide_true, if_true]
    rfl
  simp only [htrunc, decide_false, Bool.false_eq_true, if_false]
  have hbyte (hl : m.length = 2) : s.byteAt (offset + 1) = .ok (s.peek (offset + 1)) :=
    byteAt_of_contains ⟨by omega, by omega⟩
  have hword (hl : m.length = 3) : s.wordAt (offset + 1) = .ok (s.word (offset + 1)) :=
    wordAt_of_le (by omega) (by omega)
  by_cases hdirect : m.isDirectPage = true
  · rw [if_pos hdirect, if_pos hdirect, hbyte (hdirect2 hdirect),
      contextAt_of_contains h]
    cases resolve <;> rfl
  rw [if_neg hdirect, if_neg hdirect]
  by_cases hstack : m.isStackRelative = true
  · rw [if_pos hstack, if_pos hstack, hbyte (hstack2 hstack)]
    rfl
  rw [if_neg hstack, if_neg hstack]
  by_cases habsolute : m.isAbsolute = true
  · rw [if_pos habsolute, if_pos habsolute, hword (habsolute3 habsolute),
      byteAt_of_contains h, contextAt_of_contains h]
    rfl
  rw [if_neg habsolute, if_neg habsolute]
  by_cases hpointer : m.isPointer = true
  · rw [if_pos hpointer, if_pos hpointer, hword (hpointer3 hpointer)]
    rfl
  rw [if_neg hpointer, if_neg hpointer]
  by_cases hlong : m.isLong = true
  · have hl := hlong4 hlong
    rw [if_pos hlong, if_pos hlong, longAt_of_le (by omega) (by omega)]
    rfl
  rw [if_neg hlong, if_neg hlong]
  by_cases h8 : m = .relative8
  · rw [if_pos h8, if_pos h8, hbyte (by rw [h8]; rfl)]
    rfl
  rw [if_neg h8, if_neg h8]
  by_cases h16 : m = .relative16
  · rw [if_pos h16, if_pos h16, hword (by rw [h16]; rfl)]
    rfl
  rw [if_neg h16, if_neg h16]
  rfl

theorem targetAt_of_contains (h : s.Contains offset) :
    s.targetAt offset = .ok (s.target? offset) := by
  unfold targetAt
  rw [operandAddress_of_contains h]
  rfl

/-- Where to go on if the target is taken, and `behind` if there is none. -/
theorem targetAt_getD (h : s.Contains offset) (behind : Int) :
    s.targetAt offset = .ok (some ((s.target? offset).getD behind)) ∨
      s.targetAt offset = .ok none ∧ (s.target? offset).getD behind = behind := by
  rw [targetAt_of_contains h]
  cases s.target? offset with
  | none => exact Or.inr ⟨rfl, rfl⟩
  | some target => exact Or.inl rfl

/-- An operand that is cut off has no target. -/
theorem target?_of_truncated (h : (s.size : Int) < offset + s.length offset) :
    s.target? offset = none := by
  have hoperand : s.operand? offset true = none := if_pos h
  rw [target?, hoperand]
  rfl

end Reads

section Agreement

variable (h : s.Agrees t)

include h

theorem Agrees.modeUnder (offset : Int) (context : Context) :
    t.modeUnder offset context = s.modeUnder offset context := by
  simp only [Store.modeUnder, h.peek]

theorem Agrees.mode (hc : (t.cell offset).context = (s.cell offset).context) :
    t.mode offset = s.mode offset := by
  simp only [Store.mode, h.modeUnder, hc]

theorem Agrees.length (hc : (t.cell offset).context = (s.cell offset).context) :
    t.length offset = s.length offset :=
  congrArg Mode.length (h.mode hc)

theorem Agrees.relativeTarget? (offset : Int) (length : Nat) (displacement : Int) :
    t.relativeTarget? offset length displacement =
      s.relativeTarget? offset length displacement := by
  simp only [Store.relativeTarget?, Store.addressBehind?, h.busAddress?]

theorem Agrees.operand? (hc : (t.cell offset).context = (s.cell offset).context)
    (resolve : Bool) : t.operand? offset resolve = s.operand? offset resolve := by
  simp only [Store.operand?, h.mode hc, hc, h.size, h.peek, Store.word, Store.programBank,
    h.busAddress?, h.relativeTarget?]

theorem Agrees.target? (hc : (t.cell offset).context = (s.cell offset).context) :
    t.target? offset = s.target? offset := by
  simp only [Store.target?, h.operand? hc]
  exact congrArg _ (funext h.fileOffset?)

/-- Where a transfer of control leads is read off the image. -/
theorem Agrees.target?_of_flow (hop : s.peek offset ∈ Opcode.flows) :
    t.target? offset = s.target? offset := by
  have hoperand : t.operand? offset true = s.operand? offset true := by
    rcases Opcode.mode_of_flow hop with ⟨hm, hbank⟩ | hm | hm | hm
    all_goals
      simp only [Store.operand?, Store.mode, h.modeUnder, h.size, h.peek, Store.word,
        Store.programBank, h.busAddress?, h.relativeTarget?]
      simp [Store.modeUnder, Mode.resolve, Mode.isDirectPage, Mode.isStackRelative,
        Mode.isAbsolute, *]
  simp only [Store.target?, hoperand]
  exact congrArg _ (funext h.fileOffset?)

end Agreement

theorem contains_of_fileOffset? {address : Int} (h : s.fileOffset? address = some offset) :
    s.Contains offset := by
  unfold fileOffset? at h
  obtain ⟨-, hin⟩ := Option.filter_eq_some_iff.1 h
  exact of_decide_eq_true hin

/-- Targets lie in the image. -/
theorem contains_of_target? {target : Int} (h : s.target? offset = some target) :
    s.Contains target := by
  obtain ⟨address, -, hfile⟩ := Option.bind_eq_some_iff.1 h
  exact contains_of_fileOffset? hfile

end Store

end Disassembly

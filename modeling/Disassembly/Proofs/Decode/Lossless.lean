import Disassembly.Proofs.Instruction.Spelling
import Disassembly.Proofs.Layout.FirstBank
import Disassembly.Proofs.Project.Listing

/-!
Instruction texts show the bytes. The literal of an operand is derived from the address that the
operand designates, which depends on layout, direct page and bank; cut to the width of the operand
it is the operand as it stands in the image. So without labels an instruction is spelled by its
bytes alone, and texts are equal only where bytes are.
-/
namespace Disassembly

/-- The operand is an address. -/
def Mode.IsAddress (m : Mode) : Prop :=
  m.isDirectPage ∨ m.isStackRelative ∨ m.isAbsolute ∨ m.isPointer ∨ m.isLong ∨ m.isRelative

instance (m : Mode) : Decidable m.IsAddress := inferInstanceAs (Decidable (_ ∨ _))

/-- The literal of an address has all bytes of the operand. -/
theorem Mode.IsAddress.shownBytes {m : Mode} (h : m.IsAddress) : m.shownBytes = m.length - 1 := by
  revert h
  cases m <;> decide

theorem Mode.eq_of_not_isAddress {m : Mode} (hlength : 2 ≤ m.length) (h : ¬ m.IsAddress) :
    m = .constant8 ∨ m = .immediate8 ∨ m = .immediate16 ∨ m = .blockMove := by
  revert hlength h
  cases m <;> decide

namespace Store

variable {s t : Store} {o o' address : Int}

/-- Where a displacement counts from there is an address. -/
theorem relativeTarget?_nonneg (hbus : s.busAddress? o = some address) (length : Nat) (d : Int) :
    ∃ target, s.relativeTarget? o length d = some target ∧ 0 ≤ target := by
  have hbehind : ∃ behind, s.addressBehind? o length = some behind ∧ 0 ≤ behind := by
    unfold addressBehind?
    split
    · next behind hsome => exact ⟨behind, rfl, (busAddress?_bounds hsome).1⟩
    · have hnonneg := (busAddress?_bounds hbus).1
      exact ⟨address + length, by rw [hbus]; rfl, by omega⟩
  obtain ⟨behind, hsome, hnonneg⟩ := hbehind
  refine ⟨behind / 0x10000 * 0x10000 + (behind + d) % 0x10000, ?_, by omega⟩
  rw [relativeTarget?, hsome]
  rfl

/-- The operand of an instruction that has a bus address designates an address from zero on. -/
theorem operand?_nonneg (hs : s.Valid) (hend : o + s.length o ≤ s.size)
    (hbus : s.busAddress? o = some address) (hmode : (s.mode o).IsAddress) :
    ∃ target, s.operand? o true = some target ∧ 0 ≤ target := by
  have hfits : ¬ (s.size : Int) < o + (s.mode o).length := Int.not_lt.2 hend
  have hcontext := Context.masked_eq_iff.1 (hs.masked o)
  have hnonneg := (busAddress?_bounds hbus).1
  have hbank : 0 ≤ s.programBank o := by
    simp only [programBank, hbus, Option.getD_some]
    omega
  unfold operand?
  rw [if_neg hfits]
  split
  · exact ⟨_, rfl, by simp; omega⟩
  split
  · exact ⟨_, rfl, by omega⟩
  split
  · refine ⟨_, rfl, ?_⟩
    split <;> omega
  split
  · exact ⟨_, rfl, by omega⟩
  split
  · exact ⟨_, rfl, by omega⟩
  split
  · exact relativeTarget?_nonneg hbus 2 _
  split
  · exact relativeTarget?_nonneg hbus 3 _
  · next hdirect hstack habsolute hpointer hlong h8 h16 =>
    rcases hmode with hkind | hkind | hkind | hkind | hkind | hkind
    · exact absurd hkind hdirect
    · exact absurd hkind hstack
    · exact absurd hkind habsolute
    · exact absurd hkind hpointer
    · exact absurd hkind hlong
    · exact absurd (Mode.eq_of_isRelative hkind) (not_or.2 ⟨h8, h16⟩)

/-- Only operands that are addresses designate one. -/
theorem operand?_eq_none (hmode : ¬ (s.mode o).IsAddress) (resolve : Bool) :
    s.operand? o resolve = none := by
  simp only [Mode.IsAddress, not_or] at hmode
  obtain ⟨hdirect, hstack, habsolute, hpointer, hlong, hrelative⟩ := hmode
  have h8 : s.mode o ≠ .relative8 := fun hm => hrelative (by rw [hm]; rfl)
  have h16 : s.mode o ≠ .relative16 := fun hm => hrelative (by rw [hm]; rfl)
  unfold operand?
  dsimp only
  rw [if_neg hdirect, if_neg hstack, if_neg habsolute, if_neg hpointer, if_neg hlong, if_neg h8,
    if_neg h16, ite_self]

theorem isAddress_of_operand? {resolve : Bool} {target : Int}
    (h : s.operand? o resolve = some target) : (s.mode o).IsAddress := by
  by_contra hmode
  rw [operand?_eq_none hmode] at h
  cases h

section Bytes

theorem bytesFrom_succ (h : s.Contains o) (n : Nat) :
    s.bytesFrom o (n + 1) = s.peek o :: s.bytesFrom (o + 1) n := by
  obtain ⟨h0, hsize⟩ := h
  have hlt : o.toNat < s.rom.size := by
    unfold size at hsize
    omega
  have hnext : (o + 1).toNat = o.toNat + 1 := by omega
  rw [bytesFrom_eq, bytesFrom_eq, hnext, List.drop_eq_getElem_cons (by simpa using hlt)]
  simp [peek, Array.getD, hlt]

theorem length_bytesFrom {n : Nat} (h0 : 0 ≤ o) (h : o + n ≤ s.size) :
    (s.bytesFrom o n).length = n := by
  unfold size at h
  simp only [bytesFrom_eq, List.length_take, List.length_drop, Array.length_toList]
  omega

/-- The bytes of the instruction behind its opcode. -/
def operandBytes (s : Store) (o : Int) : List UInt8 := s.bytesFrom (o + 1) (s.length o - 1)

theorem bytesFrom_length (h : s.Contains o) :
    s.bytesFrom o (s.length o) = s.peek o :: s.operandBytes o := by
  have hpos := s.length_pos o
  rw [operandBytes, ← bytesFrom_succ h, Nat.sub_add_cancel hpos]

end Bytes

theorem firstOperand_of_isAddress {m : Mode} (h : m.IsAddress) :
    s.firstOperand o m = s.addressText o m := by
  cases m with
  | constant8 | immediate8 | immediate16 | blockMove => exact absurd h (by decide)
  | _ => rfl

section Operands

variable (h : s.Contains o) (hend : o + s.length o ≤ s.size)

include h hend

theorem length_operandBytes : (s.operandBytes o).length + 1 = (s.mode o).length := by
  have hpos := s.length_pos o
  have h0 := h.1
  rw [operandBytes, length_bytesFrom (by omega) (by omega), Nat.sub_add_cancel hpos, length]

theorem operandBytes_of_two (hlength : s.length o = 2) :
    s.operandBytes o = [s.peek (o + 1)] := by
  have h0 := h.1
  rw [operandBytes, hlength, bytesFrom_succ ⟨by omega, by omega⟩]
  simp [bytesFrom_eq]

theorem operandBytes_of_three (hlength : s.length o = 3) :
    s.operandBytes o = [s.peek (o + 1), s.peek (o + 2)] := by
  have h0 := h.1
  rw [operandBytes, hlength, bytesFrom_succ ⟨by omega, by omega⟩,
    bytesFrom_succ ⟨by omega, by omega⟩]
  simp [bytesFrom_eq, Int.add_assoc]

theorem operandBytes_of_four (hlength : s.length o = 4) :
    s.operandBytes o = [s.peek (o + 1), s.peek (o + 2), s.peek (o + 3)] := by
  have h0 := h.1
  rw [operandBytes, hlength, bytesFrom_succ ⟨by omega, by omega⟩,
    bytesFrom_succ ⟨by omega, by omega⟩, bytesFrom_succ ⟨by omega, by omega⟩]
  simp [bytesFrom_eq, Int.add_assoc]

theorem littleEndian_of_two (hlength : s.length o = 2) :
    littleEndian (s.operandBytes o) = (s.peek (o + 1)).toNat := by
  simp [operandBytes_of_two h hend hlength, littleEndian]

theorem littleEndian_of_three (hlength : s.length o = 3) :
    littleEndian (s.operandBytes o) = s.word (o + 1) := by
  simp [operandBytes_of_three h hend hlength, littleEndian, word, Int.add_assoc, Nat.mul_comm]

theorem littleEndian_of_four (hlength : s.length o = 4) :
    littleEndian (s.operandBytes o) =
      s.word (o + 1) + (s.peek (o + 1 + 2)).toNat * 0x10000 := by
  simp [operandBytes_of_four h hend hlength, littleEndian, word, Int.add_assoc]
  omega

/-- Apart from the displacements, the unresolved address ends in the operand bytes. -/
theorem operand?_eq_littleEndian (hmode : (s.mode o).IsAddress)
    (hrelative : (s.mode o).isRelative = false) :
    ∃ bank, s.operand? o false = some (littleEndian (s.operandBytes o) +
      bank * ((0x100 ^ (s.mode o).shownBytes : Nat) : Int)) := by
  have hfits : ¬ (s.size : Int) < o + (s.mode o).length := Int.not_lt.2 hend
  obtain ⟨hdirect2, hstack2, habsolute3, hpointer3, hlong4⟩ := (s.mode o).length_of_kind
  have hshown := hmode.shownBytes
  unfold operand?
  rw [if_neg hfits]
  split
  · next hdirect =>
    refine ⟨0, ?_⟩
    simp only [littleEndian_of_two h hend (hdirect2 hdirect), Int.zero_mul, Int.add_zero,
      Bool.false_eq_true, if_false]
  split
  · next hstack =>
    refine ⟨0, ?_⟩
    simp only [littleEndian_of_two h hend (hstack2 hstack), Int.zero_mul, Int.add_zero]
  split
  · next habsolute =>
    rw [hshown, habsolute3 habsolute, littleEndian_of_three h hend (habsolute3 habsolute)]
    exact ⟨_, congrArg some (Int.add_comm _ _)⟩
  split
  · next hpointer =>
    refine ⟨0, ?_⟩
    simp only [littleEndian_of_three h hend (hpointer3 hpointer), Int.zero_mul, Int.add_zero]
  split
  · next hlong =>
    refine ⟨0, ?_⟩
    simp only [littleEndian_of_four h hend (hlong4 hlong), Int.zero_mul, Int.add_zero]
  · next hdirect hstack habsolute hpointer hlong =>
    simp [Mode.IsAddress, hdirect, hstack, habsolute, hpointer, hlong, hrelative] at hmode

/-- Without a label the text of an address is the literal of the operand bytes. -/
theorem addressText_unlabelled {target : Int} (htarget : s.operand? o true = some target)
    (hnonneg : 0 ≤ target) (hlabel : s.labels.text target = "") :
    s.addressText o (s.mode o) = .ok (literal (s.operandBytes o)) := by
  have hmode := isAddress_of_operand? htarget
  have hwidth : (s.mode o).shownBytes = (s.operandBytes o).length := by
    have hlength := length_operandBytes h hend
    have hshown := hmode.shownBytes
    omega
  have hcut (high : Int) := dollarHex_emod_eq_literal (s.operandBytes o) high
  unfold addressText
  rw [operandAddress_of_contains h, operandAddress_of_contains h, htarget, ok_bind]
  simp only [if_neg (Int.not_lt.2 hnonneg), hlabel, ne_eq, not_true_eq_false, if_false, hwidth]
  split
  · next h8 =>
    have hlength : s.length o = 2 := by rw [length, h8]; rfl
    have h0 := h.1
    rw [byteAt_of_contains ⟨by omega, by omega⟩, ← hcut 0,
      littleEndian_of_two h hend hlength]
    simp
  split
  · next h16 =>
    have hlength : s.length o = 3 := by rw [length, h16]; rfl
    have h0 := h.1
    rw [wordAt_of_le (by omega) (by omega), ← hcut 0,
      littleEndian_of_three h hend hlength]
    simp
  · next h8 h16 =>
    have hrelative : (s.mode o).isRelative = false :=
      Bool.eq_false_iff.2 fun hr => absurd (Mode.eq_of_isRelative hr) (not_or.2 ⟨h8, h16⟩)
    obtain ⟨bank, hbank⟩ := operand?_eq_littleEndian h hend hmode hrelative
    rw [hbank, hwidth, ← hcut bank]
    rfl

theorem addressText_eq_literal (hs : s.Valid) (hlabels : s.labels.isEmpty)
    (hbus : s.busAddress? o = some address) (hmode : (s.mode o).IsAddress) :
    s.addressText o (s.mode o) = .ok (literal (s.operandBytes o)) := by
  obtain ⟨target, htarget, hnonneg⟩ := operand?_nonneg hs hend hbus hmode
  exact addressText_unlabelled h hend htarget hnonneg (Std.TreeMap.getD_of_isEmpty hlabels)

section Texts

variable (hs : s.Valid) (hlabels : s.labels.isEmpty) (hbus : s.busAddress? o = some address)

include hs hlabels hbus

theorem firstOperand_eq_literal (hlength : 2 ≤ s.length o) :
    s.firstOperand o (s.mode o) = .ok ((s.mode o).firstLiteral (s.operandBytes o)) := by
  have h0 := h.1
  by_cases hmode : (s.mode o).IsAddress
  · have hmove : s.mode o ≠ .blockMove := fun hm => absurd (hm ▸ hmode) (by decide)
    rw [firstOperand_of_isAddress hmode, addressText_eq_literal h hend hs hlabels hbus hmode,
      Mode.firstLiteral, if_neg hmove]
  have hbyte : s.byteAt (o + 1) = .ok (s.peek (o + 1)) :=
    byteAt_of_contains ⟨by omega, by omega⟩
  rcases Mode.eq_of_not_isAddress hlength hmode with hm | hm | hm | hm
  · have htwo : s.length o = 2 := by rw [length, hm]; rfl
    simp [hm, firstOperand, Mode.firstLiteral, literal, hbyte, littleEndian,
      operandBytes_of_two h hend htwo]
  · have htwo : s.length o = 2 := by rw [length, hm]; rfl
    simp [hm, firstOperand, Mode.firstLiteral, literal, hbyte, littleEndian,
      operandBytes_of_two h hend htwo]
  · have hthree : s.length o = 3 := by rw [length, hm]; rfl
    rw [hm, Mode.firstLiteral, if_neg (by decide), literal, littleEndian_of_three h hend hthree,
      operandBytes_of_three h hend hthree, firstOperand, wordAt_of_le (by omega) (by omega)]
    rfl
  · have hthree : s.length o = 3 := by rw [length, hm]; rfl
    simp [hm, firstOperand, Mode.firstLiteral, literal, hbyte, littleEndian,
      operandBytes_of_three h hend hthree]

end Texts

theorem secondOperand_eq_literal :
    s.secondOperand o (s.mode o) = .ok ((s.mode o).secondLiteral (s.operandBytes o)) := by
  have h0 := h.1
  unfold secondOperand Mode.secondLiteral
  split
  · next hmove =>
    have hlength : s.length o = 3 := by rw [length, hmove]; rfl
    rw [byteAt_of_contains ⟨by omega, by omega⟩, if_pos hmove,
      operandBytes_of_three h hend hlength]
    simp [literal, littleEndian]
  · next hmove => 
    rw [if_neg hmove]
    rfl

end Operands

theorem mnemonicAt_eq_hint (h : s.Contains o) :
    s.mnemonicAt o true = .ok (Opcode.mnemonic (s.peek o) ++ (s.mode o).hint) := by
  unfold mnemonicAt
  rw [byteAt_of_contains h, modeAt_of_contains h]
  simp only [ok_bind, Bool.not_true, Bool.false_eq_true, if_false]
  cases s.mode o <;> simp [Mode.hint, Mode.isRelative, Mode.shownBytes, pure, Except.pure]

/-- The text of an instruction that ends in the image is its template filled in. -/
theorem instructionAt_eq_fill (h : s.Contains o) (hend : o + s.length o ≤ s.size)
    {first second : String} (hfirst : s.firstOperand o (s.mode o) = .ok first)
    (hsecond : s.secondOperand o (s.mode o) = .ok second) :
    s.instructionAt o = .ok ((s.mode o).template.fill
      (Opcode.mnemonic (s.peek o) ++ (s.mode o).hint) first second) := by
  have hfits : ¬ (s.size : Int) < o + s.length o := Int.not_lt.2 hend
  unfold instructionAt
  rw [modeAt_of_contains h, mnemonicAt_eq_hint h, truncatedAt_of_contains h, ok_bind, ok_bind,
    ok_bind]
  simp only [hfits, decide_false, Bool.false_eq_true, if_false]
  rw [hfirst, hsecond]
  rfl

/-- Without labels an instruction is spelled by its bytes. -/
theorem instructionAt_eq_spell (hs : s.Valid) (hlabels : s.labels.isEmpty)
    (hbus : s.busAddress? o = some address) (h : s.Contains o)
    (hend : o + s.length o ≤ s.size) :
    s.instructionAt o =
      .ok ((s.mode o).spell (Opcode.mnemonic (s.peek o)) (s.operandBytes o)) := by
  by_cases hlength : 2 ≤ s.length o
  · exact instructionAt_eq_fill h hend (firstOperand_eq_literal h hend hs hlabels hbus hlength)
      (secondOperand_eq_literal h hend)
  · -- Whatever is read as the operand, the template has no place for it.
    have hone : (s.mode o).length = 1 := by
      have hpos := s.length_pos o
      unfold length at hlength hpos
      omega
    obtain ⟨first, hfirst⟩ := firstOperand_succeeds h hend
    obtain ⟨second, hsecond⟩ := secondOperand_succeeds h hend
    rw [instructionAt_eq_fill h hend hfirst hsecond, Mode.spell,
      Mode.fill_of_length_one hone _ first second]

/-- The instruction at `o` has this text and these bytes, all of which the image has. -/
def Spelled (s : Store) (o : Int) (text : String) (bytes : List UInt8) : Prop :=
  s.instructionAt o = .ok text ∧ s.lengthAt o = .ok bytes.length ∧
    bytes = s.bytesFrom o bytes.length

theorem spelled_of_fits (hs : s.Valid) (hlabels : s.labels.isEmpty)
    (hbus : s.busAddress? o = some address) (h : s.Contains o)
    (hend : o + s.length o ≤ s.size) :
    s.Spelled o ((s.mode o).spell (Opcode.mnemonic (s.peek o)) (s.operandBytes o))
      (s.peek o :: s.operandBytes o) := by
  have hlength : (s.peek o :: s.operandBytes o).length = s.length o :=
    length_operandBytes h hend
  refine ⟨instructionAt_eq_spell hs hlabels hbus h hend, ?_, ?_⟩
  · rw [lengthAt_of_contains h, hlength]
  · rw [hlength, bytesFrom_length h]

/--
Without labels, complete instructions with bus addresses have the same text exactly if they have
the same bytes, whatever their stores, layouts and contexts are.
-/
theorem instructionAt_lossless (hs : s.Reachable) (ht : t.Reachable) (hlabels : s.labels.isEmpty)
    (hlabels' : t.labels.isEmpty) (hcomplete : s.truncatedAt o = .ok false)
    (hcomplete' : t.truncatedAt o' = .ok false) (hbus : s.busAddress? o ≠ none)
    (hbus' : t.busAddress? o' ≠ none) :
    ∃ text bytes text' bytes', s.Spelled o text bytes ∧ t.Spelled o' text' bytes' ∧
      (text = text' ↔ bytes = bytes') := by
  obtain ⟨address, hbus⟩ := Option.ne_none_iff_exists'.1 hbus
  obtain ⟨address', hbus'⟩ := Option.ne_none_iff_exists'.1 hbus'
  have h := (canonical?_of_busAddress? hbus).1
  have h' := (canonical?_of_busAddress? hbus').1
  have hend := fits_of_complete h hcomplete
  have hend' := fits_of_complete h' hcomplete'
  refine ⟨_, _, _, _, spelled_of_fits hs.valid hlabels hbus h hend,
    spelled_of_fits ht.valid hlabels' hbus' h' hend', ?_⟩
  have hlength := length_operandBytes h hend
  have hlength' := length_operandBytes h' hend'
  simp only [mode, modeUnder] at hlength hlength' ⊢
  exact Opcode.spell_eq_iff hlength hlength'

/-- A load at different addresses and from different data banks. -/
theorem instructionAt_lossless_bank :
    let s : Store := ⟨#[0xAD, 0x00, 0x80], .loRom, .slow, Array.replicate 3 {}, {}, {}⟩
    let fresh : Store := ⟨#[0xEA, 0xAD, 0x00, 0x80], .hiRom, .fast, Array.replicate 4 {}, {}, {}⟩
    let t : Store := (Project.apply { store := fresh } (.setDataBank 1 0x7E)).store
    s.operandAddress 0 true = .ok (some 0x8000) ∧ t.operandAddress 1 true = .ok (some 0x7E8000) ∧
      ∃ text, s.instructionAt 0 = .ok text ∧ t.instructionAt 1 = .ok text := by
  intro s fresh t
  have hcreate : Store.create #[0xAD, 0x00, 0x80] .loRom .slow = .ok s := rfl
  have hcreate' : Store.create #[0xEA, 0xAD, 0x00, 0x80] .hiRom .fast = .ok fresh := rfl
  have hs : s.Reachable := .create hcreate
  have ht : t.Reachable := .apply { store := fresh } _ (.create hcreate')
  have hcomplete : s.truncatedAt 0 = .ok false := by decide +kernel
  have hcomplete' : t.truncatedAt 1 = .ok false := by decide +kernel
  obtain ⟨text, bytes, text', bytes', hspelled, hspelled', hiff⟩ :=
    instructionAt_lossless hs ht (by decide +kernel) (by decide +kernel) hcomplete hcomplete'
      (by decide +kernel) (by decide +kernel)
  obtain ⟨htext, hlength, hbytes⟩ := hspelled
  obtain ⟨htext', hlength', hbytes'⟩ := hspelled'
  have hsame : bytes = bytes' := by
    have hthree : s.lengthAt 0 = .ok 3 := by decide +kernel
    have hthree' : t.lengthAt 1 = .ok 3 := by decide +kernel
    have hload : s.bytesFrom 0 3 = t.bytesFrom 1 3 := by decide +kernel
    rw [hbytes, hbytes', ← Except.ok.inj (hthree.symm.trans hlength),
      ← Except.ok.inj (hthree'.symm.trans hlength'), hload]
  refine ⟨by decide +kernel, by decide +kernel, text, htext, ?_⟩
  rw [htext', hiff.2 hsame]

end Store

end Disassembly

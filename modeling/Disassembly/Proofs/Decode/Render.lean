import Disassembly.Decode.Render
import Disassembly.Proofs.Decode.Operand

/-!
Every instruction of the image has a text. Its operand is read only if the instruction ends inside
the image, where all the reads succeed.
-/
namespace Disassembly.Store

variable {s : Store} {o : Int} {mode : Mode}

theorem mnemonicAt_succeeds (h : s.Contains o) (hint : Bool) :
    ∃ text, s.mnemonicAt o hint = .ok text := by
  unfold mnemonicAt
  rw [byteAt_of_contains h, modeAt_of_contains h, ok_bind]
  cases hint with
  | false => exact ⟨_, rfl⟩
  | true =>
    simp only [Bool.not_true, Bool.false_eq_true, if_false, ok_bind]
    split
    · exact ⟨_, rfl⟩
    · exact ⟨_, rfl⟩

section Operands

variable (h : s.Contains o) (hend : o + mode.length ≤ s.size)

include h hend

theorem byteAt_operand (hlength : 2 ≤ mode.length) :
    s.byteAt (o + 1) = .ok (s.peek (o + 1)) := by
  have h0 := h.1
  exact byteAt_of_contains ⟨by omega, by omega⟩

theorem wordAt_operand (hlength : 3 ≤ mode.length) :
    s.wordAt (o + 1) = .ok (s.word (o + 1)) := by
  have h0 := h.1
  exact wordAt_of_le (by omega) (by omega)

theorem addressText_succeeds : ∃ text, s.addressText o mode = .ok text := by
  unfold addressText
  rw [operandAddress_of_contains h, operandAddress_of_contains h, ok_bind]
  cases s.operand? o true with
  | none => exact ⟨_, rfl⟩
  | some address =>
    dsimp only
    split
    · exact ⟨_, rfl⟩
    · split
      · exact ⟨_, rfl⟩
      · -- Without a label the operand bytes are read once more.
        split
        · next hmode =>
          rw [byteAt_operand h hend (by rw [hmode]; decide)]
          exact ⟨_, rfl⟩
        · split
          · next hmode =>
            rw [wordAt_operand h hend (by rw [hmode]; decide)]
            exact ⟨_, rfl⟩
          · exact ⟨_, rfl⟩

theorem firstOperand_succeeds : ∃ text, s.firstOperand o mode = .ok text := by
  unfold firstOperand
  split
  · rw [byteAt_operand h hend (by decide)]
    exact ⟨_, rfl⟩
  · rw [byteAt_operand h hend (by decide)]
    exact ⟨_, rfl⟩
  · rw [byteAt_operand h hend (by decide)]
    exact ⟨_, rfl⟩
  · rw [wordAt_operand h hend (by decide)]
    exact ⟨_, rfl⟩
  · exact addressText_succeeds h hend

theorem secondOperand_succeeds : ∃ text, s.secondOperand o mode = .ok text := by
  have h0 := h.1
  unfold secondOperand
  split
  · rw [Mode.length] at hend
    rw [byteAt_of_contains ⟨by omega, by omega⟩]
    exact ⟨_, rfl⟩
  · exact ⟨_, rfl⟩

end Operands

theorem instructionAt_succeeds (h : s.Contains o) : ∃ text, s.instructionAt o = .ok text := by
  obtain ⟨mnemonic, hmnemonic⟩ := mnemonicAt_succeeds h true
  unfold instructionAt
  rw [modeAt_of_contains h, hmnemonic, truncatedAt_of_contains h, ok_bind, ok_bind, ok_bind]
  split
  · exact ⟨_, rfl⟩
  · next hfits =>
    have hend : o + (s.mode o).length ≤ s.size := by
      rw [decide_eq_true_eq] at hfits
      exact Int.not_lt.1 hfits
    obtain ⟨first, hfirst⟩ := firstOperand_succeeds h hend
    obtain ⟨second, hsecond⟩ := secondOperand_succeeds h hend
    rw [hfirst, hsecond]
    exact ⟨_, rfl⟩

end Disassembly.Store

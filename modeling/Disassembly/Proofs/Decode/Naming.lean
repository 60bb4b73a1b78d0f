import Disassembly.Proofs.Decode.Lossless
import Disassembly.Proofs.Project.Labels

/-!
Labels in instruction texts. The only label that a text depends on is the one of the address that
the operand designates, and that label takes the place of the literal: nothing else of the text
changes with the labels.
-/
namespace Disassembly.Store

variable {s : Store} {o a : Int} {changes : List (Int × String)}

/-- Label changes one after the other, by address and name; an empty name takes the label away. -/
def relabel (s : Store) : List (Int × String) → Store
  | [] => s
  | (address, name) :: rest => (s.putLabel address name).relabel rest

section Frame

theorem relabel_eq (s : Store) (changes : List (Int × String)) :
    s.relabel changes = { s with labels := (s.relabel changes).labels } := by
  induction changes generalizing s with
  | nil => rfl
  | cons c rest ih => exact ih (s.putLabel c.1 c.2)

theorem text_relabel (h : ∀ c ∈ changes, c.1 ≠ a) :
    (s.relabel changes).labels.text a = s.labels.text a := by
  induction changes generalizing s with
  | nil => rfl
  | cons c rest ih =>
    rw [List.forall_mem_cons] at h
    calc ((s.putLabel c.1 c.2).relabel rest).labels.text a
        = (s.putLabel c.1 c.2).labels.text a := ih h.2
      _ = s.labels.text a := by rw [putLabel, Notes.text_put, if_neg h.1]

section Labels

variable {labels : Notes}
  (h : ∀ a, s.operandAddress o true = .ok (some a) → 0 ≤ a → labels.text a = s.labels.text a)

include h

/-- Of all labels an operand shows the one of its own address at most. -/
theorem addressText_withLabels (mode : Mode) :
    ({ s with labels } : Store).addressText o mode = s.addressText o mode := by
  have hsame (resolve : Bool) : ({ s with labels } : Store).operandAddress o resolve =
      s.operandAddress o resolve := rfl
  unfold addressText
  rw [hsame, hsame]
  cases haddress : s.operandAddress o true with
  | error e => rfl
  | ok address =>
    cases address with
    | none => rfl
    | some a =>
      rw [ok_bind, ok_bind]
      dsimp only
      by_cases hneg : a < 0
      · rw [if_pos hneg, if_pos hneg]
      · rw [if_neg hneg, if_neg hneg, h a haddress (Int.not_lt.1 hneg)]
        rfl

theorem firstOperand_withLabels (mode : Mode) :
    ({ s with labels } : Store).firstOperand o mode = s.firstOperand o mode := by
  cases mode with
  | blockMove | constant8 | immediate8 | immediate16 => rfl
  | _ => exact addressText_withLabels h _

theorem instructionAt_withLabels :
    ({ s with labels } : Store).instructionAt o = s.instructionAt o := by
  have hfirst := firstOperand_withLabels h
  unfold instructionAt
  simp only [hfirst]
  rfl

end Labels

/-- Label changes leave a text alone unless one of them is at the address of its operand. -/
theorem instructionAt_relabel
    (h : ∀ c ∈ changes, s.operandAddress o true = .ok (some c.1) → c.1 < 0) :
    (s.relabel changes).instructionAt o = s.instructionAt o := by
  rw [relabel_eq]
  refine instructionAt_withLabels fun a haddress hnonneg => text_relabel ?_
  rintro c hc rfl
  have := h c hc haddress
  omega

end Frame

section Named

variable (h : s.Contains o) (haddress : s.operand? o true = some a)

include h haddress

theorem addressText_labelled (hnonneg : 0 ≤ a) (hname : s.labels.text a ≠ "") :
    s.addressText o (s.mode o) = .ok (s.labels.text a) := by
  unfold addressText
  rw [operandAddress_of_contains h, haddress, ok_bind]
  dsimp only
  rw [if_neg (Int.not_lt.2 hnonneg), if_pos hname]
  rfl

variable (hend : o + s.length o ≤ s.size)

include hend

/-- An operand that is an address fills the one place that its template has. -/
theorem instructionAt_of_addressText {text : String}
    (htext : s.addressText o (s.mode o) = .ok text) :
    s.instructionAt o = .ok ((s.mode o).template.fill
      (Opcode.mnemonic (s.peek o) ++ (s.mode o).hint) text "") := by
  have hmode := isAddress_of_operand? haddress
  have hmove : s.mode o ≠ .blockMove := fun hm => absurd (hm ▸ hmode) (by decide)
  have hsecond := secondOperand_eq_literal h hend
  rw [Mode.secondLiteral, if_neg hmove] at hsecond
  exact instructionAt_eq_fill h hend ((firstOperand_of_isAddress hmode).trans htext) hsecond

/-- A label at the address of the operand is shown in its place, and with no label the literal. -/
theorem instructionAt_putLabel (hnonneg : 0 ≤ a) (name : String) :
    (s.putLabel a name).instructionAt o = .ok ((s.mode o).template.fill
      (Opcode.mnemonic (s.peek o) ++ (s.mode o).hint)
      (if name = "" then literal (s.operandBytes o) else name) "") := by
  have htext : (s.putLabel a name).labels.text a = name := by
    rw [putLabel, Notes.text_put, if_pos rfl]
  -- Mode, bytes and address of the operand are those of `s`, whatever the labels are.
  apply instructionAt_of_addressText (s := s.putLabel a name) h haddress hend
  split
  · next hempty =>
    exact addressText_unlabelled (s := s.putLabel a name) h hend haddress hnonneg
      (htext.trans hempty)
  · next hname =>
    rw [addressText_labelled (s := s.putLabel a name) h haddress hnonneg (by rwa [htext]), htext]

end Named

/--
A label takes the place of the literal of its own address and touches nothing else. In a complete
instruction whose operand designates an address, a label there is written in place of the operand's
bytes, and taken away it leaves them; label changes at other addresses leave the text alone, and no
label changes at all reach block moves, constants, immediate operands and operands without address.
-/
theorem instructionAt_names_operand (h : s.Contains o) (hcomplete : s.truncatedAt o = .ok false) :
    ∃ mode mnemonic address, s.modeAt o = .ok mode ∧ s.mnemonicAt o true = .ok mnemonic ∧
      s.operandAddress o true = .ok address ∧
      (∀ a, address = some a → 0 ≤ a → ∀ name, name ≠ "" →
        (s.putLabel a name).instructionAt o = .ok (mode.template.fill mnemonic name "") ∧
        ((s.putLabel a name).putLabel a "").instructionAt o =
          .ok (mode.template.fill mnemonic (literal (s.operandBytes o)) "")) ∧
      (∀ changes : List (Int × String), (∀ c ∈ changes, address ≠ some c.1) →
        (s.relabel changes).instructionAt o = s.instructionAt o) ∧
      (mode = .blockMove ∨ mode = .constant8 ∨ mode = .immediate8 ∨ mode = .immediate16 ∨
          (∀ a, address = some a → a < 0) →
        ∀ changes, (s.relabel changes).instructionAt o = s.instructionAt o) := by
  have hend := fits_of_complete h hcomplete
  have haddress := operandAddress_of_contains h true
  refine ⟨s.mode o, _, s.operand? o true, modeAt_of_contains h, mnemonicAt_eq_hint h, haddress,
    ?_, ?_, ?_⟩
  · intro a ha hnonneg name hname
    have hnamed := instructionAt_putLabel h ha hend hnonneg name
    have htaken := instructionAt_putLabel (s := s.putLabel a name) h ha hend hnonneg ""
    rw [if_neg hname] at hnamed
    exact ⟨hnamed, htaken⟩
  · intro changes hchanges
    refine instructionAt_relabel fun c hc hdesignates => ?_
    rw [haddress] at hdesignates
    exact absurd (Except.ok.inj hdesignates) (hchanges c hc)
  · intro hmode changes
    have hnone : ∀ a, s.operand? o true = some a → a < 0 := by
      intro a ha
      have haddressMode := isAddress_of_operand? ha
      rcases hmode with hm | hm | hm | hm | hnegative
      · exact absurd (hm ▸ haddressMode) (by decide)
      · exact absurd (hm ▸ haddressMode) (by decide)
      · exact absurd (hm ▸ haddressMode) (by decide)
      · exact absurd (hm ▸ haddressMode) (by decide)
      · exact hnegative a ha
    refine instructionAt_relabel fun c hc hdesignates => ?_
    rw [haddress] at hdesignates
    exact hnone c.1 (Except.ok.inj hdesignates)

/-- A direct page read is named at its place in memory, not at the number that the operand shows. -/
theorem instructionAt_names_operand_directPage :
    let fresh : Store := ⟨#[0xA5, 0x10], .loRom, .slow, Array.replicate 2 {}, {}, {}⟩
    let s : Store := (Project.apply { store := fresh } (.setDirectPage 0 0x1200)).store
    s.Contains 0 ∧ s.truncatedAt 0 = .ok false ∧
      (s.putLabel 0x1210 "count").instructionAt 0 = .ok "LDA.B count" ∧
      ((s.putLabel 0x1210 "count").putLabel 0x1210 "").instructionAt 0 = .ok "LDA.B $10" ∧
      (s.relabel [(0x10, "low"), (-1, "none"), (0x1210 + 1, "next")]).instructionAt 0 =
        s.instructionAt 0 := by
  intro fresh s
  have hin : s.Contains 0 := by decide +kernel
  have hcomplete : s.truncatedAt 0 = .ok false := by decide +kernel
  have hdirect : s.modeAt 0 = .ok .direct := by decide +kernel
  have hhint : s.mnemonicAt 0 true = .ok "LDA.B" := by decide +kernel
  have hplace : s.operandAddress 0 true = .ok (some 0x1210) := by decide +kernel
  obtain ⟨mode, mnemonic, address, hmode, hmnemonic, haddress, hnames, hothers, -⟩ :=
    instructionAt_names_operand hin hcomplete
  obtain rfl := Except.ok.inj (hdirect.symm.trans hmode)
  obtain rfl := Except.ok.inj (hhint.symm.trans hmnemonic)
  obtain rfl := Except.ok.inj (hplace.symm.trans haddress)
  obtain ⟨hnamed, htaken⟩ := hnames 0x1210 rfl (by decide) "count" (by decide)
  refine ⟨hin, hcomplete, hnamed.trans (by decide +kernel), htaken.trans (by decide +kernel), ?_⟩
  exact hothers _ (by decide)

end Disassembly.Store

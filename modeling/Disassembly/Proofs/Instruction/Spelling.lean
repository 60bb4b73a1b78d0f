import Disassembly.Instruction.Table
import Disassembly.Proofs.Text.Hex
import Mathlib.Data.List.Nodup

/-!
How instructions are spelled. The text of an instruction is made of its mnemonic, the hint of its
mode and its operand bytes as literals. The three parts can be told apart again, and mnemonic and
mode determine the opcode, so different bytes have different texts.
-/
namespace Disassembly

section Literals

/-- Bytes as one number, the low one first. -/
def littleEndian : List UInt8 → Nat
  | [] => 0
  | b :: rest => b.toNat + 0x100 * littleEndian rest

/-- Bytes as one literal. -/
def literal (bytes : List UInt8) : String := Text.dollarHex (2 * bytes.length) (littleEndian bytes)

variable {a b : List UInt8}

theorem littleEndian_lt (bytes : List UInt8) :
    littleEndian bytes < 16 ^ (2 * bytes.length) := by
  induction bytes with
  | nil => simp [littleEndian]
  | cons b rest ih =>
    have hb := b.toNat_lt
    have hpow : 16 ^ (2 * (b :: rest).length) = 0x100 * 16 ^ (2 * rest.length) := by
      rw [List.length_cons, Nat.mul_add, Nat.pow_add, Nat.mul_comm]
    rw [hpow, littleEndian]
    omega

theorem littleEndian_inj (hlength : a.length = b.length) (h : littleEndian a = littleEndian b) :
    a = b := by
  induction a generalizing b with
  | nil => exact (List.length_eq_zero_iff.1 hlength.symm).symm
  | cons x xs ih =>
    cases b with
    | nil => simp at hlength
    | cons y ys =>
      have hx := x.toNat_lt
      have hy := y.toNat_lt
      rw [littleEndian, littleEndian] at h
      have hhead : x = y := UInt8.toNat_inj.1 (by omega)
      rw [hhead, ih (by simpa using hlength) (by omega)]

theorem literal_inj (hlength : a.length = b.length) (h : literal a = literal b) : a = b := by
  cases a with
  | nil => exact (List.length_eq_zero_iff.1 hlength.symm).symm
  | cons x xs =>
    apply littleEndian_inj hlength
    have hb := littleEndian_lt b
    unfold literal at h
    rw [← hlength] at h hb
    exact Text.dollarHex_inj (by simp) (littleEndian_lt _) hb h

/-- Literals of equally many bytes differ in their digits only. -/
theorem map_blank_literal (hlength : a.length = b.length) :
    (literal a).toList.map Text.blank = (literal b).toList.map Text.blank := by
  cases a with
  | nil => rw [List.length_eq_zero_iff.1 hlength.symm]
  | cons x xs =>
    have hpos : 0 < 2 * b.length := by simp [← hlength]
    unfold literal
    rw [Text.map_blank_dollarHex (by simp) (littleEndian_lt _),
      Text.map_blank_dollarHex hpos (littleEndian_lt b), hlength]

theorem length_literal (hlength : a.length = b.length) :
    (literal a).toList.length = (literal b).toList.length := by
  simpa using congrArg List.length (map_blank_literal hlength)

/-- A number that ends in the bytes, cut to their width. -/
theorem dollarHex_emod_eq_literal (bytes : List UInt8) (high : Int) :
    Text.dollarHex (2 * bytes.length) ((littleEndian bytes +
      high * (Nat.pow 0x100 bytes.length : Nat)) % (Nat.pow 0x100 bytes.length : Nat)) =
    literal bytes := by
  have hlt : littleEndian bytes < Nat.pow 0x100 bytes.length := by
    have h := littleEndian_lt bytes
    rwa [Nat.pow_mul] at h
  rw [Int.add_mul_emod_self_right, Int.emod_eq_of_lt (by omega) (by omega), literal]

end Literals

namespace Mode

variable {m n : Mode} {a b : List UInt8}

/-- What follows the mnemonic to tell the width of the operand. -/
def hint (m : Mode) : String :=
  if m = .constant8 ∨ m.isRelative then ""
  else
    match m.shownBytes with
    | 1 => ".B"
    | 2 => ".W"
    | 3 => ".L"
    | _ => ""

/-- The operand as one literal, or the first of the two bytes of a block move. -/
def firstLiteral (m : Mode) (operand : List UInt8) : String :=
  literal (if m = .blockMove then operand.take 1 else operand)

def secondLiteral (m : Mode) (operand : List UInt8) : String :=
  if m = .blockMove then literal (operand.drop 1) else ""

/-- The text of an instruction by its mode, its mnemonic and its operand bytes. -/
def spell (m : Mode) (mnemonic : String) (operand : List UInt8) : String :=
  m.template.fill (mnemonic ++ m.hint) (m.firstLiteral operand) (m.secondLiteral operand)

/-- The widths of the registers are settled. -/
def IsResolved (m : Mode) : Prop := m ≠ .immediateX ∧ m ≠ .immediateM

instance (m : Mode) : Decidable m.IsResolved := inferInstanceAs (Decidable (_ ∧ _))

theorem isResolved_resolve (x y : Bool) (m : Mode) : (m.resolve x y).IsResolved := by
  cases m <;> cases x <;> cases y <;> decide

/-- Every text begins with the mnemonic. -/
theorem spell_eq_append (h : m.IsResolved) (mnemonic : String) (operand : List UInt8) :
    m.spell mnemonic operand = mnemonic ++ m.spell "" operand := by
  cases m <;> simp [spell, template, Template.fill, Template.around, String.append_assoc]
  all_goals simp [IsResolved] at h

section Shape

/-- The text behind the mnemonic, with its digits blanked. -/
def shape (m : Mode) : List Char :=
  (m.spell "" (List.replicate (m.length - 1) 0)).toList.map Text.blank

theorem map_blank_fill (t : Template) {mnemonic first second first' second' : String}
    (hfirst : first.toList.map Text.blank = first'.toList.map Text.blank)
    (hsecond : second.toList.map Text.blank = second'.toList.map Text.blank) :
    (t.fill mnemonic first second).toList.map Text.blank =
      (t.fill mnemonic first' second').toList.map Text.blank := by
  simp only [Template.fill, String.toList_join, List.flatMap_map, List.map_flatMap]
  congr 1
  funext part
  cases part with
  | mnemonic => rfl
  | first => exact hfirst
  | second => exact hsecond
  | text s => rfl

theorem map_blank_spell (hlength : a.length + 1 = m.length) :
    (m.spell "" a).toList.map Text.blank = m.shape := by
  apply map_blank_fill
  · apply map_blank_literal
    split <;> simp <;> omega
  · unfold secondLiteral
    split
    · apply map_blank_literal
      simp
      omega
    · rfl

/-- The shape of a text determines the mode. -/
theorem shape_inj (hm : m.IsResolved) (hn : n.IsResolved) (h : m.shape = n.shape) : m = n := by
  have hnodup : ((all.filter IsResolved).map shape).Nodup := by decide +kernel
  have hall (k : Mode) (hk : k.IsResolved) : k ∈ all.filter IsResolved := by
    rw [List.mem_filter]
    exact ⟨by cases k <;> decide, decide_eq_true hk⟩
  exact List.inj_on_of_nodup_map hnodup (hall m hm) (hall n hn) h

end Shape

section Operand

theorem template_eq_around (h : m.IsResolved) (hlength : 2 ≤ m.length) (hmove : m ≠ .blockMove) :
    ∃ before after, m.template = .around before after := by
  cases m with
  | implied | accumulator => simp [length] at hlength
  | immediateX | immediateM => simp [IsResolved] at h
  | blockMove => exact absurd rfl hmove
  | _ => exact ⟨_, _, rfl⟩

/-- One literal can be cut out from what stands around it. -/
theorem spell_around_inj {before after : String} (htemplate : m.template = .around before after)
    (hmove : m ≠ .blockMove) (h : m.spell "" a = m.spell "" b) : literal a = literal b := by
  have hspell (c : List UInt8) : (m.spell "" c).toList =
      m.hint.toList ++ before.toList ++ (literal c).toList ++ after.toList := by
    simp [spell, htemplate, Template.around, Template.fill, firstLiteral, hmove]
  rw [← String.toList_inj, hspell, hspell] at h
  exact String.toList_inj.1 (List.append_cancel_left (List.append_cancel_right h))

/-- The two literals of a block move have the same width. -/
theorem spell_blockMove_inj (hlength : a.length = b.length)
    (h : blockMove.spell "" a = blockMove.spell "" b) : a = b := by
  have hspell (c : List UInt8) : (blockMove.spell "" c).toList =
      ' ' :: ((literal (c.take 1)).toList ++ ',' :: (literal (c.drop 1)).toList) := by
    simp [spell, template, Template.fill, hint, shownBytes, isRelative, firstLiteral, secondLiteral]
  have htake : (a.take 1).length = (b.take 1).length := by simp [hlength]
  have hdrop : (a.drop 1).length = (b.drop 1).length := by simp [hlength]
  rw [← String.toList_inj, hspell, hspell] at h
  obtain ⟨hfirst, hsecond⟩ := List.append_inj (List.tail_eq_of_cons_eq h) (length_literal htake)
  rw [← List.take_append_drop 1 a, ← List.take_append_drop 1 b,
    literal_inj htake (String.toList_inj.1 hfirst),
    literal_inj hdrop (String.toList_inj.1 (List.tail_eq_of_cons_eq hsecond))]

/-- In a given mode the text determines the operand. -/
theorem spell_operand_inj (hm : m.IsResolved) (ha : a.length + 1 = m.length)
    (hb : b.length + 1 = m.length) (h : m.spell "" a = m.spell "" b) : a = b := by
  have hlength : a.length = b.length := by omega
  by_cases hmove : m = .blockMove
  · subst hmove
    exact spell_blockMove_inj hlength h
  cases a with
  | nil => exact (List.length_eq_zero_iff.1 hlength.symm).symm
  | cons x xs =>
    obtain ⟨before, after, htemplate⟩ := template_eq_around hm (by simp [← ha]) hmove
    exact literal_inj hlength (spell_around_inj htemplate hmove h)

/-- An instruction of one byte shows no literal. -/
theorem fill_of_length_one (hlength : m.length = 1) (mnemonic : String)
    (first second first' second' : String) :
    m.template.fill mnemonic first second = m.template.fill mnemonic first' second' := by
  cases m with
  | implied | accumulator | immediateX | immediateM => rfl
  | _ => simp [length] at hlength

end Operand

/-- The mode up to the width of an immediate operand. -/
def anyWidth : Mode → Mode
  | immediate16 | immediateX | immediateM => immediate8
  | m => m

theorem anyWidth_resolve (x y : Bool) (m : Mode) : (m.resolve x y).anyWidth = m.anyWidth := by
  cases m <;> cases x <;> cases y <;> rfl

/-- The length of an instruction tells its width. -/
theorem resolve_eq_of_length {x y x' y' : Bool}
    (h : (m.resolve x y).length = (m.resolve x' y').length) :
    m.resolve x y = m.resolve x' y' := by
  cases m with
  | immediateX => cases x <;> cases x' <;> simp_all [resolve, length]
  | immediateM => cases y <;> cases y' <;> simp_all [resolve, length]
  | _ => rfl

end Mode

namespace Opcode

variable {op op' : UInt8}

theorem lt_length_rows (op : UInt8) : op.toNat < instructionRows.toList.length := by
  have hlength : instructionRows.toList.length = 256 := by decide +kernel
  rw [hlength]
  exact op.toNat_lt

theorem row_eq_getElem (h : op.toNat < instructionRows.toList.length) :
    row op = instructionRows.toList[op.toNat] := by
  have hlt : op.toNat < instructionRows.size := h
  simp [row, Array.getD, hlt]

theorem length_mnemonic (op : UInt8) : (mnemonic op).toList.length = 3 := by
  have hall : ∀ row ∈ instructionRows.toList, row.1.toList.length = 3 := by decide +kernel
  rw [mnemonic, row_eq_getElem (lt_length_rows op)]
  exact hall _ (List.getElem_mem _)

/-- The opcodes of one mode have different mnemonics. -/
theorem nodup_mnemonics : ∀ m ∈ Mode.all,
    ((instructionRows.toList.filter fun row => row.2.anyWidth = m).map (·.1)).Nodup := by
  decide +kernel

theorem mnemonic_ne_of_lt (hlt : op.toNat < op'.toNat)
    (hmode : (mode op).anyWidth = (mode op').anyWidth) : mnemonic op ≠ mnemonic op' := by
  have hall (m : Mode) : m ∈ Mode.all := by cases m <;> decide
  have hrows := nodup_mnemonics (mode op').anyWidth (hall _)
  rw [List.Nodup, List.pairwise_map, List.pairwise_filter, List.pairwise_iff_getElem] at hrows
  have hne := hrows op.toNat op'.toNat (lt_length_rows op) (lt_length_rows op') hlt
  rw [← row_eq_getElem, ← row_eq_getElem] at hne
  exact hne (decide_eq_true hmode) (decide_eq_true rfl)

theorem eq_of_mnemonic (hmnemonic : mnemonic op = mnemonic op')
    (hmode : (mode op).anyWidth = (mode op').anyWidth) : op = op' := by
  rcases Nat.lt_trichotomy op.toNat op'.toNat with hlt | heq | hgt
  · exact absurd hmnemonic (mnemonic_ne_of_lt hlt hmode)
  · exact UInt8.toNat_inj.1 heq
  · exact absurd hmnemonic.symm (mnemonic_ne_of_lt hgt hmode.symm)

/-- The text of an instruction determines its bytes, and its bytes with their number its text. -/
theorem spell_eq_iff {x y x' y' : Bool} {a b : List UInt8}
    (ha : a.length + 1 = ((mode op).resolve x y).length)
    (hb : b.length + 1 = ((mode op').resolve x' y').length) :
    ((mode op).resolve x y).spell (mnemonic op) a =
        ((mode op').resolve x' y').spell (mnemonic op') b ↔
      op :: a = op' :: b := by
  have hm := Mode.isResolved_resolve x y (mode op)
  have hm' := Mode.isResolved_resolve x' y' (mode op')
  constructor
  · intro h
    rw [Mode.spell_eq_append hm, Mode.spell_eq_append hm'] at h
    have hchars := congrArg String.toList h
    rw [String.toList_append, String.toList_append] at hchars
    obtain ⟨hmnemonic, hrest⟩ := List.append_inj hchars
      ((length_mnemonic op).trans (length_mnemonic op').symm)
    have hshape := congrArg (List.map Text.blank) hrest
    rw [Mode.map_blank_spell ha, Mode.map_blank_spell hb] at hshape
    have hmode := Mode.shape_inj hm hm' hshape
    have hop : op = op' := by
      apply eq_of_mnemonic (String.toList_inj.1 hmnemonic)
      rw [← Mode.anyWidth_resolve x y, hmode, Mode.anyWidth_resolve]
    rw [← hmode] at hrest hb
    rw [hop, Mode.spell_operand_inj hm ha hb (String.toList_inj.1 hrest)]
  · intro h
    obtain ⟨rfl, rfl⟩ := List.cons.inj h
    rw [Mode.resolve_eq_of_length (ha.symm.trans hb)]

end Opcode

end Disassembly

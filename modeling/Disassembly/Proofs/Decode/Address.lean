import Disassembly.Proofs.Decode.Operand
import Disassembly.Proofs.Layout.Neighbours
import Disassembly.Proofs.Store.Reachable

/-!
The addresses that operands designate. A displacement counts from the address behind its instruction
and stays in the bank of that address; this is the bank of the instruction unless the instruction
reaches the end of it. Operand addresses are bus addresses but in two places where the layout gives
none to count from: a jump within its bank that stands outside the layout, and a branch that ends
the image at the top of the bus.
-/
namespace Disassembly

/-- Signed numbers are balanced remainders. -/
theorem signed_eq_bmod {bytes n : Nat} (hbytes : 1 ≤ bytes) (hn : n < Nat.pow 0x100 bytes) :
    signed bytes n = Int.bmod n (Nat.pow 0x100 bytes) := by
  obtain ⟨k, rfl⟩ := Nat.exists_eq_add_of_le' hbytes
  have hpow : Nat.pow 0x100 (k + 1) = Nat.pow 0x100 k * 0x100 := rfl
  unfold signed Int.bmod
  rw [hpow] at hn
  rw [hpow, Nat.add_sub_cancel, Int.emod_eq_of_lt (by omega) (by omega)]
  split
  · rw [if_pos (by omega)]
  · rw [if_neg (by omega)]

theorem Mode.kind_of_isAbsolute {m : Mode} (h : m.isAbsolute) :
    ¬ m.isDirectPage ∧ ¬ m.isStackRelative := by
  revert h
  cases m <;> decide

/-- Opcodes that stay in their bank have a word as operand. -/
theorem Opcode.isAbsolute_of_inProgramBank {op : UInt8} (h : op ∈ inProgramBank) (x m : Bool) :
    ((mode op).resolve x m).isAbsolute := by
  have hall : ∀ op ∈ inProgramBank, ∀ x m, ((mode op).resolve x m).isAbsolute := by decide +kernel
  exact hall op h x m

namespace Store

variable {s : Store} {o a : Int} {n : Nat}

section Relative

/-- The signed operand of an instruction of relative mode. -/
def displacement (s : Store) (o : Int) (mode : Mode) : Int :=
  if mode = .relative8 then Int.bmod (s.peek (o + 1)).toNat 0x100
  else Int.bmod (s.word (o + 1)) 0x10000

theorem addressBehind?_eq (hbus : s.busAddress? o = some a) :
    s.addressBehind? o n = some (s.addressAfter o a n) := by
  unfold addressBehind? addressAfter
  cases s.busAddress? (o + n) with
  | none => simp [hbus]
  | some next => rfl

theorem operand?_of_isRelative (hrel : (s.mode o).isRelative) (hend : o + s.length o ≤ s.size)
    (resolve : Bool) :
    s.operand? o resolve =
      s.relativeTarget? o (s.mode o).length (s.displacement o (s.mode o)) := by
  have hfits : ¬ (s.size : Int) < o + (s.mode o).length := Int.not_lt.2 hend
  have hbyte := signed_eq_bmod (Nat.le_refl 1) (s.peek (o + 1)).toNat_lt
  have hword := signed_eq_bmod (show 1 ≤ 2 by decide) (s.word_lt (o + 1))
  unfold operand? displacement
  rw [if_neg hfits]
  rcases Mode.eq_of_isRelative hrel with hm | hm
  all_goals
    simp [hm, Mode.isDirectPage, Mode.isStackRelative, Mode.isAbsolute, Mode.isPointer,
      Mode.isLong, Mode.length, hbyte, hword]

/-- A displacement stays in the bank of the address behind the instruction. -/
theorem operandAddress_of_isRelative (hbus : s.busAddress? o = some a)
    (hrel : (s.mode o).isRelative) (hend : o + s.length o ≤ s.size) (resolve : Bool) :
    s.operandAddress o resolve =
      .ok (some (s.addressAfter o a (s.mode o).length / 0x10000 * 0x10000 +
        (s.addressAfter o a (s.mode o).length + s.displacement o (s.mode o)) % 0x10000)) := by
  rw [operandAddress_of_contains (canonical?_of_busAddress? hbus).1,
    operand?_of_isRelative hrel hend, relativeTarget?, addressBehind?_eq hbus, Option.map_some]

end Relative

section Images

variable {layout : Layout} {size place : Nat} {code : List UInt8} {i : Int}

theorem mode_codeStore (hplace : place ≤ i) (hi : i < size) :
    (codeStore layout size place code).mode i =
      (Opcode.mode (code.getD (i.toNat - place) 0)).resolve false false := by
  have hcreate : Store.create (codeImage size place code) layout .slow =
      .ok (codeStore layout size place code) := create_codeStore (by omega)
  rw [mode, modeUnder, peek_codeStore hplace hi, cell_create hcreate]

/-- A branch that stands alone in such an image. -/
theorem branch_codeStore (layout : Layout) (size place : Nat) (d : UInt8) {o : Int}
    (ho : o = place) (hend : o + 2 ≤ size) :
    (codeStore layout size place [0x80, d]).mode o = .relative8 ∧
      o + (codeStore layout size place [0x80, d]).length o ≤
        (codeStore layout size place [0x80, d]).size ∧
      (codeStore layout size place [0x80, d]).displacement o .relative8 =
        Int.bmod d.toNat 0x100 := by
  have hmode : (codeStore layout size place [0x80, d]).mode o = .relative8 := by
    have hfirst : o.toNat - place = 0 := by omega
    have hop : Opcode.mode 0x80 = .relative8 := by decide +kernel
    rw [mode_codeStore (by omega) (by omega), hfirst, List.getD_cons_zero, hop]
    rfl
  have hsecond : (o + 1).toNat - place = 1 := by omega
  refine ⟨hmode, ?_, ?_⟩
  · rw [length, hmode, size_codeStore]
    exact hend
  · rw [displacement, if_pos rfl, peek_codeStore (by omega) (by omega), hsecond]
    rfl

end Images

/--
A complete branch counts its displacement from the address behind it. As long as the branch ends
before its bank does, it stays in its bank, and with a displacement of minus its length it leads to
itself. A branch that reaches the end of its bank is counted from the next byte of the image, or
from the next address if that byte has none, and stays in the bank that it finds there, which is
another.
-/
theorem operandAddress_relative {m : Mode} (hm : s.modeAt o = .ok m) (hrel : m.isRelative)
    (hcomplete : s.truncatedAt o = .ok false) (hbus : s.busAddress? o = some a) (resolve : Bool) :
    let d := s.displacement o m
    let e := (s.busAddress? (o + m.length)).getD (a + m.length)
    (a % 0x10000 + m.length < 0x10000 →
      s.operandAddress o resolve =
          .ok (some (a / 0x10000 * 0x10000 + (a + m.length + d) % 0x10000)) ∧
        (d = -m.length → s.operandAddress o resolve = .ok (some a))) ∧
      (0x10000 ≤ a % 0x10000 + m.length →
        s.operandAddress o resolve =
            .ok (some (e / 0x10000 * 0x10000 + (e + d) % 0x10000)) ∧
          e / 0x10000 ≠ a / 0x10000) := by
  intro d e
  have ho := (canonical?_of_busAddress? hbus).1
  obtain rfl := Except.ok.inj ((modeAt_of_contains ho).symm.trans hm)
  have haddress := operandAddress_of_isRelative hbus hrel (fits_of_complete ho hcomplete) resolve
  refine ⟨fun hin => ?_, fun hend => ⟨haddress, bank_addressAfter_ne hbus hend⟩⟩
  have hbank : (a + (s.mode o).length) / 0x10000 = a / 0x10000 := by omega
  rw [addressAfter_of_lt hbus hin, hbank] at haddress
  refine ⟨haddress, fun hself => ?_⟩
  have hback : a / 0x10000 * 0x10000 +
      (a + (s.mode o).length + s.displacement o (s.mode o)) % 0x10000 = a := by omega
  rw [haddress, hback]

/-- A long branch to itself that ends the image. -/
theorem operandAddress_relative_self :
    let s : Store := ⟨#[0x82, 0xFD, 0xFF], .loRom, .slow, Array.replicate 3 {}, {}, {}⟩
    s.modeAt 0 = .ok .relative16 ∧ s.truncatedAt 0 = .ok false ∧ s.busAddress? 0 = some 0x8000 ∧
      s.displacement 0 .relative16 = -3 ∧ s.operandAddress 0 true = .ok (some 0x8000) := by
  intro s
  have ho : s.Contains 0 := by decide
  have hmode : s.mode 0 = .relative16 := by decide +kernel
  have hm : s.modeAt 0 = .ok .relative16 := by rw [modeAt_of_contains ho, hmode]
  have hcomplete : s.truncatedAt 0 = .ok false := by
    rw [truncatedAt_of_contains ho, length, hmode]
    rfl
  have hbus : s.busAddress? 0 = some 0x8000 := by decide
  have hself : s.displacement 0 .relative16 = -3 := by decide
  have hbranch := operandAddress_relative hm rfl hcomplete hbus true
  exact ⟨hm, hcomplete, hbus, hself, (hbranch.1 (by decide)).2 hself⟩

/-- A branch to itself in the last two bytes of a bank is found to lead into the next bank. -/
theorem not_operandAddress_own_bank :
    ¬ ∀ (s : Store) (o a : Int) (m : Mode), s.modeAt o = .ok m → m.isRelative →
      s.truncatedAt o = .ok false → s.busAddress? o = some a →
      s.operandAddress o true =
        .ok (some (a / 0x10000 * 0x10000 + (a + m.length + s.displacement o m) % 0x10000)) := by
  intro h
  let s := codeStore .loRom 0x10000 0x7FFE [0x80, 0xFE]
  have ho : s.Contains 0x7FFE := contains_codeStore.2 (by decide)
  obtain ⟨hmode, hend, hvalue⟩ := branch_codeStore .loRom 0x10000 0x7FFE 0xFE
    (show (0x7FFE : Int) = _ by decide) (by decide)
  have hdisplacement : s.displacement 0x7FFE .relative8 = -2 := hvalue.trans (by decide)
  have hbus : s.busAddress? 0x7FFE = some 0xFFFE :=
    (busAddress?_codeStore (by decide) (by decide)).trans (by decide)
  have hnext : s.addressAfter 0x7FFE 0xFFFE 2 = 0x18000 := by
    have hbehind : s.busAddress? 0x8000 = some 0x18000 :=
      (busAddress?_codeStore (by decide) (by decide)).trans (by decide)
    rw [addressAfter, show (0x7FFE : Int) + (2 : Nat) = 0x8000 by decide, hbehind, Option.getD_some]
  have hleaves : s.operandAddress 0x7FFE true = .ok (some 0x17FFE) := by
    rw [operandAddress_of_isRelative hbus (by rw [hmode]; rfl) hend, hmode, hdisplacement,
      Mode.length, hnext]
    rfl
  have hstays := h s 0x7FFE 0xFFFE .relative8 (by rw [modeAt_of_contains ho, hmode]) rfl
    (by rw [truncatedAt_of_contains ho, decide_eq_false (Int.not_lt.2 hend)]) hbus
  rw [hleaves, hdisplacement] at hstays
  exact absurd (Option.some.inj (Except.ok.inj hstays)) (by decide)

section Range

/-- A jump or call within its bank that stands where the layout has no addresses. -/
def UnplacedJump (s : Store) (o : Int) : Prop :=
  s.peek o ∈ Opcode.inProgramBank ∧ o + s.length o ≤ s.size ∧ s.busAddress? o = none

/-- A branch that ends at the top of the bus, with no addressed byte of the image behind it. -/
def RunsOver (s : Store) (o : Int) : Prop :=
  (s.mode o).isRelative ∧ o + s.length o ≤ s.size ∧
    ∃ a, s.busAddress? o = some a ∧ s.busAddress? (o + s.length o) = none ∧
      0x1000000 ≤ a + s.length o

theorem operand?_of_isAbsolute (habsolute : (s.mode o).isAbsolute)
    (hend : o + s.length o ≤ s.size) (resolve : Bool) :
    s.operand? o resolve = some ((if Opcode.inProgramBank.contains (s.peek o) then s.programBank o
      else (s.cell o).context.dataBank) * 0x10000 + s.word (o + 1)) := by
  have hfits : ¬ (s.size : Int) < o + (s.mode o).length := Int.not_lt.2 hend
  obtain ⟨hdirect, hstack⟩ := Mode.kind_of_isAbsolute habsolute
  unfold operand?
  rw [if_neg hfits, if_neg hdirect, if_neg hstack, if_pos habsolute]

theorem operand?_of_unplacedJump (h : s.UnplacedJump o) (resolve : Bool) :
    s.operand? o resolve = some ((s.word (o + 1) : Int) - 0x10000) := by
  obtain ⟨hop, hend, hbus⟩ := h
  have habsolute : (s.mode o).isAbsolute := by
    rw [mode, modeUnder]
    exact Opcode.isAbsolute_of_inProgramBank hop _ _
  have hbank : s.programBank o = -1 := by
    rw [programBank, hbus]
    rfl
  have hvalue : -1 * 0x10000 + (s.word (o + 1) : Int) = s.word (o + 1) - 0x10000 := by omega
  rw [operand?_of_isAbsolute habsolute hend, if_pos (List.contains_iff_mem.2 hop), hbank, hvalue]

theorem operand?_of_runsOver (h : s.RunsOver o) (resolve : Bool) :
    ∃ address, s.operand? o resolve = some address ∧ 0x1000000 ≤ address := by
  obtain ⟨hrel, hend, a, hbus, hnext, htop⟩ := h
  have hafter : s.addressAfter o a (s.mode o).length = a + s.length o := by
    rw [addressAfter, show s.busAddress? (o + (s.mode o).length) = none from hnext,
      Option.getD_none]
    rfl
  rw [operand?_of_isRelative hrel hend, relativeTarget?, addressBehind?_eq hbus, Option.map_some,
    hafter]
  exact ⟨_, rfl, by omega⟩

theorem relativeTarget?_bounds {displacement address : Int}
    (hover : ∀ a, s.busAddress? o = some a → s.busAddress? (o + n) = none → a + n < 0x1000000)
    (h : s.relativeTarget? o n displacement = some address) :
    0 ≤ address ∧ address ≤ 0xFFFFFF := by
  obtain ⟨behind, hbehind, rfl⟩ := Option.map_eq_some_iff.1 h
  have hbounds : 0 ≤ behind ∧ behind < 0x1000000 := by
    unfold addressBehind? at hbehind
    split at hbehind
    · next next hnext =>
      obtain rfl := Option.some.inj hbehind
      exact busAddress?_bounds hnext
    · next hnone =>
      obtain ⟨a, hbus, rfl⟩ := Option.map_eq_some_iff.1 hbehind
      have hlow := (busAddress?_bounds hbus).1
      exact ⟨by omega, hover a hbus hnone⟩
  omega

/-- An operand address lies in the first bank, or it takes its bank from a register or from the
instruction, from the operand itself, or from the address behind the instruction. -/
theorem operand?_cases {resolve : Bool} {address : Int} (h : s.operand? o resolve = some address) :
    o + s.length o ≤ s.size ∧
      (0 ≤ address ∧ address < 0x10000 ∨
        address = (if Opcode.inProgramBank.contains (s.peek o) then s.programBank o
          else (s.cell o).context.dataBank) * 0x10000 + s.word (o + 1) ∨
        address = s.word (o + 1) + (s.peek (o + 1 + 2)).toNat * 0x10000 ∨
        (s.mode o).isRelative ∧
          s.relativeTarget? o (s.length o) (s.displacement o (s.mode o)) = some address) := by
  have hlow := (s.peek (o + 1)).toNat_lt
  have hword := s.word_lt (o + 1)
  by_cases hfits : (s.size : Int) < o + (s.mode o).length
  · have hnone : s.operand? o resolve = none := if_pos hfits
    rw [hnone] at h
    cases h
  refine ⟨Int.not_lt.1 hfits, ?_⟩
  by_cases hrel : (s.mode o).isRelative
  · rw [operand?_of_isRelative hrel (Int.not_lt.1 hfits)] at h
    exact Or.inr (Or.inr (Or.inr ⟨hrel, h⟩))
  have h8 : s.mode o ≠ .relative8 := fun hm => hrel (by rw [hm]; rfl)
  have h16 : s.mode o ≠ .relative16 := fun hm => hrel (by rw [hm]; rfl)
  unfold operand? at h
  simp only [if_neg hfits, if_neg h8, if_neg h16] at h
  by_cases hdirect : (s.mode o).isDirectPage = true
  · rw [if_pos hdirect] at h
    obtain rfl := Option.some.inj h
    left
    split <;> omega
  rw [if_neg hdirect] at h
  by_cases hstack : (s.mode o).isStackRelative = true
  · rw [if_pos hstack] at h
    obtain rfl := Option.some.inj h
    left
    omega
  rw [if_neg hstack] at h
  by_cases habsolute : (s.mode o).isAbsolute = true
  · rw [if_pos habsolute] at h
    exact Or.inr (Or.inl (Option.some.inj h).symm)
  rw [if_neg habsolute] at h
  by_cases hpointer : (s.mode o).isPointer = true
  · rw [if_pos hpointer] at h
    obtain rfl := Option.some.inj h
    left
    omega
  rw [if_neg hpointer] at h
  by_cases hlong : (s.mode o).isLong = true
  · rw [if_pos hlong] at h
    obtain rfl := Option.some.inj h
    exact Or.inr (Or.inr (Or.inl (by omega)))
  · rw [if_neg hlong] at h
    cases h

theorem operand?_bounds (hs : s.Valid) (hjump : ¬ s.UnplacedJump o) (hover : ¬ s.RunsOver o)
    {resolve : Bool} {address : Int} (h : s.operand? o resolve = some address) :
    0 ≤ address ∧ address ≤ 0xFFFFFF := by
  have hcontext := Context.masked_eq_iff.1 (hs.masked o)
  have hword := s.word_lt (o + 1)
  have hhigh := (s.peek (o + 1 + 2)).toNat_lt
  obtain ⟨hend, hfirst | rfl | rfl | ⟨hrel, htarget⟩⟩ := operand?_cases h
  · omega
  · split
    · next hop =>
      cases hbus : s.busAddress? o with
      | none => exact absurd ⟨List.contains_iff_mem.1 hop, hend, hbus⟩ hjump
      | some a =>
        have hbounds := busAddress?_bounds hbus
        simp only [programBank, hbus, Option.getD_some]
        omega
    · omega
  · omega
  · refine relativeTarget?_bounds (fun a hbus hnone => ?_) htarget
    exact Int.not_le.1 fun htop => hover ⟨hrel, hend, a, hbus, hnone, htop⟩

/--
The operand of an instruction in the image designates an address of 24 bits or none, unless the
layout does not say where to count from. A jump within its bank that has no address gets a number
below zero, and a branch that ends at the top of the bus with nothing behind it gets one above.
-/
theorem operandAddress_range (hs : s.Reachable) (ho : s.Contains o) (resolve : Bool) :
    ∃ address?, s.operandAddress o resolve = .ok address? ∧
      (s.UnplacedJump o → address? = some ((s.word (o + 1) : Int) - 0x10000)) ∧
      (s.RunsOver o → ∃ address, address? = some address ∧ 0x1000000 ≤ address) ∧
      (¬ s.UnplacedJump o → ¬ s.RunsOver o →
        ∀ address, address? = some address → 0 ≤ address ∧ address ≤ 0xFFFFFF) :=
  ⟨s.operand? o resolve, operandAddress_of_contains ho resolve,
    fun hjump => operand?_of_unplacedJump hjump resolve,
    fun hover => operand?_of_runsOver hover resolve,
    fun hjump hover _ h => operand?_bounds hs.valid hjump hover h⟩

/-- A load from the last byte of the bus. -/
theorem operandAddress_range_top :
    let fresh : Store := ⟨#[0xAD, 0xFF, 0xFF], .hiRom, .fast, Array.replicate 3 {}, {}, {}⟩
    let s : Store := (Project.apply { store := fresh } (.setDataBank 0 (-1))).store
    s.Reachable ∧ s.Contains 0 ∧ ¬ s.UnplacedJump 0 ∧ ¬ s.RunsOver 0 ∧
      s.operandAddress 0 false = .ok (some 0xFFFFFF) ∧
      ∀ address, s.operandAddress 0 false = .ok (some address) →
        0 ≤ address ∧ address ≤ 0xFFFFFF := by
  intro fresh s
  have hcreate : Store.create #[0xAD, 0xFF, 0xFF] .hiRom .fast = .ok fresh := rfl
  have hs : s.Reachable := .apply { store := fresh } _ (.create hcreate)
  have ho : s.Contains 0 := by decide +kernel
  have hop : s.peek 0 ∉ Opcode.inProgramBank := by decide +kernel
  have hmode : (s.mode 0).isRelative ≠ true := by decide +kernel
  have hjump : ¬ s.UnplacedJump 0 := fun h => hop h.1
  have hover : ¬ s.RunsOver 0 := fun h => hmode h.1
  have hvalue : s.operand? 0 false = some 0xFFFFFF := by decide +kernel
  obtain ⟨address?, haddress, -, -, hbounds⟩ := operandAddress_range hs ho false
  refine ⟨hs, ho, hjump, hover, ?_, ?_⟩
  · rw [operandAddress_of_contains ho, hvalue]
  · intro address h
    exact hbounds hjump hover address (Except.ok.inj (haddress.symm.trans h))

/-- A jump behind the four megabytes that the layout shows, and a branch in their last two bytes. -/
theorem operandAddress_leaves_bus :
    let s := codeStore .loRom 0x400003 0x400000 [0x4C, 0x00, 0x90]
    let t := codeStore .loRom 0x400000 0x3FFFFE [0x80, 0x00]
    (s.Reachable ∧ s.Contains 0x400000 ∧ s.operandAddress 0x400000 true = .ok (some (-0x7000))) ∧
      t.Reachable ∧ t.Contains 0x3FFFFE ∧
        t.operandAddress 0x3FFFFE true = .ok (some 0x1000000) := by
  intro s t
  have hs : s.Contains 0x400000 := contains_codeStore.2 (by decide)
  have ht : t.Contains 0x3FFFFE := contains_codeStore.2 (by decide)
  refine ⟨⟨.create (create_codeStore (by decide)), hs, ?_⟩,
    .create (create_codeStore (by decide)), ht, ?_⟩
  · have hpeek : s.peek 0x400000 = 0x4C ∧ s.peek 0x400001 = 0x00 ∧ s.peek 0x400002 = 0x90 :=
      ⟨peek_codeStore (by decide) (by decide), peek_codeStore (by decide) (by decide),
        peek_codeStore (by decide) (by decide)⟩
    have hmode : s.mode 0x400000 = .absolute :=
      (mode_codeStore (by decide) (by decide)).trans (by decide +kernel)
    have hend : (0x400000 : Int) + s.length 0x400000 ≤ s.size := by
      rw [length, hmode, size_codeStore]
      decide
    have hbus : s.busAddress? 0x400000 = none :=
      (busAddress?_codeStore (by decide) (by decide)).trans (by decide)
    have hword : s.word (0x400000 + 1) = 0x9000 := by
      change (s.peek 0x400001).toNat + (s.peek 0x400002).toNat * 0x100 = 0x9000
      rw [hpeek.2.1, hpeek.2.2]
      rfl
    have hjump : s.UnplacedJump 0x400000 := ⟨by rw [hpeek.1]; decide, hend, hbus⟩
    rw [operandAddress_of_contains hs, operand?_of_unplacedJump hjump, hword]
    rfl
  · obtain ⟨hmode, hend, hvalue⟩ := branch_codeStore .loRom 0x400000 0x3FFFFE 0x00
      (show (0x3FFFFE : Int) = _ by decide) (by decide)
    have hdisplacement : t.displacement 0x3FFFFE .relative8 = 0 := hvalue.trans (by decide)
    have hbus : t.busAddress? 0x3FFFFE = some 0xFFFFFE :=
      (busAddress?_codeStore (by decide) (by decide)).trans (by decide)
    have hnext : t.addressAfter 0x3FFFFE 0xFFFFFE 2 = 0x1000000 := by
      have hbehind : t.busAddress? 0x400000 = none :=
        if_neg fun h => absurd (contains_codeStore.1 h) (by decide)
      rw [addressAfter, show (0x3FFFFE : Int) + (2 : Nat) = 0x400000 by decide, hbehind,
        Option.getD_none]
      rfl
    rw [operandAddress_of_isRelative hbus (by rw [hmode]; rfl) hend, hmode, hdisplacement,
      Mode.length, hnext]
    rfl

end Range

end Store

end Disassembly

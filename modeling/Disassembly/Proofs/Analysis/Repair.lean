import Disassembly.Analysis.Repair
import Disassembly.Proofs.Analysis.Rescan
import Mathlib.Logic.ExistsUnique

/-!
What a repair does. It goes through the image from its first byte on and lets every instruction
that it comes to take the bytes of its operand under its own context; an operand byte that no
instruction has taken becomes an instruction. What lies behind the repair is aligned and stays so,
and an aligned store is left as it is. So the whole image ends aligned, and a second repair finds
nothing to change.
-/
namespace Disassembly

namespace Store

variable {s t : Store} {o p i bound : Int}

/-- The byte `i` of the image belongs to the operand of the instruction at `o`. -/
def Owns (s : Store) (o i : Int) : Prop :=
  s.IsInstruction o ∧ s.Contains i ∧ o < i ∧ ∃ length, s.lengthAt o = .ok length ∧ i < o + length

/-- The byte `i` belongs to the instruction at `o`, as its opcode or in its operand. -/
def Covers (s : Store) (o i : Int) : Prop := s.IsInstruction o ∧ i = o ∨ s.Owns o i

/-- Instructions have their operand bytes under their own context, and each operand byte belongs to
exactly one of them. -/
structure Aligned (s : Store) : Prop where
  operand : ∀ {o i}, s.Owns o i →
    (s.cell i).flag = .operand ∧ (s.cell i).context = (s.cell o).context
  owner : ∀ {i}, s.Contains i → (s.cell i).flag = .operand → ∃! o, s.Owns o i

/-- No instruction reaches from before the offset over it. -/
def Boundary (s : Store) (bound : Int) : Prop :=
  ∀ o, s.IsInstruction o → o < bound → o + s.length o ≤ bound

/-- The bytes before a boundary are aligned. -/
structure AlignedBelow (s : Store) (bound : Int) : Prop where
  boundary : s.Boundary bound
  operand : ∀ {o i}, s.Owns o i → o < bound →
    (s.cell i).flag = .operand ∧ (s.cell i).context = (s.cell o).context
  owner : ∀ {i}, s.Contains i → i < bound → (s.cell i).flag = .operand → ∃ o, s.Owns o i

theorem owns_iff : s.Owns o i ↔
    s.IsInstruction o ∧ s.Contains i ∧ o < i ∧ i < o + s.length o := by
  constructor
  · rintro ⟨ho, hi, hlt, length, hlength, hle⟩
    rw [lengthAt_of_contains ho.1] at hlength
    obtain rfl := Except.ok.inj hlength
    exact ⟨ho, hi, hlt, hle⟩
  · rintro ⟨ho, hi, hlt, hle⟩
    exact ⟨ho, hi, hlt, _, lengthAt_of_contains ho.1, hle⟩

section Overlap

/-- An operand byte is no opcode, so instructions that have their operands do not overlap. -/
theorem covers_unique
    (h : ∀ {o i}, s.Owns o i → (s.cell i).flag = .operand) (ho : s.Covers o i)
    (hp : s.Covers p i) : o = p := by
  have hle {q r : Int} (hq : s.Covers q i) (hr : s.Covers r i) : ¬ q < r := by
    intro hlt
    have hinstr : s.IsInstruction r := by
      rcases hr with ⟨hr, -⟩ | hr
      · exact hr
      · exact hr.1
    have hri : r ≤ i := by
      rcases hr with ⟨-, rfl⟩ | hr
      · exact Int.le_refl _
      · exact Int.le_of_lt hr.2.2.1
    rcases hq with ⟨-, rfl⟩ | hq
    · omega
    · obtain ⟨hq, -, -, hqi⟩ := owns_iff.1 hq
      have howns : s.Owns q r := owns_iff.2 ⟨hq, hinstr.1, hlt, by omega⟩
      have hflag := hinstr.2
      rw [h howns] at hflag
      cases hflag
  have h1 := hle ho hp
  have h2 := hle hp ho
  omega

/-- An image that is aligned up to its end is aligned. -/
theorem AlignedBelow.aligned (h : s.AlignedBelow bound) (hbound : s.size ≤ bound) :
    s.Aligned where
  operand ho := h.operand ho (by have := ho.1.1.2; omega)
  owner hi hflag := by
    obtain ⟨o, ho⟩ := h.owner hi (by have := hi.2; omega) hflag
    refine ⟨o, ho, fun p hp => ?_⟩
    exact covers_unique (fun hq => (h.operand hq (by have := hq.1.1.2; omega)).1) (Or.inr hp)
      (Or.inr ho)

/-- Opcodes and operands are what instructions cover. -/
theorem Aligned.covers_iff (h : s.Aligned) (hi : s.Contains i) :
    (∃ o, s.Covers o i) ↔ (s.cell i).flag = .opcode ∨ (s.cell i).flag = .operand := by
  constructor
  · rintro ⟨o, ⟨ho, rfl⟩ | ho⟩
    · exact Or.inl ho.2
    · exact Or.inr (h.operand ho).1
  · rintro (hflag | hflag)
    · exact ⟨i, Or.inl ⟨⟨hi, hflag⟩, rfl⟩⟩
    · obtain ⟨o, ho, -⟩ := h.owner hi hflag
      exact ⟨o, Or.inr ho⟩

end Overlap

/-- Nothing lies before the image. -/
theorem alignedBelow_zero (s : Store) : s.AlignedBelow 0 where
  boundary o ho hlt := absurd ho.1.1 (by omega)
  operand ho hlt := absurd ho.1.1.1 (by omega)
  owner hi hlt := absurd hi.1 (by omega)

/-- The store in which the bytes of the instruction at `o` are its own, under its context. -/
def settled (s : Store) (o : Int) : Store := s.own o (s.cell o).context

section Settled

theorem agrees_settled (s : Store) (o : Int) : s.Agrees (s.settled o) := agrees_own s o _

theorem Valid.settled (hs : s.Valid) (o : Int) : (s.settled o).Valid := hs.own o _

variable (hs : s.Valid) (ho : s.Contains o)

include hs ho

theorem cell_settled (hi : s.Contains i) : (s.settled o).cell i =
    if i = o then ⟨.opcode, (s.cell o).context, (s.cell i).marks⟩
    else if o < i ∧ i < o + s.length o then
      ⟨.operand, (s.cell o).context, (s.cell i).marks⟩
    else s.cell i := by
  rw [settled, hs.cell_own ho hi, hs.masked]
  rfl

theorem cell_settled_self :
    (s.settled o).cell o = ⟨.opcode, (s.cell o).context, (s.cell o).marks⟩ := by
  rw [cell_settled hs ho ho, if_pos rfl]

theorem cell_settled_operand (hi : s.Contains i) (h : o < i ∧ i < o + s.length o) :
    (s.settled o).cell i = ⟨.operand, (s.cell o).context, (s.cell i).marks⟩ := by
  rw [cell_settled hs ho hi, if_neg (by omega), if_pos h]

theorem cell_settled_outside (hi : s.Contains i) (h : i < o ∨ o + s.length o ≤ i) :
    (s.settled o).cell i = s.cell i := by
  have hpos := s.length_pos o
  rw [cell_settled hs ho hi, if_neg (by omega), if_neg (by omega)]

/-- Up to `o` no context changes, and so no length. -/
theorem length_settled (hp : s.Contains p) (hle : p ≤ o) :
    (s.settled o).length p = s.length p := by
  refine (agrees_settled s o).length ?_
  by_cases hself : p = o
  · rw [hself, cell_settled_self hs ho]
  · rw [cell_settled_outside hs ho hp (by omega)]

theorem isInstruction_settled_below (hlt : p < o) :
    (s.settled o).IsInstruction p ↔ s.IsInstruction p := by
  have hagree := agrees_settled s o
  constructor
  · rintro ⟨hp, hflag⟩
    rw [hagree.contains] at hp
    rw [cell_settled_outside hs ho hp (Or.inl hlt)] at hflag
    exact ⟨hp, hflag⟩
  · rintro ⟨hp, hflag⟩
    refine ⟨hagree.contains.2 hp, ?_⟩
    rwa [cell_settled_outside hs ho hp (Or.inl hlt)]

theorem owns_settled_below (hlt : p < o) : (s.settled o).Owns p i ↔ s.Owns p i := by
  simp only [owns_iff, isInstruction_settled_below hs ho hlt, (agrees_settled s o).contains]
  constructor
  · rintro ⟨hp, hi, h⟩
    rw [length_settled hs ho hp.1 (by omega)] at h
    exact ⟨hp, hi, h⟩
  · rintro ⟨hp, hi, h⟩
    rw [length_settled hs ho hp.1 (by omega)]
    exact ⟨hp, hi, h⟩

theorem owns_settled_self :
    (s.settled o).Owns o i ↔ s.Contains i ∧ o < i ∧ i < o + s.length o := by
  have hagree := agrees_settled s o
  have hself : (s.settled o).IsInstruction o := by
    refine ⟨hagree.contains.2 ho, ?_⟩
    rw [cell_settled_self hs ho]
  rw [owns_iff, hagree.contains, length_settled hs ho ho (Int.le_refl o)]
  exact and_iff_right hself

/-- Of the instructions that begin in the bytes of a settled one, only itself is left. -/
theorem eq_of_isInstruction_settled (hp : (s.settled o).IsInstruction p) (hle : o ≤ p)
    (hlt : p < o + s.length o) : p = o := by
  have hin := (agrees_settled s o).contains.1 hp.1
  have hflag := hp.2
  by_cases hself : p = o
  · exact hself
  · rw [cell_settled_operand hs ho hin (by omega)] at hflag
    cases hflag

/-- Settling the instruction at the bound moves the bound behind it. -/
theorem AlignedBelow.settled (h : s.AlignedBelow o) :
    (s.settled o).AlignedBelow (o + s.length o) where
  boundary p hp hlt := by
    have hin := (agrees_settled s o).contains.1 hp.1
    by_cases hbelow : p < o
    · have hle := h.boundary p ((isInstruction_settled_below hs ho hbelow).1 hp) hbelow
      rw [length_settled hs ho hin (by omega)]
      omega
    · obtain rfl := eq_of_isInstruction_settled hs ho hp (by omega) hlt
      exact Int.le_of_eq (by rw [length_settled hs ho hin (Int.le_refl p)])
  operand {p i} hi hlt := by
    by_cases hbelow : p < o
    · rw [owns_settled_below hs ho hbelow] at hi
      obtain ⟨hp, hin, -, hend⟩ := owns_iff.1 hi
      have hle := h.boundary p hp hbelow
      rw [cell_settled_outside hs ho hin (by omega), cell_settled_outside hs ho hp.1 (by omega)]
      exact h.operand hi hbelow
    · obtain rfl := eq_of_isInstruction_settled hs ho hi.1 (by omega) hlt
      rw [owns_settled_self hs ho] at hi
      rw [cell_settled_operand hs ho hi.1 hi.2, cell_settled_self hs ho]
      exact ⟨rfl, rfl⟩
  owner {i} hi hlt hflag := by
    rw [(agrees_settled s o).contains] at hi
    by_cases hbelow : i < o
    · rw [cell_settled_outside hs ho hi (Or.inl hbelow)] at hflag
      obtain ⟨p, hp⟩ := h.owner hi hbelow hflag
      have hpo : p < o := by have := hp.2.2.1; omega
      exact ⟨p, (owns_settled_below hs ho hpo).2 hp⟩
    · have hne : i ≠ o := by
        rintro rfl
        rw [cell_settled_self hs ho] at hflag
        cases hflag
      exact ⟨o, (owns_settled_self hs ho).2 ⟨hi, by omega, hlt⟩⟩

end Settled

theorem Boundary.skip (h : s.Boundary o) (hop : (s.cell o).flag ≠ .opcode) :
    s.Boundary (o + 1) := by
  intro p hp hlt
  have hne : p ≠ o := by
    rintro rfl
    exact hop hp.2
  have hle := h p hp (by omega)
  omega

/-- Past a byte that is neither opcode nor operand the bound moves by one. -/
theorem AlignedBelow.skip (h : s.AlignedBelow o) (hop : (s.cell o).flag ≠ .opcode)
    (hoperand : (s.cell o).flag ≠ .operand) : s.AlignedBelow (o + 1) where
  boundary := h.boundary.skip hop
  operand {p i} hi hlt := by
    have hne : p ≠ o := by
      rintro rfl
      exact hop hi.1.2
    exact h.operand hi (by omega)
  owner {i} hi hlt hflag := by
    have hne : i ≠ o := by
      rintro rfl
      exact hoperand hflag
    exact h.owner hi (by omega) hflag

/-- An aligned store that differs from the first in its cells at most and gives up no code. -/
structure RepairedTo (s t : Store) : Prop where
  agrees : s.Agrees t
  valid : t.Valid
  aligned : t.Aligned
  code : ∀ i, s.Contains i → (s.cell i).flag = .opcode ∨ (s.cell i).flag = .operand →
    (t.cell i).flag = .opcode ∨ (t.cell i).flag = .operand

theorem AlignedBelow.repairedTo_self (h : s.AlignedBelow bound) (hs : s.Valid)
    (hbound : s.size ≤ bound) : s.RepairedTo s where
  agrees := Agrees.refl s
  valid := hs
  aligned := h.aligned hbound
  code _ _ hcode := hcode

theorem RepairedTo.of_settled (hs : s.Valid) (ho : s.Contains o) (h : (s.settled o).RepairedTo t) :
    s.RepairedTo t where
  agrees := (agrees_settled s o).trans h.agrees
  valid := h.valid
  aligned := h.aligned
  code i hi hcode := by
    refine h.code i ((agrees_settled s o).contains.2 hi) ?_
    rw [cell_settled hs ho hi]
    split
    · exact Or.inl rfl
    · split
      · exact Or.inr rfl
      · exact hcode

/-- How many bytes of its operand the opcode at `o` has yet to take. -/
def strays (s : Store) (o : Int) : Nat :=
  s.strayCount (o + 1) (min (o + s.length o) s.size - (o + 1)).toNat

/-- The store in which the byte at `o` is an opcode. -/
def promoted (s : Store) (o : Int) : Store := s.editRun o 1 (·.setFlag .opcode)

section Moves

variable (hs : s.Valid) (ho : s.Contains o)

include hs ho

theorem cell_promoted (hi : s.Contains i) : (s.promoted o).cell i =
    if i = o then (s.cell i).setFlag .opcode else s.cell i := by
  rw [promoted, hs.cell_editRun _ _ ho.1 hi]
  by_cases hself : i = o
  · rw [if_pos (by omega), if_pos hself]
  · rw [if_neg (by omega), if_neg hself]

theorem context_promoted : ((s.promoted o).cell o).context = (s.cell o).context := by
  rw [cell_promoted hs ho ho, if_pos rfl]
  rfl

theorem settled_promoted : (s.promoted o).settled o = s.settled o := by
  have hp : (s.promoted o).Valid := hs.editRun (Cell.masking_setFlag _) o 1
  have hagree : s.Agrees (s.promoted o) := agrees_editRun _ _ s o
  have hlength : (s.promoted o).length o = s.length o := hagree.length (context_promoted hs ho)
  refine eq_of_cell_eq ⟨rfl, rfl, rfl, rfl, rfl⟩ (hs.settled o) (hp.settled o) ?_
  intro i hi
  have hi : s.Contains i := (agrees_settled s o).contains.1 hi
  rw [cell_settled hp (hagree.contains.2 ho) (hagree.contains.2 hi), cell_settled hs ho hi,
    hlength, context_promoted hs ho, cell_promoted hs ho hi]
  by_cases hself : i = o
  · simp only [if_pos hself]
    rfl
  · simp only [if_neg hself]

/-- Where the byte at `o` is an opcode, taking the operand is all there is to settle. -/
theorem settled_of_opcode (hflag : (s.cell o).flag = .opcode) :
    s.editRun (o + 1) (min (o + s.length o) s.size - (o + 1)).toNat
      (fun c => (c.setFlag .operand).setContext (s.cell o).context) = s.settled o := by
  have hself : ((s.cell o).setFlag .opcode).setContext (s.cell o).context = s.cell o := by
    rw [Cell.setContext, hs.masked, ← hflag]
    rfl
  have hopened : s.editRun o 1 (fun c => (c.setFlag .opcode).setContext (s.cell o).context) =
      s := by
    refine eq_of_cell_eq (agrees_editRun _ _ s o) hs (hs.editRun (Cell.masking_own _ _) o 1) ?_
    intro i hi
    rw [hs.cell_editRun _ _ ho.1 hi]
    split
    · obtain rfl : i = o := by omega
      exact hself
    · rfl
  unfold settled own
  rw [hopened]
  rfl

end Moves

section Fixed

variable (ha : s.Aligned)

include ha

/-- The instructions of an aligned store are settled. -/
theorem Aligned.settled_eq (hs : s.Valid) (ho : s.IsInstruction o) : s.settled o = s := by
  refine hs.own_eq_self ho.1 ho.2 ?_
  intro i hi hlt hle
  exact ha.operand (owns_iff.2 ⟨ho, hi, hlt, hle⟩)

theorem Aligned.strays_eq_zero (ho : s.IsInstruction o) : s.strays o = 0 := by
  have h0 := ho.1.1
  unfold strays strayCount
  rw [List.countP_eq_zero]
  intro k hk
  rw [List.mem_range] at hk
  have howns : s.Owns o (o + 1 + k) :=
    owns_iff.2 ⟨ho, ⟨by omega, by omega⟩, by omega, by omega⟩
  simp [(ha.operand howns).1]

theorem Aligned.flag_ne_operand (hbound : s.Boundary o) (ho : s.Contains o) :
    (s.cell o).flag ≠ .operand := by
  intro hflag
  obtain ⟨p, hp, -⟩ := ha.owner ho hflag
  obtain ⟨hp, -, hlt, hle⟩ := owns_iff.1 hp
  have hbehind := hbound p hp hlt
  omega

theorem Aligned.boundary_behind (hbound : s.Boundary o) (ho : s.IsInstruction o) :
    s.Boundary (o + s.length o) := by
  intro p hp hlt
  rcases Int.lt_trichotomy p o with hbelow | rfl | habove
  · have hle := hbound p hp hbelow
    omega
  · exact Int.le_refl _
  · have hflag := (ha.operand (owns_iff.2 ⟨ho, hp.1, habove, hlt⟩)).1
    rw [hp.2] at hflag
    cases hflag

end Fixed

theorem flagAt_of_contains (h : s.Contains o) : s.flagAt o = .ok (s.cell o).flag := by
  unfold flagAt
  rw [cellAt_of_contains h]
  rfl

end Store

namespace StoreM

variable {s : Store} {o : Int}

theorem align_of_opcode (hs : s.Valid) (ho : s.Contains o) (hflag : (s.cell o).flag = .opcode) :
    align o s = .ok (s.length o, s.strays o) (s.settled o) := by
  have hown : ownOperands o (s.length o) (s.cell o).context s = .ok () (s.settled o) :=
    congrArg (EStateM.Result.ok ()) (Store.settled_of_opcode hs ho hflag)
  unfold align
  refine (bind_of_ok (read_of_ok (Store.lengthAt_of_contains ho))).trans ?_
  refine (bind_of_ok (read_of_ok (Store.contextAt_of_contains ho))).trans ?_
  refine (bind_of_ok (get_run s)).trans ?_
  exact (bind_of_ok hown).trans rfl

section Moves

variable (n changed : Nat)

theorem repairFrom_end (h : s.size ≤ o) : repairFrom n o changed s = .ok changed s := by
  cases n with
  | zero => rfl
  | succ n =>
    unfold repairFrom
    rw [bind_of_ok (get_run s), if_pos h]
    rfl

theorem repairFrom_opcode (hs : s.Valid) (ho : s.Contains o) (hflag : (s.cell o).flag = .opcode) :
    repairFrom (n + 1) o changed s =
      repairFrom n (o + s.length o) (changed + s.strays o) (s.settled o) := by
  have hread := Store.flagAt_of_contains ho
  rw [hflag] at hread
  rw [repairFrom, bind_of_ok (get_run s), if_neg (by have := ho.2; omega),
    bind_of_ok (read_of_ok hread)]
  dsimp only
  rw [bind_of_ok (align_of_opcode hs ho hflag)]

/-- An operand byte that the repair comes to has no opcode, and becomes one. -/
theorem repairFrom_operand (hs : s.Valid) (ho : s.Contains o)
    (hflag : (s.cell o).flag = .operand) :
    repairFrom (n + 1) o changed s =
      repairFrom n (o + s.length o) (changed + 1 + (s.promoted o).strays o) (s.settled o) := by
  have hread := Store.flagAt_of_contains ho
  rw [hflag] at hread
  have hp : (s.promoted o).Valid := hs.editRun (Cell.masking_setFlag _) o 1
  have hagree : s.Agrees (s.promoted o) := Store.agrees_editRun _ _ s o
  have hopcode : ((s.promoted o).cell o).flag = .opcode := by
    rw [Store.cell_promoted hs ho ho, if_pos rfl]
    rfl
  have halign := align_of_opcode hp (hagree.contains.2 ho) hopcode
  rw [Store.settled_promoted hs ho, hagree.length (Store.context_promoted hs ho)] at halign
  rw [repairFrom, bind_of_ok (get_run s), if_neg (by have := ho.2; omega),
    bind_of_ok (read_of_ok hread)]
  dsimp only
  rw [bind_of_ok (edit_of_contains ho _), ← Store.promoted, bind_of_ok halign]

theorem repairFrom_other (ho : s.Contains o) (hop : (s.cell o).flag ≠ .opcode)
    (hoperand : (s.cell o).flag ≠ .operand) :
    repairFrom (n + 1) o changed s = repairFrom n (o + 1) changed s := by
  rw [repairFrom, bind_of_ok (get_run s), if_neg (by have := ho.2; omega),
    bind_of_ok (read_of_ok (Store.flagAt_of_contains ho))]
  cases hflag : (s.cell o).flag with
  | opcode => exact absurd hflag hop
  | operand => exact absurd hflag hoperand
  | _ => rfl

end Moves

/-- A repair that starts behind aligned bytes, with a move left for each byte of the rest, leaves
the whole image aligned. -/
theorem repairFrom_repairs (n changed : Nat) (hs : s.Valid) (h0 : 0 ≤ o) (hn : s.size ≤ o + n)
    (h : s.AlignedBelow o) :
    ∃ count t, repairFrom n o changed s = .ok count t ∧ s.RepairedTo t := by
  induction n generalizing s o changed with
  | zero => exact ⟨changed, s, rfl, h.repairedTo_self hs (by omega)⟩
  | succ n ih =>
    by_cases hend : s.size ≤ o
    · exact ⟨changed, s, repairFrom_end _ _ hend, h.repairedTo_self hs hend⟩
    have ho : s.Contains o := ⟨h0, by omega⟩
    -- Opcode or operand, the byte ends as an opcode in possession of its operand.
    have hsettled (changed : Nat) : ∃ count t,
        repairFrom n (o + s.length o) changed (s.settled o) = .ok count t ∧ s.RepairedTo t := by
      have hpos := s.length_pos o
      have hsize := (Store.agrees_settled s o).size
      obtain ⟨count, t, hrun, ht⟩ := ih changed (hs.settled o) (by omega) (by omega)
        (Store.AlignedBelow.settled hs ho h)
      exact ⟨count, t, hrun, ht.of_settled hs ho⟩
    by_cases hop : (s.cell o).flag = .opcode
    · rw [repairFrom_opcode n changed hs ho hop]
      exact hsettled _
    by_cases hoperand : (s.cell o).flag = .operand
    · rw [repairFrom_operand n changed hs ho hoperand]
      exact hsettled _
    rw [repairFrom_other n changed ho hop hoperand]
    exact ih changed hs (by omega) (by omega) (h.skip hop hoperand)

/-- A repair that starts between the instructions of an aligned store changes nothing. -/
theorem repairFrom_of_aligned (n changed : Nat) (hs : s.Valid) (ha : s.Aligned) (h0 : 0 ≤ o)
    (hbound : s.Boundary o) : repairFrom n o changed s = .ok changed s := by
  induction n generalizing o with
  | zero => rfl
  | succ n ih =>
    by_cases hend : s.size ≤ o
    · exact repairFrom_end _ _ hend
    have ho : s.Contains o := ⟨h0, by omega⟩
    by_cases hop : (s.cell o).flag = .opcode
    · have hinstr : s.IsInstruction o := ⟨ho, hop⟩
      rw [repairFrom_opcode n changed hs ho hop, ha.settled_eq hs hinstr, ha.strays_eq_zero hinstr]
      exact ih (by omega) (ha.boundary_behind hbound hinstr)
    · rw [repairFrom_other n changed ho hop (ha.flag_ne_operand hbound ho)]
      exact ih (by omega) (hbound.skip hop)

/--
A repair leaves the instructions side by side: each has the bytes of its operand, as far as the
image goes, under its own context, no byte has two instructions, and exactly the opcodes and
operands have one. No byte of code is given up, and a second repair changes nothing.
-/
theorem repair_aligns (hs : s.Reachable) :
    ∃ count t, repair s = .ok count t ∧ s.Agrees t ∧ t.Aligned ∧
      (∀ {o p i}, t.Covers o i → t.Covers p i → o = p) ∧
      (∀ {i}, t.Contains i →
        ((∃ o, t.Covers o i) ↔ (t.cell i).flag = .opcode ∨ (t.cell i).flag = .operand)) ∧
      (∀ i, s.Contains i → (s.cell i).flag = .opcode ∨ (s.cell i).flag = .operand →
        (t.cell i).flag = .opcode ∨ (t.cell i).flag = .operand) ∧
      repair t = .ok 0 t := by
  obtain ⟨count, t, hrun, ht⟩ :=
    repairFrom_repairs s.size 0 hs.valid (Int.le_refl 0) (by omega) s.alignedBelow_zero
  refine ⟨count, t, hrun, ht.agrees, ht.aligned, ?_, ht.aligned.covers_iff, ht.code, ?_⟩
  · exact Store.covers_unique fun hi => (ht.aligned.operand hi).1
  · exact repairFrom_of_aligned t.size 0 ht.valid ht.aligned (Int.le_refl 0)
      t.alignedBelow_zero.boundary

/-- An absolute operand that is missing, and an operand byte without opcode: as a load of sixteen
bits it takes the opcode behind it and runs past the end of the image. -/
theorem repair_aligns_orphan :
    let fresh : Store := ⟨#[0xAD, 0x00, 0x90, 0xA9, 0xEA], .loRom, .slow,
      Array.replicate 5 {}, {}, {}⟩
    let s := (Project.applyAll { store := fresh }
      [.setFlag 0 .opcode, .setFlag 3 .operand, .setFlag 4 .opcode]).store
    s.Reachable ∧ ∃ count t, repair s = .ok count t ∧ count = 4 ∧ t.Aligned ∧
      repair t = .ok 0 t := by
  intro fresh s
  have hcreate : Store.create #[0xAD, 0x00, 0x90, 0xA9, 0xEA] .loRom .slow = .ok fresh := rfl
  have hs : s.Reachable :=
    .apply _ (.setFlag 4 .opcode) (.apply _ (.setFlag 3 .operand)
      (.apply { store := fresh } (.setFlag 0 .opcode) (.create hcreate)))
  have hcount : (match repair s with
      | .ok count _ => count
      | .error _ _ => 0) = 4 := by decide +kernel
  obtain ⟨count, t, hrun, -, ha, -, -, -, hagain⟩ := repair_aligns hs
  rw [hrun] at hcount
  exact ⟨hs, count, t, hrun, hcount, ha, hagain⟩

end StoreM

end Disassembly

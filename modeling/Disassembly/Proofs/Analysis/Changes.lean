import Disassembly.Proofs.Analysis.Repair
import Mathlib.Data.Nat.Count

/-!
What a repair changes, and that it counts it. A move settles one instruction and changes roles among
the bytes of that instruction only; the repair goes on behind them and does not come back. So the
changes of the moves lie apart, and their numbers add up to the number of bytes whose role is
another one in the end.
-/
namespace Disassembly

/-- Two numbers that add up: what is counted is of one kind or of the other, and never of both. -/
theorem count_eq_add {p q r : Nat → Prop} [DecidablePred p] [DecidablePred q] [DecidablePred r]
    {n : Nat} (h : ∀ k < n, (p k ↔ q k ∨ r k) ∧ ¬ (q k ∧ r k)) :
    Nat.count p n = Nat.count q n + Nat.count r n := by
  induction n with
  | zero => simp
  | succ n ih =>
    obtain ⟨hp, hdisjoint⟩ := h n (Nat.lt_succ_self n)
    rw [Nat.count_succ, Nat.count_succ, Nat.count_succ, ih fun k hk => h k (by omega)]
    by_cases hq : q n
    · have hr : ¬ r n := fun hr => hdisjoint ⟨hq, hr⟩
      rw [if_pos (hp.2 (Or.inl hq)), if_pos hq, if_neg hr]
      omega
    · by_cases hr : r n
      · rw [if_pos (hp.2 (Or.inr hr)), if_neg hq, if_pos hr]
        omega
      · rw [if_neg fun h => (hp.1 h).elim hq hr, if_neg hq, if_neg hr]
        rfl

/-- What occurs in a window only is counted there. -/
theorem count_eq_window {p : Nat → Prop} [DecidablePred p] {first n size : Nat}
    (hsize : first + n ≤ size) (hinside : ∀ k < size, p k → first ≤ k ∧ k < first + n) :
    Nat.count p size = Nat.count (fun k => p (first + k)) n := by
  obtain ⟨rest, rfl⟩ := Nat.exists_eq_add_of_le hsize
  have hbefore : Nat.count p first = 0 := Nat.count_iff_forall_not.2 fun k hk hp => by
    have := hinside k (by omega) hp
    omega
  have hbehind : Nat.count (fun k => p (first + n + k)) rest = 0 :=
    Nat.count_iff_forall_not.2 fun k hk hp => by
      have := hinside (first + n + k) (by omega) hp
      omega
  rw [Nat.count_add, Nat.count_add, hbefore, hbehind, Nat.zero_add, Nat.add_zero]

namespace Store

variable {s t u : Store} {o : Int}

/-- How many bytes of the image have another role in the second store. -/
def roleChanges (s t : Store) : Nat :=
  Nat.count (fun i : Nat => (t.cell i).flag ≠ (s.cell i).flag) s.size

section Counting

theorem roleChanges_self (s : Store) : s.roleChanges s = 0 :=
  Nat.count_iff_forall_not.2 fun _ _ h => h rfl

/-- Changes before the bound and changes from it on are different bytes. -/
theorem roleChanges_trans (bound : Int) (hsize : u.size = s.size)
    (hbefore : ∀ i, s.Contains i → i < bound → (t.cell i).flag = (u.cell i).flag)
    (hbehind : ∀ i, s.Contains i → bound ≤ i → (u.cell i).flag = (s.cell i).flag) :
    s.roleChanges t = s.roleChanges u + u.roleChanges t := by
  unfold roleChanges
  rw [hsize]
  refine count_eq_add fun k hk => ?_
  have hin : s.Contains k := ⟨by omega, by omega⟩
  rcases Int.lt_or_le k bound with hlt | hle
  · have hkept := hbefore k hin hlt
    simp [hkept]
  · have hkept := hbehind k hin hle
    simp [hkept]

theorem strays_promoted (hs : s.Valid) (ho : s.Contains o) :
    (s.promoted o).strays o = s.strays o := by
  have hagree : s.Agrees (s.promoted o) := agrees_editRun _ _ s o
  unfold strays strayCount
  rw [hagree.length (context_promoted hs ho), hagree.size]
  refine List.countP_congr fun k hk => ?_
  rw [List.mem_range] at hk
  have h0 := ho.1
  rw [cell_promoted hs ho ⟨by omega, by omega⟩, if_neg (by omega)]

/-- Settling an instruction changes the role of its opcode byte, unless it has it already, and the
roles of the bytes that it has yet to take. -/
theorem roleChanges_settled (hs : s.Valid) (ho : s.Contains o) :
    s.roleChanges (s.settled o) =
      (if (s.cell o).flag = .opcode then 0 else 1) + s.strays o := by
  have hpos := s.length_pos o
  have hsize := ho.2
  obtain ⟨first, rfl⟩ := Int.eq_ofNat_of_zero_le ho.1
  generalize hm : (min ((first : Int) + s.length first) s.size - (first + 1)).toNat = m
  have hwindow : s.roleChanges (s.settled first) = Nat.count (fun k : Nat =>
      ((s.settled first).cell (first + k : Nat)).flag ≠ (s.cell (first + k : Nat)).flag)
        (1 + m) := by
    refine count_eq_window (by omega) fun k hk hchanged => ?_
    by_contra hout
    refine hchanged ?_
    rw [cell_settled_outside hs ho ⟨by omega, by omega⟩ (by omega)]
  have hself : (((s.settled first).cell (first + 0 : Nat)).flag ≠
      (s.cell (first + 0 : Nat)).flag) ↔ ¬ (s.cell first).flag = .opcode := by
    rw [Nat.add_zero, cell_settled_self hs ho]
    exact ne_comm
  have hstrays : Nat.count (fun k : Nat => ((s.settled first).cell (first + (1 + k) : Nat)).flag ≠
      (s.cell (first + (1 + k) : Nat)).flag) m = s.strays first := by
    unfold strays strayCount
    rw [hm]
    refine List.countP_congr fun k hk => ?_
    rw [List.mem_range] at hk
    have hplace : ((first + (1 + k) : Nat) : Int) = first + 1 + k := by omega
    dsimp only
    rw [decide_eq_true_iff, hplace,
      cell_settled_operand hs ho ⟨by omega, by omega⟩ ⟨by omega, by omega⟩]
    exact ne_comm.trans bne_iff_ne.symm
  rw [hwindow, Nat.count_add, Nat.count_one, hstrays]
  simp only [hself, ite_not]

end Counting

/-- What a repair from `o` on does to a store: it does not look back, touches neither marks nor
notes, and leaves as it was every byte that is in no instruction in the end. -/
structure RepairedFrom (s t : Store) (o : Int) : Prop where
  agrees : s.Agrees t
  before : ∀ i, s.Contains i → i < o → t.cell i = s.cell i
  marks : ∀ i, s.Contains i → (t.cell i).marks = (s.cell i).marks
  other : ∀ i, s.Contains i → (t.cell i).flag ≠ .opcode → (t.cell i).flag ≠ .operand →
    t.cell i = s.cell i

namespace RepairedFrom

theorem refl (s : Store) (o : Int) : s.RepairedFrom s o where
  agrees := Agrees.refl s
  before _ _ _ := rfl
  marks _ _ := rfl
  other _ _ _ _ := rfl

theorem skip (h : s.RepairedFrom t (o + 1)) : s.RepairedFrom t o where
  agrees := h.agrees
  before i hi hlt := h.before i hi (by omega)
  marks := h.marks
  other := h.other

section Settled

variable (hs : s.Valid) (ho : s.Contains o)
  (h : (s.settled o).RepairedFrom t (o + s.length o))

include hs ho h

theorem of_settled : s.RepairedFrom t o := by
  have hagree := agrees_settled s o
  have hpos := s.length_pos o
  refine ⟨hagree.trans h.agrees, fun i hi hlt => ?_, fun i hi => ?_, fun i hi hop hoperand => ?_⟩
  · rw [h.before i (hagree.contains.2 hi) (by omega), cell_settled_outside hs ho hi (Or.inl hlt)]
  · rw [h.marks i (hagree.contains.2 hi)]
    exact hs.marks_own ho hi
  · have hkept := h.other i (hagree.contains.2 hi) hop hoperand
    rw [hkept] at hop hoperand ⊢
    -- A byte of the settled instruction would be opcode or operand to the end.
    have hself : i ≠ o := by
      rintro rfl
      rw [cell_settled_self hs ho] at hop
      exact hop rfl
    have houtside : ¬ (o < i ∧ i < o + s.length o) := by
      intro hin
      rw [cell_settled_operand hs ho hi hin] at hoperand
      exact hoperand rfl
    exact cell_settled_outside hs ho hi (by omega)

/-- The changes of the first move and those of the rest add up. -/
theorem roleChanges_eq :
    s.roleChanges t = s.roleChanges (s.settled o) + (s.settled o).roleChanges t := by
  have hagree := agrees_settled s o
  refine roleChanges_trans (o + s.length o) hagree.size (fun i hi hlt => ?_) fun i hi hle => ?_
  · rw [h.before i (hagree.contains.2 hi) hlt]
  · rw [cell_settled_outside hs ho hi (Or.inr hle)]

end Settled

end RepairedFrom

end Store

namespace StoreM

variable {s : Store} {o : Int}

/-- At a byte of code a move settles the instruction there and counts the roles that it changes. -/
theorem repairFrom_code (n changed : Nat) (hs : s.Valid) (ho : s.Contains o)
    (hcode : (s.cell o).flag = .opcode ∨ (s.cell o).flag = .operand) :
    repairFrom (n + 1) o changed s = repairFrom n (o + s.length o)
      (changed + s.roleChanges (s.settled o)) (s.settled o) := by
  rw [Store.roleChanges_settled hs ho]
  rcases hcode with hop | hoperand
  · rw [repairFrom_opcode n changed hs ho hop, if_pos hop, Nat.zero_add]
  · have hop : (s.cell o).flag ≠ .opcode := by
      rw [hoperand]
      exact Flag.noConfusion
    rw [repairFrom_operand n changed hs ho hoperand, Store.strays_promoted hs ho, if_neg hop,
      Nat.add_assoc]

/-- A repair with a move for each byte ahead, or more, comes to the same end and adds the number of
changed roles to what was counted before. -/
theorem repairFrom_counts (m : Nat) (hs : s.Valid) (h0 : 0 ≤ o) (hm : s.size ≤ o + m) :
    ∃ t, s.RepairedFrom t o ∧ ∀ n changed : Nat, s.size ≤ o + n →
      repairFrom n o changed s = .ok (changed + s.roleChanges t) t := by
  -- The store at the end is found by induction on the bytes ahead, not on the moves that are left.
  induction m generalizing s o with
  | zero =>
    refine ⟨s, .refl s o, fun n changed _ => ?_⟩
    rw [repairFrom_end n changed (by omega), Store.roleChanges_self, Nat.add_zero]
  | succ m ih =>
    by_cases hend : s.size ≤ o
    · refine ⟨s, .refl s o, fun n changed _ => ?_⟩
      rw [repairFrom_end n changed hend, Store.roleChanges_self, Nat.add_zero]
    have ho : s.Contains o := ⟨h0, by omega⟩
    by_cases hcode : (s.cell o).flag = .opcode ∨ (s.cell o).flag = .operand
    · have hpos := s.length_pos o
      have hsize := (Store.agrees_settled s o).size
      obtain ⟨t, ht, hrun⟩ := ih (hs.settled o) (o := o + s.length o) (by omega) (by omega)
      refine ⟨t, ht.of_settled hs ho, fun n changed hn => ?_⟩
      obtain ⟨n, rfl⟩ : ∃ k, n = k + 1 := Nat.exists_eq_succ_of_ne_zero (by omega)
      rw [repairFrom_code n changed hs ho hcode, hrun n _ (by omega), ht.roleChanges_eq hs ho,
        Nat.add_assoc]
    · obtain ⟨hop, hoperand⟩ := not_or.1 hcode
      obtain ⟨t, ht, hrun⟩ := ih hs (o := o + 1) (by omega) (by omega)
      refine ⟨t, ht.skip, fun n changed hn => ?_⟩
      obtain ⟨n, rfl⟩ : ∃ k, n = k + 1 := Nat.exists_eq_succ_of_ne_zero (by omega)
      rw [repairFrom_other n changed ho hop hoperand, hrun n changed (by omega)]

/--
A repair ends by itself, at the end of the image, and returns the number of bytes whose role is
then another one than before. It leaves the instructions aligned; image, labels, comments and marks
are the same, and a byte that is neither opcode nor operand in the end has kept its whole record.
-/
theorem repair_counts_changes (hs : s.Reachable) :
    ∃ t, repair s = .ok (s.roleChanges t) t ∧
      (∀ n, s.size ≤ n → repairFrom n 0 0 s = .ok (s.roleChanges t) t) ∧ t.Aligned ∧ s.Agrees t ∧
      (∀ i, s.Contains i → (t.cell i).marks = (s.cell i).marks) ∧
      ∀ i, s.Contains i → (t.cell i).flag ≠ .opcode → (t.cell i).flag ≠ .operand →
        t.cell i = s.cell i := by
  obtain ⟨t, ht, hrun⟩ := repairFrom_counts s.size hs.valid (Int.le_refl 0) (by omega)
  have hends (n : Nat) (hn : s.size ≤ n) : repairFrom n 0 0 s = .ok (s.roleChanges t) t := by
    rw [hrun n 0 (by omega), Nat.zero_add]
  have haligned : t.Aligned := by
    obtain ⟨count, u, hrepair, hu⟩ :=
      repairFrom_repairs s.size 0 hs.valid (Int.le_refl 0) (by omega) s.alignedBelow_zero
    obtain ⟨-, rfl⟩ := EStateM.Result.ok.inj ((hends s.size (Nat.le_refl _)).symm.trans hrepair)
    exact hu.aligned
  exact ⟨t, hends s.size (Nat.le_refl _), hends, haligned, ht.agrees, ht.marks, ht.other⟩

/-- An opcode takes a text and an unreached byte for its operand; an orphan behind them becomes an
opcode and takes another opcode and a data byte. The graphics byte at the end is left alone. -/
theorem repair_counts_changes_orphan :
    let fresh : Store := ⟨#[0xAD, 0x00, 0x90, 0xA9, 0xEA, 0xEA, 0x40], .loRom, .slow,
      Array.replicate 7 {}, {}, {}⟩
    let s := (Project.applyAll { store := fresh }
      [.setFlag 0 .opcode, .setFlag 1 .text, .setFlag 3 .operand, .setFlag 4 .opcode,
        .addMarks 4 .stop, .setFlag 5 .data8, .setFlag 6 .graphics]).store
    s.Reachable ∧ ∃ t, repair s = .ok 5 t ∧ s.roleChanges t = 5 ∧ (t.cell 4).marks = .stop ∧
      (t.cell 6).flag = .graphics ∧ t.cell 6 = s.cell 6 := by
  intro fresh s
  have hcreate : Store.create #[0xAD, 0x00, 0x90, 0xA9, 0xEA, 0xEA, 0x40] .loRom .slow =
      .ok fresh := rfl
  have hs : s.Reachable := Store.Reachable.applyAll (.create hcreate) _
  have hresult : (match repair s with
      | .ok count t => some (count, (t.cell 6).flag)
      | .error _ _ => none) = some (5, .graphics) := by decide +kernel
  obtain ⟨t, hrun, -, -, -, hmarks, hother⟩ := repair_counts_changes hs
  simp only [hrun, Option.some.injEq, Prod.mk.injEq] at hresult
  obtain ⟨hcount, hflag⟩ := hresult
  have hstop : (s.cell 4).marks = .stop := by decide +kernel
  refine ⟨hs, t, by rw [hrun, hcount], hcount, ?_, hflag, ?_⟩
  · rw [hmarks 4 (by decide +kernel), hstop]
  · exact hother 6 (by decide +kernel) (by simp [hflag]) (by simp [hflag])

end StoreM

end Disassembly

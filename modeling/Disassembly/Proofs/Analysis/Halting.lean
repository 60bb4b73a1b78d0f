import Disassembly.Proofs.Analysis.Jumps
import Disassembly.Proofs.Store.Reachable
import Mathlib.Data.Finset.Card

/-!
A walk without calls ends by itself. Jumps and branches are remembered and not visited again; behind
everything else offsets grow. So there are at most as many visits as the image has bytes up to the
first jump, between two jumps and behind the last one, although a jump back may lead into the middle
of instructions that were visited before. A limit beyond that does not matter.
-/
namespace Disassembly

namespace Store

/-- The offsets of the image that hold a jump. -/
def jumpOffsets (s : Store) : Finset Int :=
  ((Finset.range s.size).image Int.ofNat).filter fun offset => s.peek offset ∈ Opcode.jumps

/-- The bytes of the image, once for each of its jumps and once more. -/
def walkBound (s : Store) : Nat := (s.jumpOffsets.card + 1) * s.size

theorem mem_jumpOffsets {s : Store} {offset : Int} :
    offset ∈ s.jumpOffsets ↔ s.Contains offset ∧ s.peek offset ∈ Opcode.jumps := by
  have hin : (∃ i < s.size, (i : Int) = offset) ↔ s.Contains offset := by
    constructor
    · rintro ⟨i, hi, rfl⟩
      exact ⟨by omega, by omega⟩
    · rintro ⟨h0, hlt⟩
      exact ⟨offset.toNat, by omega, by omega⟩
  simp [jumpOffsets, hin]

end Store

namespace Walk

variable {s t : Store} {w w' : Walk}

section Limits

/-- A walk has ended, and a larger limit changes nothing; or it has used up its limit, and a larger
one lets it go on from where it stands. -/
theorem run_add {m : Nat} (hs : s.Valid) (ho : s.Contains w.offset) (hrun : w.stop = none)
    (h : run m w s = .ok w' t) :
    (w'.stop.isSome ∧ ∀ n, run (m + n) w s = .ok w' t) ∨
      (w'.stop = none ∧ w'.visits.length = w.visits.length + m ∧
        ∀ n, run (m + n) w s = run n w' t) := by
  induction m generalizing w s with
  | zero =>
    obtain ⟨rfl, rfl⟩ := EStateM.Result.ok.inj h
    exact Or.inr ⟨hrun, rfl, fun n => by rw [Nat.zero_add]⟩
  | succ m ih =>
    have hcomm (n : Nat) : m + 1 + n = m + n + 1 := Nat.add_right_comm m 1 n
    by_cases hseen : w.seen.contains w.offset
    · rw [run_of_seen m hseen] at h
      obtain ⟨rfl, rfl⟩ := EStateM.Result.ok.inj h
      exact Or.inl ⟨rfl, fun n => by rw [hcomm, run_of_seen _ hseen]⟩
    · have hstep (n : Nat) := run_step_of_contains n hs ho hseen
      cases hstop : (w.successor s).stop with
      | some reason =>
        simp only [hstop, Option.isSome_some, if_true] at hstep
        rw [hstep] at h
        obtain ⟨rfl, rfl⟩ := EStateM.Result.ok.inj h
        exact Or.inl ⟨by rw [hstop]; rfl, fun n => by rw [hcomm, hstep]⟩
      | none =>
        simp only [hstop, Option.isSome_none, Bool.false_eq_true, if_false] at hstep
        rw [hstep] at h
        rcases ih (valid_storeAfter hs) (successor_of_running hstop).2.2.2 hstop h with
          ⟨hends, hsame⟩ | ⟨hgoes, hlength, hmore⟩
        · exact Or.inl ⟨hends, fun n => by rw [hcomm, hstep, hsame]⟩
        · refine Or.inr ⟨hgoes, ?_, fun n => by rw [hcomm, hstep, hmore]⟩
          rw [hlength, visits_successor, List.length_cons]
          omega

end Limits

section Transfers

/-- The walk has seen the jumps and branches that it has visited, each of them once. -/
structure SeesOnce (w : Walk) : Prop where
  seen : ∀ offset, w.seen.contains offset ↔ ∃ v ∈ w.visits, v.IsTransfer ∧ v.offset = offset
  nodup : ((w.visits.filter (·.IsTransfer)).map Visit.offset).Nodup

namespace SeesOnce

theorem begin (start : Int) : (Walk.start start).SeesOnce where
  seen offset := by simp [Walk.start]
  nodup := List.nodup_nil

theorem step (h : w.SeesOnce) (hnew : ¬ w.seen.contains w.offset) : (w.successor s).SeesOnce where
  seen offset := by
    rw [seen_successor, contains_seen_note, visits_successor, h.seen]
    simp
  nodup := by
    rw [visits_successor, List.filter_cons]
    split
    · rw [List.map_cons, List.nodup_cons]
      refine ⟨fun hmem => hnew ?_, h.nodup⟩
      obtain ⟨v, hv, hoffset⟩ := List.mem_map.1 hmem
      obtain ⟨hvisited, htransfer⟩ := List.mem_filter.1 hv
      exact (h.seen _).2 ⟨v, hvisited, of_decide_eq_true htransfer, hoffset⟩
    · exact h.nodup

end SeesOnce

end Transfers

section Pace

/-- The offsets of the jumps that the walk has visited. -/
def visitedJumps (w : Walk) : List Int :=
  (w.visits.filter (·.opcode ∈ Opcode.jumps)).map Visit.offset

theorem visitedJumps_successor (w : Walk) (s : Store) : (w.successor s).visitedJumps =
    if s.peek w.offset ∈ Opcode.jumps then w.offset :: w.visitedJumps else w.visitedJumps := by
  have hop : (w.visit s).opcode = s.peek w.offset := rfl
  simp only [visitedJumps, visits_successor, List.filter_cons, hop, decide_eq_true_eq]
  split
  · rfl
  · rfl

/-- No call is open and all visits are accounted for: each visited jump stands for as many as the
image has bytes, and the offset for those behind the last jump. -/
structure Paced (s : Store) (w : Walk) : Prop where
  calls : w.calls = []
  ahead : w.stop = none → (w.visits.length : Int) ≤ w.visitedJumps.length * s.size + w.offset
  length_le : w.visits.length ≤ (w.visitedJumps.length + 1) * s.size

namespace Paced

theorem begin (hstart : s.Contains w.offset) (hcalls : w.calls = []) (hvisits : w.visits = []) :
    w.Paced s where
  calls := hcalls
  ahead _ := by
    have h0 := hstart.1
    simpa [visitedJumps, hvisits] using h0
  length_le := by simp [hvisits]

variable (hagree : s.Agrees t) (ho : t.Contains w.offset) (hrun : w.stop = none)
  (hcall : t.peek w.offset ∉ Opcode.calls) (h : w.Paced s)

include hrun hcall h

/-- Without calls there is nothing to return from: a walk that goes on goes on where its visit
leads. -/
theorem next_successor : (w.successor t).calls = [] ∧
    ((w.successor t).stop = none → (w.successor t).offset = (w.visit t).next) := by
  have hmoves : w.Moves t (w.successor t) := moves_successor hrun
  cases hmoves with
  | unmatchedRestore _ hstop hkept =>
    refine ⟨hkept.trans h.calls, fun hgoes => ?_⟩
    rw [hgoes] at hstop
    cases hstop
  | unmatchedReturn _ _ hstop hnone =>
    refine ⟨hnone, fun hgoes => ?_⟩
    rw [hgoes] at hstop
    cases hstop
  | back _ hback _ =>
    rw [h.calls] at hback
    cases hback
  | call hop _ _ => exact absurd hop hcall
  | next _ _ hoffset hkept => exact ⟨hkept.trans h.calls, fun _ => hoffset⟩

include hagree ho

theorem step : (w.successor t).Paced s := by
  have hbefore := h.ahead hrun
  have hinside := (hagree.contains.1 ho).2
  have hlength : (w.successor t).visits.length = w.visits.length + 1 := by
    rw [visits_successor, List.length_cons]
  have hjumps := visitedJumps_successor w t
  have hall : (w.visits.length : Int) + 1 ≤ (w.visitedJumps.length + 1) * s.size := by
    rw [Int.add_mul]
    omega
  obtain ⟨hcalls, hoffset⟩ := h.next_successor hrun hcall
  by_cases hjump : t.peek w.offset ∈ Opcode.jumps
  · rw [if_pos hjump] at hjumps
    refine ⟨hcalls, fun hgoes => ?_, ?_⟩
    · -- The jump stands for all visits since the jump before it, wherever it leads.
      have hnonneg := (successor_of_running hgoes).2.2.2.1
      rw [hlength, hjumps, List.length_cons]
      push_cast
      omega
    · rw [hlength, hjumps, List.length_cons, Nat.add_mul]
      exact Nat.le_add_right_of_le (by exact_mod_cast hall)
  · rw [if_neg hjump] at hjumps
    refine ⟨hcalls, fun hgoes => ?_, ?_⟩
    · have hbehind : w.offset < (w.visit t).next := by
        have hnext := (Store.leads_visit hagree ho).next
        rw [if_neg (show (w.visit t).opcode ∉ Opcode.jumps from hjump)] at hnext
        exact hnext ▸ (w.visit t).offset_lt_behind
      rw [hlength, hjumps, hoffset hgoes]
      omega
    · rw [hlength, hjumps]
      exact_mod_cast hall

end Paced

end Pace

section Bound

/-- What holds of a walk in the image of `s` and of its store. -/
structure Measured (s : Store) (w : Walk) (t : Store) : Prop where
  agrees : s.Agrees t
  valid : t.Valid
  inside : w.stop = none → t.Contains w.offset
  leads : ∀ v ∈ w.visits, s.Leads v
  once : w.SeesOnce
  paced : (∀ v ∈ w.visits, v.opcode ∉ Opcode.calls) → w.Paced s

namespace Measured

theorem begin {start : Int} (hs : s.Valid) (hstart : s.Contains start) :
    Measured s (Walk.start start) s where
  agrees := Store.Agrees.refl s
  valid := hs
  inside _ := hstart
  leads _ hv := by cases hv
  once := SeesOnce.begin start
  paced _ := Paced.begin hstart rfl rfl

theorem step (ho : t.Contains w.offset) (hrun : w.stop = none)
    (hnew : ¬ w.seen.contains w.offset) (h : Measured s w t) :
    Measured s (w.successor t) (w.storeAfter t) where
  agrees := h.agrees.trans (agrees_storeAfter w t)
  valid := valid_storeAfter h.valid
  inside hgoes := (successor_of_running hgoes).2.2.2
  leads v hv := by
    rw [visits_successor, List.mem_cons] at hv
    rcases hv with rfl | hv
    · exact Store.leads_visit h.agrees ho
    · exact h.leads v hv
  once := h.once.step hnew
  paced hcalls := by
    rw [visits_successor, List.forall_mem_cons] at hcalls
    exact (h.paced hcalls.2).step h.agrees ho hrun hcalls.1

theorem seen (h : Measured s w t) : Measured s (w.halt .alreadyVisited w.offset) t where
  agrees := h.agrees
  valid := h.valid
  inside hgoes := by cases hgoes
  leads := h.leads
  once := ⟨h.once.seen, h.once.nodup⟩
  paced hcalls := by
    obtain ⟨hnone, -, hlength⟩ := h.paced hcalls
    exact ⟨hnone, fun hgoes => (by cases hgoes), hlength⟩

/-- A walk stays measured, and forgets no visit. -/
theorem run (n : Nat) (hrun : w.stop = none) (h : Measured s w t) :
    ∃ w' t', Walk.run n w t = .ok w' t' ∧ Measured s w' t' ∧ ∀ v ∈ w.visits, v ∈ w'.visits := by
  refine run_keeps_unseen ?_ ?_ n h.valid (h.inside hrun) hrun ⟨h, fun _ hv => hv⟩
  · rintro w' t' - ho hgoes hnew ⟨h', hvisits⟩
    refine ⟨h'.step ho hgoes hnew, fun v hv => ?_⟩
    rw [visits_successor]
    exact List.mem_cons_of_mem _ (hvisits v hv)
  · rintro w' t' - ⟨h', hvisits⟩
    exact ⟨h'.seen, hvisits⟩

/-- Each jump of the image is visited at most once. -/
theorem length_visitedJumps_le (h : Measured s w t) :
    w.visitedJumps.length ≤ s.jumpOffsets.card := by
  have hnodup : w.visitedJumps.Nodup := by
    refine h.once.nodup.sublist ((List.monotone_filter_right _ fun v hv => ?_).map _)
    exact decide_eq_true (Or.inl (of_decide_eq_true hv))
  rw [← List.toFinset_card_of_nodup hnodup]
  apply Finset.card_le_card
  intro offset hmem
  obtain ⟨v, hv, rfl⟩ := List.mem_map.1 (List.mem_toFinset.1 hmem)
  obtain ⟨hvisited, hop⟩ := List.mem_filter.1 hv
  have hleads := h.leads v hvisited
  rw [Store.mem_jumpOffsets, ← hleads.opcode]
  exact ⟨hleads.contains, of_decide_eq_true hop⟩

theorem mul_le_walkBound (h : Measured s w t) :
    (w.visitedJumps.length + 1) * s.size ≤ s.walkBound :=
  Nat.mul_le_mul_right _ (Nat.add_le_add_right h.length_visitedJumps_le 1)

variable (h : Measured s w t) (hcalls : ∀ v ∈ w.visits, v.opcode ∉ Opcode.calls)

include h hcalls

theorem length_le : w.visits.length ≤ s.walkBound :=
  (h.paced hcalls).length_le.trans h.mul_le_walkBound

theorem length_lt (hrun : w.stop = none) : w.visits.length < s.walkBound := by
  have hahead := (h.paced hcalls).ahead hrun
  have hinside := (h.agrees.contains.1 (h.inside hrun)).2
  have hbound := h.mul_le_walkBound
  rw [Nat.add_mul] at hbound
  omega

end Measured

end Bound

end Walk

section Walks

variable {s : Store} {start : Int}

/-- Without calls a walk has ended when it reaches the bound, and more room changes nothing. -/
theorem StoreM.walk_of_bound (hs : s.Valid) (hstart : s.Contains start) {limit : Int}
    (hlimit : s.walkBound ≤ limit) :
    ∃ w t, walk start limit s = .ok w t ∧ w.Measured s t ∧
      ((∀ v ∈ w.visits, v.opcode ∉ Opcode.calls) → w.stop.isSome ∧
        ∀ limit' : Int, s.walkBound ≤ limit' → walk start limit' s = .ok w t) := by
  obtain ⟨w₀, t₀, hrun₀, h₀, -⟩ := (Walk.Measured.begin hs hstart).run s.walkBound rfl
  have hsplit (limit' : Int) (hle : s.walkBound ≤ limit') :
      walk start limit' s =
        Walk.run (s.walkBound + (limit'.toNat - s.walkBound)) (Walk.start start) s := by
    rw [Nat.add_sub_cancel' (by omega)]
    rfl
  rcases Walk.run_add hs hstart rfl hrun₀ with ⟨hends, hsame⟩ | ⟨hgoes, hlength, hmore⟩
  · have hall (limit' : Int) (hle : s.walkBound ≤ limit') : walk start limit' s = .ok w₀ t₀ :=
      (hsplit limit' hle).trans (hsame _)
    exact ⟨w₀, t₀, hall limit hlimit, h₀, fun _ => ⟨hends, hall⟩⟩
  · -- A walk that is still going has visited a call already.
    obtain ⟨w, t, hrun, h, hvisits⟩ := h₀.run (limit.toNat - s.walkBound) hgoes
    refine ⟨w, t, (hsplit limit hlimit).trans ((hmore _).trans hrun), h, fun hcalls => ?_⟩
    have hlt := h₀.length_lt (fun v hv => hcalls v (hvisits v hv)) hgoes
    have hfull : w₀.visits.length = 0 + s.walkBound := hlength
    omega

/--
No jump and no branch is visited twice. A walk that visits no call ends by itself within as many
instructions as the image has bytes, counted once for each jump of the image and once more; with any
limit from there on it ends at the same offset and leaves the same project.
-/
theorem ProjectM.walk_ends {p : Project} (hs : p.store.Valid) (hstart : p.store.Contains start)
    {limit : Int} (hlimit : p.store.walkBound ≤ limit) :
    ∃ w t, StoreM.walk start limit p.store = .ok w t ∧
      ((w.visits.filter (·.IsTransfer)).map Visit.offset).Nodup ∧
      ((∀ v ∈ w.visits, v.opcode ∉ Opcode.calls) →
        w.stop.isSome ∧ w.visits.length ≤ p.store.walkBound ∧
        ∃ q : Project, q.store = t ∧ ∀ limit' : Int, p.store.walkBound ≤ limit' →
          walk start limit' p = .ok w.offset q) := by
  obtain ⟨w, t, hrun, h, hends⟩ := StoreM.walk_of_bound hs hstart hlimit
  refine ⟨w, t, hrun, h.once.nodup, fun hcalls => ?_⟩
  obtain ⟨hstop, hsame⟩ := hends hcalls
  exact ⟨hstop, h.length_le hcalls, _, Project.store_follow _ _,
    fun limit' hlimit' => walk_of_run (hsame limit' hlimit')⟩

/-- The branch goes back into the operand of the load before it, and is not taken again. -/
theorem ProjectM.walk_ends_overlap :
    let s : Store := ⟨#[0xA9, 0xEA, 0xEA, 0x80, 0xFC], .loRom, .slow, Array.replicate 5 {}, {}, {}⟩
    let p : Project := { store := s }
    s.Valid ∧ s.Contains 0 ∧ s.walkBound = 10 ∧
      ∃ w t q, StoreM.walk 0 11 s = .ok w t ∧
        w.visits.reverse.map (fun v => (v.offset, v.opcode)) =
          [(0, 0xA9), (3, 0x80), (1, 0xEA), (2, 0xEA)] ∧
        walk 0 11 p = .ok 3 q ∧ walk 0 1000000 p = .ok 3 q := by
  intro s p
  have hcreate : Store.create #[0xA9, 0xEA, 0xEA, 0x80, 0xFC] .loRom .slow = .ok s := rfl
  have hs := Store.valid_create hcreate
  have hstart : s.Contains 0 := by decide
  have hbound : s.walkBound = 10 := by decide +kernel
  obtain ⟨w, t, hrun, -, hends⟩ := @walk_ends 0 p hs hstart 11 (by rw [hbound]; decide)
  have hvisits : (match StoreM.walk 0 11 s with
      | .ok w _ => (w.offset, w.visits.reverse.map fun v => (v.offset, v.opcode))
      | .error _ _ => (0, [])) = (3, [(0, 0xA9), (3, 0x80), (1, 0xEA), (2, 0xEA)]) := by
    decide +kernel
  have hrun : StoreM.walk 0 11 s = .ok w t := hrun
  rw [hrun] at hvisits
  obtain ⟨hoffset, hvisits⟩ := Prod.mk.inj hvisits
  have hcalls : ∀ v ∈ w.visits, v.opcode ∉ Opcode.calls := by
    have hnone : ∀ visit ∈ w.visits.reverse.map (fun v => (v.offset, v.opcode)),
        visit.2 ∉ Opcode.calls := by
      rw [hvisits]
      simp only [List.forall_mem_cons, List.not_mem_nil, false_implies, implies_true, and_true]
      decide
    exact fun v hv => hnone _ (List.mem_map_of_mem (List.mem_reverse.2 hv))
  obtain ⟨-, -, q, -, hlimits⟩ := hends hcalls
  rw [hoffset] at hlimits
  exact ⟨hs, hstart, hbound, w, t, q, hrun, hvisits, hlimits 11 (by rw [hbound]; decide),
    hlimits 1000000 (by rw [hbound]; decide)⟩

end Walks

end Disassembly

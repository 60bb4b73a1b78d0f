import Disassembly.Proofs.Analysis.Footprint
import Disassembly.Proofs.Analysis.Nesting

/-!
Where a walk goes on behind each instruction that it visits. The calls that a walk keeps are the
offsets behind its open calls, so a return goes on behind the newest of them. Every call is kept,
also one whose target lies outside the image: it is not entered but passed by, and still the next
return goes back behind it.
-/
namespace Disassembly

namespace Opcode

theorem not_mem_calls_of_returns {op : UInt8} (h : op ∈ returns) : op ∉ calls := by
  simp only [returns, List.mem_cons, List.not_mem_nil, or_false] at h
  rcases h with rfl | rfl
  · decide
  · decide

theorem mem_flows_of_calls {op : UInt8} (h : op ∈ calls) : op ∈ flows :=
  List.mem_append_right _ h

theorem followsTarget_of_calls {op : UInt8} (h : op ∈ calls) :
    followsTarget op false false = false ∧ followsTarget op true false = true := by
  simp only [calls, List.mem_cons, List.not_mem_nil, or_false] at h
  rcases h with rfl | rfl
  · decide
  · decide

end Opcode

/-- Where control goes on behind the visit `u`, which came after the visits `before`. -/
inductive GoesOn (s : Store) (before : List Visit) (u : Visit) : Int → Prop
  | back {call : Visit} : u.opcode ∈ Opcode.returns →
    LastOpen Opcode.calls Opcode.returns before call → GoesOn s before u call.behind
  | enter {target : Int} : u.opcode ∈ Opcode.calls →
    s.targetAt u.offset = .ok (some target) → GoesOn s before u target
  | pass : u.opcode ∈ Opcode.calls → s.targetAt u.offset = .ok none →
    GoesOn s before u u.behind
  | next : u.opcode ∉ Opcode.returns → u.opcode ∉ Opcode.calls → GoesOn s before u u.next

section Leading

variable {s : Store} {before : List Visit} {u : Visit} {offset : Int}

theorem GoesOn.of_return (h : GoesOn s before u offset) (hop : u.opcode ∈ Opcode.returns) :
    ∃ call, LastOpen Opcode.calls Opcode.returns before call ∧ offset = call.behind := by
  cases h with
  | back _ hopen => exact ⟨_, hopen, rfl⟩
  | enter hcall _ => exact absurd hcall (Opcode.not_mem_calls_of_returns hop)
  | pass hcall _ => exact absurd hcall (Opcode.not_mem_calls_of_returns hop)
  | next hreturn _ => exact absurd hop hreturn

theorem GoesOn.of_call (h : GoesOn s before u offset) (hop : u.opcode ∈ Opcode.calls) :
    s.targetAt u.offset = .ok (some offset) ∨
      s.targetAt u.offset = .ok none ∧ offset = u.behind := by
  cases h with
  | back hreturn _ => exact absurd hop (Opcode.not_mem_calls_of_returns hreturn)
  | enter _ htarget => exact Or.inl htarget
  | pass _ htarget => exact Or.inr ⟨htarget, rfl⟩
  | next _ hcall => exact absurd hop hcall

theorem GoesOn.of_other (h : GoesOn s before u offset) (hreturn : u.opcode ∉ Opcode.returns)
    (hcall : u.opcode ∉ Opcode.calls) : offset = u.next := by
  cases h with
  | back hop _ => exact absurd hop hreturn
  | enter hop _ => exact absurd hop hcall
  | pass hop _ => exact absurd hop hcall
  | next _ _ => rfl

end Leading

/-- Visits, the newest first, each of which lies where the one before it leads, and the offset to
which the newest leads. -/
inductive Trail (s : Store) : List Visit → Int → Prop
  | start {offset : Int} : Trail s [] offset
  | visit {u : Visit} {earlier : List Visit} {offset : Int} :
    Trail s earlier u.offset → GoesOn s earlier.reverse u offset → Trail s (u :: earlier) offset

theorem Trail.of_append {s : Store} {later earlier : List Visit} {v : Visit} {offset : Int}
    (h : Trail s (later ++ v :: earlier) offset) : Trail s earlier v.offset := by
  induction later generalizing offset with
  | nil =>
    cases h with
    | visit hearlier _ => exact hearlier
  | cons u later ih =>
    cases h with
    | visit hrest _ => exact ih hrest

namespace Walk

variable {s t : Store} {w : Walk}

/-- The walk ended at an instruction that it visited, for want of a save or of a call. -/
def EndsThere (w : Walk) : Prop :=
  ∃ reason offset, w.stop = some ⟨reason, offset⟩ ∧
    (reason = .unmatchedRestore ∨ reason = .unmatchedReturn)

/-- The walk visited `before`, the oldest first, then `u`, and went on to `next`. -/
def GoesFrom (w : Walk) (before : List Visit) (u : Visit) (next : Int) : Prop :=
  (∃ v after, w.visits.reverse = before ++ u :: v :: after ∧ v.offset = next) ∨
    w.visits.reverse = before ++ [u] ∧ w.offset = next ∧ ¬ w.EndsThere

theorem GoesFrom.visits {before : List Visit} {u : Visit} {next : Int}
    (h : w.GoesFrom before u next) : ∃ after, w.visits.reverse = before ++ u :: after := by
  rcases h with ⟨v, after, hvisits, -⟩ | ⟨hvisits, -⟩
  · exact ⟨v :: after, hvisits⟩
  · exact ⟨[], hvisits⟩

/-- What holds of a walk and its store: the image is that of `s`, the calls are those still open,
and the visits lead one to the next. -/
structure Trailed (s : Store) (w : Walk) (t : Store) : Prop where
  agrees : s.Agrees t
  calls : w.calls = (stillOpen Opcode.calls Opcode.returns w.visits).map Visit.behind
  trail : ∀ u earlier, w.visits = u :: earlier → Trail s earlier u.offset
  onward : ¬ w.EndsThere → Trail s w.visits w.offset

theorem next_visit_of_call (hop : s.peek w.offset ∈ Opcode.calls) :
    (w.visit s).next = (w.visit s).behind := by
  have hpassed := (Opcode.followsTarget_of_calls hop).1
  change (s.decoding w.offset false false w.prev).next = _
  simp only [Store.decoding, hpassed, Bool.false_eq_true, if_false]
  rfl

theorem goesOn_call (hagree : s.Agrees t) (ho : t.Contains w.offset)
    (hop : t.peek w.offset ∈ Opcode.calls) (before : List Visit) :
    GoesOn s before (w.visit t) (t.decoding w.offset true false w.prev).next := by
  have htaken := (Opcode.followsTarget_of_calls hop).2
  have hflow : s.peek w.offset ∈ Opcode.flows := by
    rw [← hagree.peek]
    exact Opcode.mem_flows_of_calls hop
  have htarget := (hagree.trans (Store.agrees_own t w.offset
    (t.decodingContext w.offset w.prev))).target?_of_flow hflow
  simp only [Store.decoding, htaken, if_true, htarget]
  change GoesOn s before (w.visit t) ((s.target? w.offset).getD (w.visit t).behind)
  rcases Store.targetAt_getD (hagree.contains.1 ho) (w.visit t).behind with
    hread | ⟨hread, hbehind⟩
  · exact GoesOn.enter hop hread
  · rw [hbehind]
    exact GoesOn.pass hop hread

theorem not_endsThere_of_running (hrun : w.stop = none) : ¬ w.EndsThere := by
  rintro ⟨reason, offset, hstop, -⟩
  rw [hrun] at hstop
  cases hstop

namespace Trailed

theorem begin (s : Store) (start : Int) : Trailed s (Walk.start start) s where
  agrees := Store.Agrees.refl s
  calls := rfl
  trail _ _ hvisits := by cases hvisits
  onward _ := Trail.start

theorem calls_successor (hrun : w.stop = none) (h : Trailed s w t) :
    (w.successor t).calls =
      (stillOpen Opcode.calls Opcode.returns (w.successor t).visits).map Visit.behind := by
  have hmoves : w.Moves t (w.successor t) := moves_successor hrun
  rw [visits_successor]
  cases hmoves with
  | unmatchedRestore hop _ hkept =>
    have hop : (w.visit t).opcode = Opcode.plp := hop
    rw [hkept, stillOpen_other w.visits (by rw [hop]; decide) (by rw [hop]; decide)]
    exact h.calls
  | unmatchedReturn hop hnone _ hkept =>
    rw [hkept, stillOpen_close w.visits (Opcode.not_mem_calls_of_returns hop) hop, List.map_tail,
      ← h.calls, hnone]
    rfl
  | back hop hback hrest =>
    rw [hrest, stillOpen_close w.visits (Opcode.not_mem_calls_of_returns hop) hop, List.map_tail,
      ← h.calls, hback]
    rfl
  | call hop _ hpush =>
    rw [hpush, stillOpen_open w.visits hop, next_visit_of_call hop, h.calls]
    rfl
  | next hreturn hcall _ hkept =>
    rw [hkept, stillOpen_other w.visits hcall hreturn]
    exact h.calls

theorem goesOn_successor (ho : t.Contains w.offset) (hrun : w.stop = none) (h : Trailed s w t)
    (hends : ¬ (w.successor t).EndsThere) :
    GoesOn s w.visits.reverse (w.visit t) (w.successor t).offset := by
  have hmoves : w.Moves t (w.successor t) := moves_successor hrun
  cases hmoves with
  | unmatchedRestore _ hstop _ => exact absurd ⟨_, _, hstop, Or.inl rfl⟩ hends
  | unmatchedReturn _ _ hstop _ => exact absurd ⟨_, _, hstop, Or.inr rfl⟩ hends
  | back hop hback _ =>
    rw [h.calls] at hback
    obtain ⟨call, others, hopen, hcall, -⟩ := List.map_eq_cons_iff.1 hback
    rw [← hcall]
    exact GoesOn.back hop (lastOpen_of_stillOpen hopen)
  | call hop hoffset _ =>
    rw [hoffset]
    exact goesOn_call h.agrees ho hop _
  | next hreturn hcall hoffset _ =>
    rw [hoffset]
    exact GoesOn.next hreturn hcall

theorem step (ho : t.Contains w.offset) (hrun : w.stop = none) (h : Trailed s w t) :
    Trailed s (w.successor t) (w.storeAfter t) where
  agrees := h.agrees.trans (agrees_storeAfter w t)
  calls := h.calls_successor hrun
  trail u earlier hvisits := by
    rw [visits_successor] at hvisits
    obtain ⟨rfl, rfl⟩ := List.cons.inj hvisits
    exact h.onward (not_endsThere_of_running hrun)
  onward hends := by
    rw [visits_successor]
    exact Trail.visit (h.onward (not_endsThere_of_running hrun))
      (h.goesOn_successor ho hrun hends)

theorem seen (hrun : w.stop = none) (h : Trailed s w t) :
    Trailed s (w.halt .alreadyVisited w.offset) t where
  agrees := h.agrees
  calls := h.calls
  trail := h.trail
  onward _ := h.onward (not_endsThere_of_running hrun)

/-- From each visit the walk has gone on to where the visit leads. -/
theorem goesOn (h : Trailed s w t) {before : List Visit} {u : Visit} {next : Int}
    (hgoes : w.GoesFrom before u next) : GoesOn s before u next := by
  have hreverse {visits : List Visit} (hvisits : w.visits.reverse = visits) :
      w.visits = visits.reverse := by
    rw [← hvisits, List.reverse_reverse]
  have htrail : Trail s (u :: before.reverse) next := by
    rcases hgoes with ⟨v, after, hvisits, rfl⟩ | ⟨hvisits, rfl, hends⟩
    · have hvisits : w.visits = after.reverse ++ v :: u :: before.reverse := by
        simpa using hreverse hvisits
      cases hlater : after.reverse with
      | nil =>
        rw [hlater] at hvisits
        exact h.trail v _ hvisits
      | cons x later =>
        rw [hlater] at hvisits
        exact (h.trail x _ hvisits).of_append
    · have hvisits : w.visits = u :: before.reverse := by simpa using hreverse hvisits
      rw [← hvisits]
      exact h.onward hends
  cases htrail with
  | visit _ hgoes => rwa [List.reverse_reverse] at hgoes

end Trailed

end Walk

section Walks

variable {s : Store} {start : Int}

theorem StoreM.walk_trailed (hs : s.Valid) (hstart : s.Contains start) (limit : Int) :
    ∃ w t, walk start limit s = .ok w t ∧ w.Trailed s t :=
  Walk.run_keeps (fun _ _ _ ho hrun h => h.step ho hrun) (fun _ _ hrun h => h.seen hrun)
    limit.toNat hs hstart rfl (Walk.Trailed.begin s start)

/--
A return goes on behind the newest call that has no return yet. If the target of that call lies in
the image, the call was entered; if not, it was passed by and takes the return all the same.
-/
theorem StoreM.walk_returns_behind_calls (hs : s.Valid) (hstart : s.Contains start)
    (limit : Int) :
    ∃ w t, walk start limit s = .ok w t ∧ ∀ before u next, w.GoesFrom before u next →
      u.opcode ∈ Opcode.returns →
      ∃ earlier call between first rest, before = earlier ++ call :: between ∧
        call.opcode ∈ Opcode.calls ∧
        Nested Opcode.calls Opcode.returns (between.map Visit.opcode) ∧ next = call.behind ∧
        between ++ [u] = first :: rest ∧
        (s.targetAt call.offset = .ok (some first.offset) ∨
          s.targetAt call.offset = .ok none ∧ first.offset = call.behind) := by
  obtain ⟨w, t, hrun, htrailed⟩ := walk_trailed hs hstart limit
  refine ⟨w, t, hrun, ?_⟩
  intro before u next hgoes hop
  obtain ⟨call, ⟨earlier, between, hbefore, hcall, hnested⟩, hnext⟩ :=
    (htrailed.goesOn hgoes).of_return hop
  obtain ⟨after, hvisits⟩ := hgoes.visits
  obtain ⟨first, rest, hfirst⟩ := List.exists_cons_of_ne_nil
    (List.append_ne_nil_of_right_ne_nil between (List.cons_ne_nil u []))
  -- The visit after the call tells whether the call was entered.
  have hentered : w.GoesFrom earlier call first.offset := by
    have hbehind : between ++ u :: after = first :: (rest ++ after) := by
      rw [← List.cons_append, ← hfirst, List.append_assoc]
      rfl
    refine Or.inl ⟨first, rest ++ after, ?_, rfl⟩
    rw [hvisits, hbefore, List.append_assoc, List.cons_append, hbehind]
  exact ⟨earlier, call, between, first, rest, hbefore, hcall, hnested, hnext, hfirst,
    (htrailed.goesOn hentered).of_call hcall⟩

/-- A call within a call: the outer return goes back behind the outer call. -/
theorem StoreM.walk_returns_behind_calls_nested :
    let s : Store := ⟨#[0x20, 0x05, 0x80, 0xDB, 0xEA, 0x22, 0x0A, 0x80, 0x00, 0x60, 0x6B],
      .loRom, .slow, Array.replicate 11 {}, {}, {}⟩
    s.Valid ∧ s.Contains 0 ∧ ∃ w t before u, walk 0 8 s = .ok w t ∧ w.GoesFrom before u 3 ∧
      u.opcode = Opcode.rts ∧
      ∃ call, LastOpen Opcode.calls Opcode.returns before call ∧ call.behind = 3 := by
  intro s
  have hcreate : Store.create
      #[0x20, 0x05, 0x80, 0xDB, 0xEA, 0x22, 0x0A, 0x80, 0x00, 0x60, 0x6B] .loRom .slow =
      .ok s := rfl
  have hs := Store.valid_create hcreate
  have hstart : s.Contains 0 := by decide
  obtain ⟨w, t, hrun, hreturns⟩ := walk_returns_behind_calls hs hstart 8
  have hvisits : (match walk 0 8 s with
      | .ok w _ => w.visits.reverse.map fun v => (v.offset, v.opcode)
      | .error _ _ => []) =
      [(0, Opcode.jsr), (5, Opcode.jsl), (10, Opcode.rtl), (9, Opcode.rts), (3, 0xDB)] := by
    decide +kernel
  rw [hrun] at hvisits
  simp only [List.map_eq_cons_iff, Prod.mk.injEq, List.map_eq_nil_iff] at hvisits
  obtain ⟨v₁, _, hsplit, -, v₂, _, rfl, -, v₃, _, rfl, -, u, _, rfl, hu, v₅, _, rfl, hlast, -⟩ :=
    hvisits
  have hgoes : w.GoesFrom [v₁, v₂, v₃] u 3 := Or.inl ⟨v₅, _, hsplit, hlast.1⟩
  obtain ⟨earlier, call, between, -, -, hbefore, hcall, hnested, hnext, -⟩ :=
    hreturns _ u 3 hgoes (by rw [hu.2]; decide)
  exact ⟨hs, hstart, w, t, _, u, hrun, hgoes, hu.2, call,
    ⟨earlier, between, hbefore, hcall, hnested⟩, hnext.symm⟩

/-- The target of this call is no byte of the image, so it is passed by; behind it a return without
any call that was entered goes back to it. -/
theorem StoreM.walk_returns_behind_passed_call :
    let s : Store := ⟨#[0x20, 0x00, 0x00, 0xEA, 0x60], .loRom, .slow, Array.replicate 5 {}, {}, {}⟩
    s.targetAt 0 = .ok none ∧ ∃ w t, walk 0 4 s = .ok w t ∧
      w.visits.reverse.map (fun v => (v.offset, v.opcode)) =
        [(0, Opcode.jsr), (3, 0xEA), (4, Opcode.rts), (3, 0xEA)] := by
  intro s
  have hs := Store.valid_create (show Store.create #[0x20, 0x00, 0x00, 0xEA, 0x60] .loRom .slow =
    .ok s from rfl)
  have hstart : s.Contains 0 := by decide
  obtain ⟨w, t, hrun, -⟩ := walk_trailed hs hstart 4
  have hvisits : (match walk 0 4 s with
      | .ok w _ => w.visits.reverse.map fun v => (v.offset, v.opcode)
      | .error _ _ => []) =
      [(0, Opcode.jsr), (3, 0xEA), (4, Opcode.rts), (3, 0xEA)] := by decide +kernel
  rw [hrun] at hvisits
  have htarget : s.targetAt 0 = .ok none := by
    have hnone : s.target? 0 = none := by decide +kernel
    rw [Store.targetAt_of_contains hstart, hnone]
  exact ⟨htarget, w, t, hrun, hvisits⟩

end Walks

end Disassembly

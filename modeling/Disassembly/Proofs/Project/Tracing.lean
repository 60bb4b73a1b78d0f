import Disassembly.Proofs.Project.Reporting

/-!
Tracing. No operation reads recorder and diagnostics, also not between the steps in which it writes
them: what it returns, how it fails and what it leaves in the store depend on the store alone. A
walk decodes every instruction twice, and a recorder receives one entry for both decodings.
-/
namespace Disassembly

/-- What an operation returns, or the fault by which it fails. -/
def outcome {σ α : Type} : EStateM.Result Fault σ α → Except Fault α
  | .ok a _ => .ok a
  | .error e _ => .error e

/--
On projects with one store the operation ends in the same way and leaves one store, whatever their
recorders, channels and logs are.
-/
def IgnoresTracing {α : Type} (act : ProjectM α) : Prop :=
  ∀ p q : Project, p.store = q.store →
    outcome (act p) = outcome (act q) ∧ (finalState (act p)).store = (finalState (act q)).store

namespace IgnoresTracing

variable {α β : Type} {act other : ProjectM α} {next : α → ProjectM β}

theorem pure (a : α) : IgnoresTracing (Pure.pure a : ProjectM α) := fun _ _ h => ⟨rfl, h⟩

theorem bind (ha : IgnoresTracing act) (hn : ∀ a, IgnoresTracing (next a)) :
    IgnoresTracing (act >>= next) := by
  intro p q hstore
  obtain ⟨hends, hleft⟩ := ha p q hstore
  cases hp : act p with
  | ok a p' =>
    cases hq : act q with
    | ok b q' =>
      rw [hp, hq] at hends hleft
      obtain rfl := Except.ok.inj hends
      rw [bind_of_ok hp, bind_of_ok hq]
      exact hn a p' q' hleft
    | error e q' =>
      rw [hp, hq] at hends
      cases hends
  | error e p' =>
    cases hq : act q with
    | ok b q' =>
      rw [hp, hq] at hends
      cases hends
    | error f q' =>
      rw [hp, hq] at hends hleft
      obtain rfl := Except.error.inj hends
      rw [bind_of_error hp, bind_of_error hq]
      exact ⟨rfl, hleft⟩

theorem ite {c : Prop} [Decidable c] (ha : IgnoresTracing act) (ho : IgnoresTracing other) :
    IgnoresTracing (if c then act else other) := by
  split
  · exact ha
  · exact ho

/-- An operation on the store sees the store only. -/
theorem onStore (act : StoreM α) : IgnoresTracing (ProjectM.onStore act) := by
  have hruns (p : Project) : outcome (ProjectM.onStore act p) = outcome (act p.store) ∧
      (finalState (ProjectM.onStore act p)).store = finalState (act p.store) := by
    obtain ⟨store, title, recorder, channels, log⟩ := p
    simp only [ProjectM.onStore]
    cases act store <;> exact ⟨rfl, rfl⟩
  intro p q hstore
  rw [(hruns p).1, (hruns p).2, (hruns q).1, (hruns q).2, hstore]
  exact ⟨rfl, rfl⟩

theorem report (events : List Event) : IgnoresTracing (ProjectM.report events) :=
  fun _ _ h => ⟨rfl, h⟩

theorem follow (visits : List Visit) : IgnoresTracing (ProjectM.follow visits) := by
  intro p q h
  refine ⟨rfl, ?_⟩
  change (p.follow visits).store = (q.follow visits).store
  rw [Project.store_follow, Project.store_follow, h]

theorem recordVisit (v : Visit) : IgnoresTracing (ProjectM.recordVisit v) := by
  intro p q h
  refine ⟨rfl, ?_⟩
  change (p.recordVisits [v]).store = (q.recordVisits [v]).store
  rw [Project.store_recordVisits, Project.store_recordVisits, h]

section Analyses

theorem step (offset : Int) (branch force : Bool) (prev : Int) :
    IgnoresTracing (ProjectM.step offset branch force prev) :=
  (onStore _).bind fun _ => (report _).bind fun _ => pure _

theorem markFlow (offset : Int) : IgnoresTracing (ProjectM.markFlow offset) :=
  (onStore _).bind fun _ => report _

theorem sweep (start behind : Int) : IgnoresTracing (ProjectM.sweep start behind) :=
  (onStore _).bind fun _ => (follow _).bind fun _ => pure _

theorem walk (offset limit : Int) : IgnoresTracing (ProjectM.walk offset limit) :=
  (onStore _).bind fun _ => (follow _).bind fun _ => (report _).bind fun _ => pure _

theorem rescan : IgnoresTracing ProjectM.rescan :=
  (onStore _).bind fun _ => (report _).bind fun _ => pure _

theorem repair : IgnoresTracing ProjectM.repair :=
  (onStore _).bind fun _ => (report _).bind fun _ => pure _

theorem seedVectors (label : Bool) : IgnoresTracing (ProjectM.seedVectors label) :=
  (onStore _).bind fun _ => (report _).bind fun _ => pure _

theorem walkAll (limit : Int) (entries : List VectorEntry) :
    IgnoresTracing (ProjectM.walkAll limit entries) := by
  induction entries with
  | nil => exact pure ()
  | cons entry rest ih =>
    exact ((walk entry.offset limit).bind fun _ => pure _).bind fun _ => ih

theorem analyzeVectors (limit : Int) : IgnoresTracing (ProjectM.analyzeVectors limit) :=
  (seedVectors true).bind fun entries => (walkAll limit entries).bind fun _ => pure _

end Analyses

theorem perform (a : Action) : IgnoresTracing a.perform := by
  have hedit (offset : Int) (f : Cell → Cell) : IgnoresTracing (Action.edit offset f) :=
    (onStore _).bind fun _ => pure _
  have hfill (offset count : Int) (f : Cell → Cell) :
      IgnoresTracing (Action.fill offset count f) := (onStore _).bind fun _ => pure _
  have hupdate (f : Store → Store) : IgnoresTracing (Action.update f) :=
    (onStore _).bind fun _ => pure _
  cases a with
  | setFlag | setDirectPage | setDataBank | setXFlag | setMFlag | setWidths | setContext
  | addMarks => exact hedit _ _
  | fillFlag | fillDirectPage | fillDataBank | fillXFlag | fillMFlag => exact hfill _ _ _
  | clearMarks | label | comment => exact hupdate _
  | step offset branch force prev => exact (step offset branch force prev).bind fun _ => pure _
  | markFlow offset => exact (markFlow offset).bind fun _ => pure _
  | sweep start behind => exact (sweep start behind).bind fun _ => pure _
  | analyze offset linear amount limit =>
    exact (ite (sweep _ _) (walk _ _)).bind fun _ => pure _
  | rescan => exact rescan.bind fun _ => pure _
  | repair => exact repair.bind fun _ => pure _
  | seedVectors named => exact (seedVectors named).bind fun _ => pure _
  | analyzeVectors limit => exact (analyzeVectors limit).bind fun _ => pure _

section Loops

theorem decodeReporting (offset : Int) (branch force : Bool) (prev : Int) :
    IgnoresTracing (ProjectM.decodeReporting offset branch force prev) :=
  (onStore _).bind fun _ => (report _).bind fun _ => pure _

theorem advanceSweep (w : Sweep) : IgnoresTracing w.advanceReporting :=
  (decodeReporting _ _ _ _).bind fun _ => (onStore _).bind fun _ =>
    (recordVisit _).bind fun _ => pure _

/-- A sweep that reports in each step does not see its reports in the next ones. -/
theorem runSweep (behind : Int) (n : Nat) (w : Sweep) :
    IgnoresTracing (w.runReporting behind n) := by
  induction n generalizing w with
  | zero => exact pure w
  | succ n ih => exact ite ((advanceSweep w).bind ih) (pure w)

theorem advanceWalk (w : Walk) : IgnoresTracing w.advanceReporting :=
  (decodeReporting _ _ _ _).bind fun _ => (decodeReporting _ _ _ _).bind fun _ =>
    (onStore _).bind fun _ => (recordVisit _).bind fun _ => onStore _

theorem runWalk (n : Nat) (w : Walk) : IgnoresTracing (w.runReporting n) := by
  induction n generalizing w with
  | zero => exact pure w
  | succ n ih =>
    refine ite ((report _).bind fun _ => pure _) ?_
    exact (advanceWalk w).bind fun w => (report _).bind fun _ => ite (pure w) (ih w)

theorem sweepReporting (start behind : Int) :
    IgnoresTracing (ProjectM.sweepReporting start behind) :=
  (onStore _).bind fun _ => (runSweep _ _ _).bind fun _ => pure _

theorem walkReporting (offset limit : Int) : IgnoresTracing (ProjectM.walkReporting offset limit) :=
  (runWalk _ _).bind fun _ => pure _

theorem markAllReporting (offsets : List Nat) :
    IgnoresTracing (ProjectM.markAllReporting offsets) := by
  induction offsets with
  | nil => exact pure ()
  | cons offset rest ih => exact (markFlow offset).bind fun _ => ih

theorem rescanReporting : IgnoresTracing ProjectM.rescanReporting :=
  (onStore _).bind fun _ => (onStore _).bind fun _ => (markAllReporting _).bind fun _ => pure _

theorem readReporting (table : List (String × Int)) :
    IgnoresTracing (ProjectM.readReporting table) := by
  induction table with
  | nil => exact pure []
  | cons v rest ih =>
    exact (onStore _).bind fun _ => (report _).bind fun _ => ih.bind fun _ => pure _

theorem seedVectorsReporting (label : Bool) :
    IgnoresTracing (ProjectM.seedVectorsReporting label) :=
  (readReporting _).bind fun _ => (onStore _).bind fun _ => pure _

theorem walkAllReporting (limit : Int) (entries : List VectorEntry) :
    IgnoresTracing (ProjectM.walkAllReporting limit entries) := by
  induction entries with
  | nil => exact pure ()
  | cons entry rest ih =>
    exact ((walkReporting entry.offset limit).bind fun _ => pure _).bind fun _ => ih

theorem analyzeVectorsReporting (limit : Int) :
    IgnoresTracing (ProjectM.analyzeVectorsReporting limit) :=
  (seedVectorsReporting true).bind fun entries =>
    (walkAllReporting limit entries).bind fun _ => pure _

end Loops

theorem performReporting (a : Action) : IgnoresTracing a.performReporting := by
  cases a with
  | sweep start behind => exact (sweepReporting start behind).bind fun _ => pure _
  | analyze offset linear amount limit =>
    exact (ite (sweepReporting _ _) (walkReporting _ _)).bind fun _ => pure _
  | rescan => exact rescanReporting.bind fun _ => pure _
  | seedVectors named => exact (seedVectorsReporting named).bind fun _ => pure _
  | analyzeVectors limit => exact (analyzeVectorsReporting limit).bind fun _ => pure _
  | _ =>
    simp only [Action.performReporting]
    exact perform _

end IgnoresTracing

/-- How a project is traced: by a recorder, if there is one, and on the enabled channels. -/
structure Tracing where
  recorder : Option Recorder
  channels : Channels

/-- An action, with a tracing of its own or with that of the project. -/
structure Call where
  action : Action
  tracing : Option Tracing := none

namespace Project

def traced (p : Project) : Option Tracing → Project
  | none => p
  | some tracing => { p with recorder := tracing.recorder, channels := tracing.channels }

/-- The outcomes of calls and the project behind them; failures do not end the run. -/
def callAll (perform : Action → ProjectM Reply) (p : Project) :
    List Call → List (Except Fault Reply) × Project
  | [] => ([], p)
  | c :: rest =>
    let result := perform c.action (p.traced c.tracing)
    let later := (finalState result).callAll perform rest
    (outcome result :: later.1, later.2)

@[simp] theorem store_traced (p : Project) (tracing : Option Tracing) :
    (p.traced tracing).store = p.store := by
  cases tracing <;> rfl

/-- Runs of the same actions on one store do not differ, however each call is traced. -/
theorem callAll_congr {perform : Action → ProjectM Reply}
    (hperform : ∀ a, IgnoresTracing (perform a)) {p q : Project} (hstore : p.store = q.store)
    {calls others : List Call} (hsame : calls.map Call.action = others.map Call.action) :
    (p.callAll perform calls).1 = (q.callAll perform others).1 ∧
      (p.callAll perform calls).2.store = (q.callAll perform others).2.store := by
  induction calls generalizing p q others with
  | nil =>
    obtain rfl := List.map_eq_nil_iff.1 hsame.symm
    exact ⟨rfl, hstore⟩
  | cons c rest ih =>
    obtain ⟨d, others, rfl, haction, hrest⟩ := List.map_eq_cons_iff.1 hsame.symm
    obtain ⟨hends, hleft⟩ := hperform c.action (p.traced c.tracing) (q.traced d.tracing)
      (by simpa using hstore)
    rw [← haction] at hends hleft
    obtain ⟨hreplies, hlast⟩ := ih hleft hrest.symm
    simp only [callAll, ← haction]
    exact ⟨by rw [hends, hreplies], hlast⟩

/-- Whether reports are made in the loops or behind them, log and recorder are the same. -/
theorem callAll_performReporting {p : Project} (hs : p.store.Valid) (calls : List Call) :
    p.callAll Action.performReporting calls = p.callAll Action.perform calls := by
  induction calls generalizing p with
  | nil => rfl
  | cons c rest ih =>
    have htraced : (p.traced c.tracing).store.Valid := by simpa using hs
    have hleft : (finalState (c.action.perform (p.traced c.tracing))).store.Valid :=
      Store.stable_valid.perform c.action _ htraced
    simp only [callAll, Action.performReporting_eq htraced, ih hleft]

end Project

/-- The trace entry of a decoding is that of a visit which it makes up. -/
def Decoded.entry (s : Store) (d : Decoded) : TraceEntry :=
  Project.entryOf s ⟨d.offset, d.opcode, d.context, d.next, [d]⟩

namespace Walk

variable {s : Store} {w : Walk}

/--
The decodings that a walk makes in at most `n` steps, in their order: of every instruction the one
that passes branches by and the one that takes them.
-/
def decodings : Nat → Walk → Store → List (Decoded × Decoded)
  | 0, _, _ => []
  | n + 1, w, s =>
    if w.seen.contains w.offset then []
    else
      match StoreM.decode w.offset false false w.prev s with
      | .error _ _ => []
      | .ok passed t =>
        match StoreM.decode w.offset true false w.prev t, w.advance s with
        | .ok taken _, .ok w' u =>
          (passed, taken) :: if w'.stop.isSome then [] else decodings n w' u
        | _, _ => []

theorem decodings_outside (n : Nat) (ho : ¬ s.Contains w.offset) : decodings n w s = [] := by
  cases n with
  | zero => rfl
  | succ n => simp [decodings, StoreM.decode_outside ho]

theorem decodings_of_seen (n : Nat) (hseen : w.seen.contains w.offset) :
    decodings n w s = [] := by
  cases n with
  | zero => rfl
  | succ n => exact if_pos hseen

theorem decodings_step_of_contains (n : Nat) (hs : s.Valid) (ho : s.Contains w.offset)
    (hnew : ¬ w.seen.contains w.offset) :
    decodings (n + 1) w s =
      (s.decoding w.offset false false w.prev, s.decoding w.offset true false w.prev) ::
        if (w.successor s).stop.isSome then []
        else decodings n (w.successor s) (w.storeAfter s) := by
  rw [decodings, if_neg hnew, StoreM.decode_of_contains hs ho]
  simp only [StoreM.decode_decoded hs ho, advance_of_contains hs ho]

/-- The visit that a pair of decodings makes. -/
def visitOf (d : Decoded × Decoded) : Visit :=
  ⟨d.1.offset, d.1.opcode, d.1.context, d.1.next, [d.1, d.2]⟩

/-- A walk remembers its decodings in their order, two in each visit. -/
theorem run_decodings (n : Nat) (hs : s.Valid) (ho : s.Contains w.offset) :
    ∃ w' t, run n w s = .ok w' t ∧ s.Agrees t ∧
      w'.visits.reverse = w.visits.reverse ++ (decodings n w s).map visitOf := by
  induction n generalizing w s with
  | zero => exact ⟨w, s, rfl, .refl s, by simp [decodings]⟩
  | succ n ih =>
    by_cases hseen : w.seen.contains w.offset
    · refine ⟨_, s, run_of_seen n hseen, .refl s, ?_⟩
      rw [decodings_of_seen _ hseen]
      simp [halt]
    · have hagrees := agrees_storeAfter w s
      have hvisits : (w.successor s).visits.reverse = w.visits.reverse ++
          [visitOf (s.decoding w.offset false false w.prev,
            s.decoding w.offset true false w.prev)] := by
        rw [visits_successor, List.reverse_cons]
        rfl
      rw [run_step_of_contains n hs ho hseen, decodings_step_of_contains n hs ho hseen]
      cases hstop : (w.successor s).stop with
      | some stop => exact ⟨_, _, rfl, hagrees, hvisits⟩
      | none =>
        obtain ⟨w', t, hrun, hmore, hlater⟩ :=
          ih (valid_storeAfter hs) (successor_of_running hstop).2.2.2
        refine ⟨w', t, hrun, hagrees.trans hmore, ?_⟩
        rw [hlater, hvisits]
        simp

/-- The second decoding of an instruction repeats the first, apart from where it goes on. -/
theorem decodings_twice (n : Nat) (hs : s.Valid) {d : Decoded × Decoded}
    (hd : d ∈ decodings n w s) :
    d.2 = { d.1 with next := d.2.next } ∧ d.1.context.masked = d.1.context := by
  induction n generalizing w s with
  | zero => cases hd
  | succ n ih =>
    by_cases ho : s.Contains w.offset
    · by_cases hseen : w.seen.contains w.offset
      · rw [decodings_of_seen _ hseen] at hd
        cases hd
      · rw [decodings_step_of_contains n hs ho hseen] at hd
        rcases List.mem_cons.1 hd with rfl | hd
        · exact ⟨rfl, Store.masked_decodingContext hs w.offset w.prev⟩
        · split at hd
          · cases hd
          · exact ih (valid_storeAfter hs) hd
    · rw [decodings_outside _ ho] at hd
      cases hd

end Walk

section Recording

variable {p q : Project}

theorem Recorder.eq_of_create {capacity : Int} {r : Recorder} (h : create capacity = .ok r) :
    r = { capacity := capacity.toNat } := by
  unfold create at h
  split at h
  · cases h
  · exact (Except.ok.inj h).symm

/-- A recorder that was empty holds the last entries as they were given, if none had to be cut. -/
theorem Recorder.entries_foldl_fresh (capacity : Nat) {given : List TraceEntry}
    (h : ∀ e ∈ given, e.masked = e) :
    (given.foldl record { capacity }).entries none = given.rtake (min capacity given.length) := by
  have hkept := toList_foldl capacity given
  rw [List.map_congr_left h, List.map_id', Nat.min_comm] at hkept
  exact hkept

/-- A walk adds one entry for each pair of decodings, also where it fails: then there are none. -/
theorem ProjectM.recorder_walk (hs : p.store.Valid) {r : Recorder} (hr : p.recorder = some r)
    (start limit : Int) : (finalState (walk start limit p)).recorder =
      some (((Walk.decodings limit.toNat (Walk.start start) p.store).map
        fun d => d.1.entry p.store).foldl Recorder.record r) := by
  by_cases ho : p.store.Contains start
  · obtain ⟨w, t, hrun, hagrees, hvisits⟩ :=
      Walk.run_decodings (w := Walk.start start) limit.toNat hs ho
    have hvisits : w.visits.reverse =
        (Walk.decodings limit.toNat (Walk.start start) p.store).map Walk.visitOf := hvisits
    rw [walk_of_run hrun]
    change (({ p with store := t } : Project).follow w.visits.reverse).recorder = _
    rw [Project.recorder_follow (p := { p with store := t }) hr, Project.entryOf_agrees hagrees,
      hvisits, List.foldl_map, List.foldl_map]
    rfl
  · rw [Walk.decodings_outside (w := Walk.start start) _ ho]
    by_cases hlimit : 1 ≤ limit
    · have hfails := onStore_of_error (StoreM.walk_outside hlimit ho)
      rw [show walk start limit p = _ from bind_of_error hfails]
      exact hr
    · rw [walk_of_limit (by omega)]
      exact hr

/--
Tracing is passive. Runs of the same actions on one store end in the same way, call by call, and
leave the same store, whichever channels are enabled and whatever recorder there is in each call.
That is so also if every step of an analysis is reported before the next one, and on a valid store
such a run leaves the same log and the same recorder. A recorder that was empty before a walk holds
the last of the instructions that were decoded, as many as it has room for, in their order and each
once, although each is decoded twice.
-/
theorem Project.tracing_is_passive (hstore : p.store = q.store) {calls others : List Call}
    (hsame : calls.map Call.action = others.map Call.action) :
    (p.callAll Action.perform calls).1 = (q.callAll Action.perform others).1 ∧
      (p.callAll Action.perform calls).2.store = (q.callAll Action.perform others).2.store ∧
      (p.callAll Action.performReporting calls).1 = (q.callAll Action.performReporting others).1 ∧
      (p.callAll Action.performReporting calls).2.store =
        (q.callAll Action.performReporting others).2.store ∧
      (p.store.Valid →
        p.callAll Action.performReporting calls = p.callAll Action.perform calls) ∧
      (p.store.Valid → ∀ (capacity : Int) (fresh : Recorder),
        Recorder.create capacity = .ok fresh → p.recorder = some fresh → ∀ start limit : Int,
        ∃ steps r, Walk.decodings limit.toNat (Walk.start start) p.store = steps ∧
          (∀ d ∈ steps, d.2 = { d.1 with next := d.2.next }) ∧
          (finalState (ProjectM.walk start limit p)).recorder = some r ∧
          r.entries none = (steps.map fun d => d.1.entry p.store).rtake
            (min capacity.toNat steps.length)) := by
  obtain ⟨hreplies, hleft⟩ := callAll_congr IgnoresTracing.perform hstore hsame
  obtain ⟨hreported, hbehind⟩ := callAll_congr IgnoresTracing.performReporting hstore hsame
  refine ⟨hreplies, hleft, hreported, hbehind, fun hs => callAll_performReporting hs calls, ?_⟩
  intro hs capacity fresh hcreate hr start limit
  obtain rfl := Recorder.eq_of_create hcreate
  have htwice := fun d => @Walk.decodings_twice p.store (Walk.start start) limit.toNat hs d
  refine ⟨_, _, rfl, fun d hd => (htwice d hd).1, ProjectM.recorder_walk hs hr start limit, ?_⟩
  rw [Recorder.entries_foldl_fresh, List.length_map]
  intro e he
  obtain ⟨d, hd, rfl⟩ := List.mem_map.1 he
  exact masked_entryOf (htwice d hd).2

/-- A call, its return and a stop, with room for two of the three; then a step outside the image and
the other analyses. In the other run each call has a recorder of its own. -/
theorem Project.tracing_is_passive_call :
    let s : Store := ⟨#[0x20, 0x04, 0x80, 0xDB, 0x60], .loRom, .slow, Array.replicate 5 {}, {}, {}⟩
    let p : Project := { store := s, recorder := some { capacity := 2 }, channels := ⟨["all"]⟩ }
    let q : Project := { store := s }
    let actions : List Action := [.analyze 0 false 0 8, .step 5 true false 0, .rescan, .repair,
      .sweep 0 5, .seedVectors true, .analyzeVectors 8]
    let calls : List Call := actions.map fun action => { action }
    let others : List Call := actions.map fun action =>
      { action, tracing := some ⟨some { capacity := 1 }, ⟨["step"]⟩⟩ }
    s.Valid ∧ (p.callAll Action.perform calls).1 = (q.callAll Action.perform others).1 ∧
      (p.callAll Action.perform calls).2.store = (q.callAll Action.perform others).2.store ∧
      (p.callAll Action.performReporting calls).1 = (q.callAll Action.performReporting others).1 ∧
      p.callAll Action.performReporting calls = p.callAll Action.perform calls ∧
      (p.callAll Action.perform calls).1 = [.ok (.offset 4), .error (.outside 1 5 5),
        .ok (.count 3), .ok (.count 0), .ok (.offset 5), .ok (.vectors []), .ok (.vectors [])] ∧
      (finalState ((Action.analyze 0 false 0 8).performReporting p)).log.size = 9 ∧
      ∃ r, (finalState (ProjectM.walk 0 8 p)).recorder = some r ∧
        (r.entries none).map (·.offset) = [4, 3] := by
  intro s p q actions calls others
  have hcreate : Store.create #[0x20, 0x04, 0x80, 0xDB, 0x60] .loRom .slow = .ok s := rfl
  have hs := Store.valid_create hcreate
  have hsame : calls.map Call.action = others.map Call.action := rfl
  obtain ⟨hreplies, hleft, hreported, -, hreporting, hwalk⟩ :=
    tracing_is_passive (p := p) (q := q) rfl hsame
  obtain ⟨steps, r, hsteps, -, hr, hentries⟩ := hwalk hs 2 _ rfl rfl 0 8
  have hoffsets : (Walk.decodings 8 (Walk.start 0) s).map (·.1.offset) = [0, 4, 3] := by
    decide +kernel
  have hoffsets : steps.map (·.1.offset) = [0, 4, 3] := hsteps ▸ hoffsets
  have hlength : steps.length = 3 := by simpa using congrArg List.length hoffsets
  refine ⟨hs, hreplies, hleft, hreported, hreporting hs, by decide +kernel,
    by decide +kernel, r, hr, ?_⟩
  rw [hentries, List.rtake, List.map_drop, List.map_map, List.length_map, hlength]
  exact congrArg (List.drop 1) hoffsets

end Recording

end Disassembly

import Disassembly.Proofs.Project.Failure

/-!
Analyses that report as they go. The analyses of a project act on the store first and write log and
recorder from what they have done. Here each decoding is reported before the next one begins, each
visit is recorded before the walk or sweep goes on, and a walk tells why it ends when it ends. On a
valid store both do the same, down to the order of the log and the slots of the recorder.
-/
namespace Disassembly

section Runs

namespace ProjectM

/-- Decodes an instruction and reports it at once. -/
def decodeReporting (offset : Int) (branch force : Bool) (prev : Int) : ProjectM Decoded := do
  let decoded ← onStore (StoreM.decode offset branch force prev)
  report decoded.events
  return decoded

def recordVisit (v : Visit) : ProjectM Unit := modify (·.recordVisits [v])

end ProjectM

namespace Sweep

def advanceReporting (w : Sweep) : ProjectM Sweep := do
  let decoded ← ProjectM.decodeReporting w.offset false true w.prev
  let context ← ProjectM.onStore (StoreM.read (·.contextAt w.offset))
  let visit : Visit := ⟨w.offset, decoded.opcode, context, decoded.next, [decoded]⟩
  ProjectM.recordVisit visit
  return { offset := decoded.next, prev := w.offset, visits := visit :: w.visits }

def runReporting (behind : Int) : Nat → Sweep → ProjectM Sweep
  | 0, w => pure w
  | n + 1, w =>
    if w.offset < behind then do runReporting behind n (← w.advanceReporting) else pure w

end Sweep

namespace Walk

/-- What a walk does with a visited instruction before it goes on. -/
def leave (w : Walk) (op : UInt8) (context : Context) (next target : Int) : StoreM Walk := do
  let w ← w.passStatus op context
  if w.stop.isSome then return w
  let w := w.route op next target
  if w.stop.isSome then return w
  return w.inspect op (← get)

def advanceReporting (w : Walk) : ProjectM Walk := do
  let passed ← ProjectM.decodeReporting w.offset false false w.prev
  let taken ← ProjectM.decodeReporting w.offset true false w.prev
  let context ← ProjectM.onStore (StoreM.read (·.contextAt w.offset))
  let visit : Visit := ⟨w.offset, passed.opcode, context, passed.next, [passed, taken]⟩
  ProjectM.recordVisit visit
  ProjectM.onStore ((w.note visit).leave passed.opcode context passed.next taken.next)

def runReporting : Nat → Walk → ProjectM Walk
  | 0, w => pure w
  | n + 1, w =>
    if w.seen.contains w.offset then do
      ProjectM.report [.stopped ⟨.alreadyVisited, w.offset⟩]
      return w.halt .alreadyVisited w.offset
    else do
      let w ← w.advanceReporting
      ProjectM.report (w.stop.toList.map Event.stopped)
      if w.stop.isSome then return w else runReporting n w

end Walk

namespace ProjectM

def sweepReporting (start behind : Int) : ProjectM Int := do
  let behind := min behind (← onStore get).size
  let w ← Sweep.runReporting behind (behind - start).toNat { offset := start, prev := start - 1 }
  return w.offset

def walkReporting (offset limit : Int) : ProjectM Int := do
  let w ← Walk.runReporting limit.toNat (Walk.start offset)
  return w.offset

def analyzeReporting (offset : Int) (linear : Bool) (amount limit : Int) : ProjectM Int :=
  if linear then sweepReporting offset (offset + amount) else walkReporting offset limit

/-- Marks the flow of one instruction after the other and reports each. -/
def markAllReporting : List Nat → ProjectM Unit
  | [] => pure ()
  | offset :: rest => do
    markFlow offset
    markAllReporting rest

def rescanReporting : ProjectM Nat := do
  onStore (modify (·.clearMarks))
  let offsets := (← onStore get).offsetsWith .opcode
  markAllReporting offsets
  return offsets.length

/-- Reads one vector after the other and reports each. -/
def readReporting : List (String × Int) → ProjectM (List VectorReading)
  | [] => pure []
  | (name, address) :: rest => do
    let reading ← onStore (StoreM.read (·.readVector name address))
    report (reading.toList.flatMap VectorReading.events)
    return reading.toList ++ (← readReporting rest)

def seedVectorsReporting (label : Bool) : ProjectM (List VectorEntry) := do
  let entries := (← readReporting vectorTable).filterMap VectorReading.entry?
  onStore (StoreM.seedEntries label entries)
  return entries

def walkAllReporting (limit : Int) : List VectorEntry → ProjectM Unit
  | [] => pure ()
  | entry :: rest => do
    discard (walkReporting entry.offset limit)
    walkAllReporting limit rest

def analyzeVectorsReporting (limit : Int) : ProjectM (List VectorEntry) := do
  let entries ← seedVectorsReporting true
  walkAllReporting limit entries
  return entries

end ProjectM

/-- Performs an action with all reports inside its loops. -/
def Action.performReporting : Action → ProjectM Reply
  | sweep start behind => return .offset (← ProjectM.sweepReporting start behind)
  | analyze offset linear amount limit =>
    return .offset (← ProjectM.analyzeReporting offset linear amount limit)
  | rescan => return .count (← ProjectM.rescanReporting)
  | seedVectors named => return .vectors (← ProjectM.seedVectorsReporting named)
  | analyzeVectors limit => return .vectors (← ProjectM.analyzeVectorsReporting limit)
  | a => a.perform

end Runs

namespace Project

variable {p q r : Project} {a b c : List Visit} {s t : Store}

section Reports

@[simp] theorem report_nil (p : Project) : p.report [] = p := by
  simp [report]

@[simp] theorem report_report (p : Project) (events more : List Event) :
    (p.report events).report more = p.report (events ++ more) := by
  simp [report]

@[simp] theorem follow_nil (p : Project) : p.follow [] = p := by
  obtain ⟨store, title, recorder, channels, log⟩ := p
  cases recorder <;> simp [follow, recordVisits, report]

/-- Visits may be followed in parts, while the store changes only in what entries do not show. -/
theorem follow_follow (h : s.Agrees t) (p : Project) (a b : List Visit) :
    ({ ({ p with store := s } : Project).follow a with store := t } : Project).follow b =
      ({ p with store := t } : Project).follow (a ++ b) := by
  obtain ⟨store, title, recorder, channels, log⟩ := p
  cases recorder <;> simp [follow, recordVisits, report, entryOf_agrees h]

end Reports

/-- The project `q` is `p` with another store, behind the visits by which `a` has grown to `b`; both
have the newest visit first. -/
structure Followed (p : Project) (a b : List Visit) (q : Project) : Prop where
  agrees : p.store.Agrees q.store
  grown : ∃ visits, b.reverse = a.reverse ++ visits ∧
    q = ({ p with store := q.store } : Project).follow visits

namespace Followed

theorem refl (p : Project) (a : List Visit) : Followed p a a p :=
  ⟨.refl _, [], by simp, by simp⟩

theorem trans (h : Followed p a b q) (k : Followed q b c r) : Followed p a c r := by
  obtain ⟨hagrees, visits, hb, hq⟩ := h
  obtain ⟨kagrees, more, hc, hr⟩ := k
  refine ⟨hagrees.trans kagrees, visits ++ more, by simp [hc, hb], ?_⟩
  rw [← follow_follow kagrees, ← hq]
  exact hr

theorem one (h : p.store.Agrees t) (a : List Visit) (v : Visit) :
    Followed p a (v :: a) (({ p with store := t } : Project).follow [v]) := by
  have hstore := store_follow ({ p with store := t } : Project) [v]
  exact ⟨hstore ▸ h, [v], by simp, by rw [hstore]⟩

/-- From no visits on, all of them have been followed. -/
theorem eq_follow (h : Followed p [] b q) :
    q = ({ p with store := q.store } : Project).follow b.reverse := by
  obtain ⟨visits, hvisits, hq⟩ := h.grown
  rw [hvisits]
  exact hq

end Followed

end Project

theorem ProjectM.decodeReporting_of_ok {p : Project} {o prev : Int} {branch force : Bool}
    {d : Decoded} {t : Store} (h : StoreM.decode o branch force prev p.store = .ok d t) :
    decodeReporting o branch force prev p =
      .ok d (({ p with store := t } : Project).report d.events) :=
  (bind_of_ok (onStore_of_ok h)).trans rfl

namespace Sweep

variable {p : Project} {w : Sweep} {behind : Int}

theorem advanceReporting_of_contains (hs : p.store.Valid) (ho : p.store.Contains w.offset) :
    w.advanceReporting p = .ok (w.successor p.store)
      (({ p with store := p.store.decoded w.offset w.prev } : Project).follow
        [w.visit p.store]) := by
  have hdecoded := ProjectM.decodeReporting_of_ok
    (StoreM.decode_of_contains hs ho false true w.prev)
  have hcontext := Store.contextAt_decoded hs ho w.prev
  unfold advanceReporting
  refine (bind_of_ok hdecoded).trans ?_
  refine (bind_of_ok (ProjectM.onStore_of_ok (StoreM.read_of_ok hcontext))).trans ?_
  simp only [Project.follow, Visit.events, visit, List.flatMap_cons, List.flatMap_nil,
    List.append_nil]
  rfl

theorem runReporting_outside (n : Nat) (h0 : w.offset < 0) (hlt : w.offset < behind) :
    runReporting behind (n + 1) w p = .error (.outside 1 w.offset p.store.size) p := by
  have hout : ¬ p.store.Contains w.offset := fun h => absurd h.1 (by omega)
  have hdecode := ProjectM.onStore_of_error (StoreM.decode_outside hout false true w.prev)
  rw [runReporting, if_pos hlt]
  exact bind_of_error (bind_of_error (bind_of_error hdecode))

/-- A sweep that reports as it goes comes to the same end, with the same visits behind it. -/
theorem runReporting_follows (n : Nat) (hs : p.store.Valid)
    (h0 : w.offset < behind → 0 ≤ w.offset) (hsize : behind ≤ p.store.size) :
    ∃ w' q, run behind n w p.store = .ok w' q.store ∧ runReporting behind n w p = .ok w' q ∧
      p.Followed w.visits w'.visits q := by
  induction n generalizing w p with
  | zero => exact ⟨w, p, rfl, rfl, .refl p _⟩
  | succ n ih =>
    by_cases hlt : w.offset < behind
    · have ho : p.store.Contains w.offset := ⟨h0 hlt, by omega⟩
      have hagrees := Store.agrees_decoded p.store w.offset w.prev
      have hnext : (w.successor p.store).offset =
          w.offset + p.store.lengthUnder w.offset (p.store.decodingContext w.offset w.prev) := rfl
      let next : Project :=
        ({ p with store := p.store.decoded w.offset w.prev } : Project).follow [w.visit p.store]
      have hstore : next.store = p.store.decoded w.offset w.prev := Project.store_follow _ _
      obtain ⟨w', q, hrun, hreporting, hfollowed⟩ := ih (w := w.successor p.store) (p := next)
        (by rw [hstore]; exact hs.decoded _ _) (fun _ => by have := h0 hlt; omega)
        (by rw [hstore, hagrees.size]; exact hsize)
      refine ⟨w', q, ?_, ?_, (Project.Followed.one hagrees _ _).trans hfollowed⟩
      · rw [run_step n hs ho hlt, ← hstore]
        exact hrun
      · rw [runReporting, if_pos hlt]
        exact (bind_of_ok (advanceReporting_of_contains hs ho)).trans hreporting
    · refine ⟨w, p, run_end _ (by omega), ?_, .refl p _⟩
      rw [runReporting, if_neg hlt]
      rfl

end Sweep

namespace Walk

variable {p : Project} {w : Walk}

/-- Behind the two decodings of a step, this is all that is left of it. -/
theorem leave_of_contains {s : Store} (hs : s.Valid) (ho : s.Contains w.offset) :
    (w.note (w.visit s)).leave (s.peek w.offset) (w.visit s).context (w.visit s).next
        (s.decoding w.offset true false w.prev).next (s.decoded w.offset w.prev) =
      .ok (w.successor s) (w.storeAfter s) := by
  have hstep := advance_of_contains hs ho
  unfold advance at hstep
  rw [bind_of_ok (StoreM.decode_of_contains hs ho false false w.prev),
    bind_of_ok (StoreM.decode_decoded hs ho true false w.prev),
    bind_of_ok (StoreM.read_of_ok (Store.contextAt_decoded hs ho w.prev))] at hstep
  exact hstep

theorem advanceReporting_of_contains (hs : p.store.Valid) (ho : p.store.Contains w.offset) :
    w.advanceReporting p = .ok (w.successor p.store)
      (({ p with store := w.storeAfter p.store } : Project).follow [w.visit p.store]) := by
  let decoded : Project := { p with store := p.store.decoded w.offset w.prev }
  let passed := p.store.decoding w.offset false false w.prev
  let taken := p.store.decoding w.offset true false w.prev
  have hpassed := ProjectM.decodeReporting_of_ok
    (StoreM.decode_of_contains hs ho false false w.prev)
  have htaken := ProjectM.decodeReporting_of_ok (p := decoded.report passed.events)
    (StoreM.decode_decoded hs ho true false w.prev)
  have hcontext := Store.contextAt_decoded hs ho w.prev
  have hboth : ((decoded.report passed.events).report taken.events).recordVisits
      [w.visit p.store] = decoded.follow [w.visit p.store] := by
    simp [Project.follow, Visit.events, visit, passed, taken]
  have hrecorded : ProjectM.recordVisit (w.visit p.store)
      ((decoded.report passed.events).report taken.events) =
        .ok () (decoded.follow [w.visit p.store]) := congrArg (EStateM.Result.ok ()) hboth
  have hleave := leave_of_contains hs ho
  rw [← show (decoded.follow [w.visit p.store]).store = p.store.decoded w.offset w.prev from
    Project.store_follow _ _] at hleave
  -- The last change of the store comes behind the record, and does not show in it.
  have hlater := Project.follow_follow (agrees_restored w (p.store.peek w.offset)
    (p.store.decoded w.offset w.prev)) p [w.visit p.store] []
  rw [Project.follow_nil, List.append_nil] at hlater
  unfold advanceReporting
  refine (bind_of_ok hpassed).trans ((bind_of_ok htaken).trans ?_)
  refine (bind_of_ok (ProjectM.onStore_of_ok (StoreM.read_of_ok hcontext))).trans ?_
  refine (bind_of_ok hrecorded).trans ((ProjectM.onStore_of_ok hleave).trans ?_)
  exact congrArg (EStateM.Result.ok _) hlater

theorem runReporting_outside (n : Nat) (ho : ¬ p.store.Contains w.offset)
    (hnew : ¬ w.seen.contains w.offset) :
    runReporting (n + 1) w p = .error (.outside 1 w.offset p.store.size) p := by
  have hdecode := ProjectM.onStore_of_error (StoreM.decode_outside ho false false w.prev)
  rw [runReporting, if_neg hnew]
  exact bind_of_error (bind_of_error (bind_of_error hdecode))

/-- A walk that reports as it goes comes to the same end, with the same visits behind it. -/
theorem runReporting_follows (n : Nat) (hs : p.store.Valid) (ho : p.store.Contains w.offset)
    (hrun : w.stop = none) :
    ∃ w' q, run n w p.store = .ok w' q.store ∧
      runReporting n w p = .ok w' (q.report (w'.stop.toList.map Event.stopped)) ∧
      p.Followed w.visits w'.visits q := by
  induction n generalizing w p with
  | zero => exact ⟨w, p, rfl, by simp [hrun]; rfl, .refl p _⟩
  | succ n ih =>
    by_cases hseen : w.seen.contains w.offset
    · refine ⟨_, p, run_of_seen n hseen, ?_, .refl p _⟩
      rw [runReporting, if_pos hseen]
      rfl
    · let next : Project :=
        ({ p with store := w.storeAfter p.store } : Project).follow [w.visit p.store]
      have hstore : next.store = w.storeAfter p.store := Project.store_follow _ _
      have hone : p.Followed w.visits (w.successor p.store).visits next := by
        rw [visits_successor]
        exact .one (agrees_storeAfter w p.store) _ _
      have hstep : runReporting (n + 1) w p = (do
          ProjectM.report ((w.successor p.store).stop.toList.map Event.stopped)
          if (w.successor p.store).stop.isSome then return w.successor p.store
          else runReporting n (w.successor p.store) : ProjectM Walk) next := by
        rw [runReporting, if_neg hseen]
        exact bind_of_ok (advanceReporting_of_contains hs ho)
      rw [run_step_of_contains n hs ho hseen, hstep]
      cases hstop : (w.successor p.store).stop with
      | some stop => exact ⟨_, next, by rw [hstore]; rfl, by rw [hstop]; rfl, hone⟩
      | none =>
        have hreport : ProjectM.report [] next = .ok () next :=
          congrArg (EStateM.Result.ok ()) next.report_nil
        obtain ⟨w', q, hlater, hreporting, hfollowed⟩ := ih (p := next)
          (by rw [hstore]; exact valid_storeAfter hs)
          (by rw [hstore]; exact (successor_of_running hstop).2.2.2) hstop
        rw [hstore] at hlater
        exact ⟨w', q, hlater, (bind_of_ok hreport).trans hreporting, hone.trans hfollowed⟩

end Walk

/-- Operations that agree, each followed by ones that agree behind it, agree. -/
theorem bind_congr_of_ok {σ α β : Type} {act other : EStateM Fault σ α}
    {next later : α → EStateM Fault σ β} {s : σ} (h : act s = other s)
    (hn : ∀ a t, other s = .ok a t → next a t = later a t) :
    (act >>= next) s = (other >>= later) s := by
  cases ho : other s with
  | ok a t =>
    rw [bind_of_ok (h.trans ho), bind_of_ok ho]
    exact hn a t ho
  | error e t => rw [bind_of_error (h.trans ho), bind_of_error ho]

namespace ProjectM

variable {p : Project}

theorem sweepReporting_eq (hs : p.store.Valid) (start behind : Int) :
    sweepReporting start behind p = sweep start behind p := by
  by_cases hbad : start < 0 ∧ start < min behind p.store.size
  · obtain ⟨n, hn⟩ : ∃ n, (min behind p.store.size - start).toNat = n + 1 :=
      Nat.exists_eq_add_one.2 (by omega)
    have hfails := Sweep.runReporting_outside (p := p) (w := { offset := start, prev := start - 1 })
      n hbad.1 hbad.2
    rw [← hn] at hfails
    exact (bind_of_error hfails).trans
      (bind_of_error (onStore_of_error (StoreM.sweep_outside hbad.1 hbad.2))).symm
  · obtain ⟨w, q, hrun, hreporting, hfollowed⟩ := Sweep.runReporting_follows
      (w := { offset := start, prev := start - 1 }) (min behind p.store.size - start).toNat hs
      (fun hlt => Int.not_lt.1 fun h0 => hbad ⟨h0, hlt⟩) (Int.min_le_right _ _)
    rw [sweep_of_run (w := w) (t := q.store) hrun, ← hfollowed.eq_follow]
    exact (bind_of_ok hreporting).trans rfl

theorem walk_of_limit {limit : Int} (hlimit : limit < 1) (offset : Int) (p : Project) :
    walk offset limit p = .ok offset p := by
  have hnothing : (p.follow []).report [] = p := by simp
  rw [walk_of_run (StoreM.walk_of_limit hlimit offset p.store)]
  exact congrArg (EStateM.Result.ok offset) hnothing

theorem walkReporting_eq (hs : p.store.Valid) (offset limit : Int) :
    walkReporting offset limit p = walk offset limit p := by
  by_cases ho : p.store.Contains offset
  · obtain ⟨w, q, hrun, hreporting, hfollowed⟩ := Walk.runReporting_follows
      (w := Walk.start offset) limit.toNat hs ho rfl
    rw [walk_of_run (w := w) (t := q.store) hrun, ← hfollowed.eq_follow]
    exact (bind_of_ok hreporting).trans rfl
  · by_cases hlimit : 1 ≤ limit
    · obtain ⟨n, hn⟩ : ∃ n, limit.toNat = n + 1 := Nat.exists_eq_add_one.2 (by omega)
      have hfails := Walk.runReporting_outside (w := Walk.start offset) n ho Bool.false_ne_true
      rw [← hn] at hfails
      exact (bind_of_error hfails).trans
        (bind_of_error (onStore_of_error (StoreM.walk_outside hlimit ho))).symm
    · have hzero : limit.toNat = 0 := by omega
      rw [walk_of_limit (by omega), walkReporting, hzero]
      rfl

/-- Marking and reporting in turn leaves the flows in the order in which they were found. -/
theorem markAllReporting_follows {offsets : List Nat} (hs : p.store.Valid)
    (ho : ∀ o ∈ offsets, p.store.Contains (o : Nat)) (flows : List Flow) :
    ∃ (found : List Flow) (t : Store),
      StoreM.markAll offsets flows p.store = .ok (found.reverse ++ flows) t ∧
      markAllReporting offsets p =
        .ok () (({ p with store := t } : Project).report (found.map Event.flow)) := by
  induction offsets generalizing p flows with
  | nil => exact ⟨[], p.store, rfl, (congrArg (EStateM.Result.ok ()) p.report_nil).symm⟩
  | cons o rest ih =>
    have hhead : p.store.Contains o := ho o List.mem_cons_self
    have hflow := StoreM.markFlow_of_contains hhead
    have hvalid := hs.marked o
    have hrest : ∀ o' ∈ rest, (p.store.marked o).Contains (o' : Nat) := fun o' h =>
      (Store.agrees_marked p.store o).contains.2 (ho o' (List.mem_cons_of_mem _ h))
    -- What the flow and the marks are does not matter.
    generalize Option.map _ _ = flow at hflow
    generalize p.store.marked o = marked at hflow hvalid hrest
    let next : Project :=
      ({ p with store := marked } : Project).report (flow.toList.map Event.flow)
    have hmarked : markFlow o p = .ok () next := (bind_of_ok (onStore_of_ok hflow)).trans rfl
    obtain ⟨found, t, hmark, hreporting⟩ := ih (p := next) hvalid hrest (flow.toList ++ flows)
    refine ⟨flow.toList ++ found, t, ?_, ?_⟩
    · have hone : flow.toList.reverse = flow.toList := by cases flow <;> rfl
      rw [List.reverse_append, hone, List.append_assoc]
      exact (bind_of_ok hflow).trans hmark
    · have hboth : ({ next with store := t } : Project).report (found.map Event.flow) =
          ({ p with store := t } : Project).report ((flow.toList ++ found).map Event.flow) := by
        rw [List.map_append, ← Project.report_report]
        rfl
      rw [← hboth]
      exact (bind_of_ok hmarked).trans hreporting

theorem rescanReporting_eq (hs : p.store.Valid) : rescanReporting p = rescan p := by
  let cleared : Project := { p with store := p.store.clearMarks }
  have hinside : ∀ o ∈ cleared.store.offsetsWith .opcode, cleared.store.Contains (o : Nat) :=
    fun o ho => (Store.mem_offsetsWith.1 ho).1
  obtain ⟨found, t, hmark, hreporting⟩ := markAllReporting_follows (p := cleared)
    (Store.stable_valid.clearMarks hs) hinside []
  have hclear : (modify (·.clearMarks) : StoreM Unit) p.store = .ok () cleared.store := rfl
  have hrescan : StoreM.rescan p.store =
      .ok ⟨(cleared.store.offsetsWith .opcode).length, found.reverse⟩ t := by
    rw [List.append_nil] at hmark
    exact (bind_of_ok hclear).trans (bind_of_ok hmark)
  have hplain : rescan p = .ok (cleared.store.offsetsWith .opcode).length
      (({ p with store := t } : Project).report (found.reverse.reverse.map Event.flow)) :=
    (bind_of_ok (onStore_of_ok hrescan)).trans rfl
  rw [hplain, List.reverse_reverse]
  refine (bind_of_ok (onStore_of_ok hclear)).trans ?_
  exact (bind_of_ok hreporting).trans rfl

theorem readReporting_eq (p : Project) (table : List (String × Int)) :
    readReporting table p = .ok (table.filterMap fun v => p.store.vector? v.1 v.2)
      (p.report ((table.filterMap fun v => p.store.vector? v.1 v.2).flatMap
        VectorReading.events)) := by
  induction table generalizing p with
  | nil => exact (congrArg (EStateM.Result.ok []) p.report_nil).symm
  | cons v rest ih =>
    obtain ⟨name, address⟩ := v
    have hread : onStore (StoreM.read (·.readVector name address)) p =
        .ok (p.store.vector? name address) p :=
      onStore_of_ok (StoreM.read_of_ok (Store.readVector_eq p.store name address))
    let next := p.report ((p.store.vector? name address).toList.flatMap VectorReading.events)
    have hreport : report ((p.store.vector? name address).toList.flatMap VectorReading.events) p =
        .ok () next := rfl
    refine (bind_of_ok hread).trans ((bind_of_ok hreport).trans ((bind_of_ok (ih next)).trans ?_))
    have hstore : next.store = p.store := rfl
    rw [hstore, Project.report_report]
    cases hv : p.store.vector? name address <;> simp [hv] <;> rfl

theorem seedVectorsReporting_eq (hs : p.store.Valid) (label : Bool) :
    seedVectorsReporting label p = seedVectors label p := by
  obtain ⟨t, hseed, -⟩ := StoreM.seedEntries_of_contains hs
    (fun _ he => Store.contains_of_mem_vectorEntries he) label
  have hplain : StoreM.seedVectors label p.store = .ok _ t :=
    (bind_of_ok (StoreM.read_of_ok (Store.readVectorsOf_eq p.store vectorTable))).trans
      (bind_of_ok hseed)
  let reported := p.report ((vectorTable.filterMap fun v => p.store.vector? v.1 v.2).flatMap
    VectorReading.events)
  have hseeded := onStore_of_ok (p := reported) hseed
  refine (bind_of_ok (readReporting_eq p vectorTable)).trans ((bind_of_ok hseeded).trans ?_)
  have hreadings : seedVectors label p = reportReadings _ { p with store := t } :=
    bind_of_ok (onStore_of_ok hplain)
  rw [hreadings]
  rfl

theorem walkAllReporting_eq (hs : p.store.Valid) (limit : Int) (entries : List VectorEntry) :
    walkAllReporting limit entries p = walkAll limit entries p := by
  induction entries generalizing p with
  | nil => rfl
  | cons entry rest ih =>
    have hfirst : discard (walkReporting entry.offset limit) p =
        discard (walk entry.offset limit) p :=
      bind_congr_of_ok (walkReporting_eq hs entry.offset limit) fun _ _ _ => rfl
    refine bind_congr_of_ok hfirst fun _ q hq => ih ?_
    have hkeeps : Keeps (fun p : Project => p.store.Valid) (discard (walk entry.offset limit)) :=
      (Store.stable_valid.walk entry.offset limit).bind fun _ => Keeps.pure ()
    have hvalid := hkeeps p hs
    rw [hq] at hvalid
    exact hvalid

theorem analyzeVectorsReporting_eq (hs : p.store.Valid) (limit : Int) :
    analyzeVectorsReporting limit p = analyzeVectors limit p := by
  refine bind_congr_of_ok (seedVectorsReporting_eq hs true) fun entries q hq => ?_
  have hvalid := Store.stable_valid.projectSeedVectors true p hs
  rw [hq] at hvalid
  exact bind_congr_of_ok (walkAllReporting_eq hvalid limit entries) fun _ _ _ => rfl

end ProjectM

/-- On a valid store an action that reports as it goes does what the action does. -/
theorem Action.performReporting_eq {p : Project} (hs : p.store.Valid) (a : Action) :
    a.performReporting p = a.perform p := by
  cases a with
  | sweep start behind =>
    exact bind_congr_of_ok (ProjectM.sweepReporting_eq hs start behind) fun _ _ _ => rfl
  | analyze offset linear amount limit =>
    refine bind_congr_of_ok ?_ fun _ _ _ => rfl
    cases linear with
    | true => exact ProjectM.sweepReporting_eq hs offset (offset + amount)
    | false => exact ProjectM.walkReporting_eq hs offset limit
  | rescan => exact bind_congr_of_ok (ProjectM.rescanReporting_eq hs) fun _ _ _ => rfl
  | seedVectors named =>
    exact bind_congr_of_ok (ProjectM.seedVectorsReporting_eq hs named) fun _ _ _ => rfl
  | analyzeVectors limit =>
    exact bind_congr_of_ok (ProjectM.analyzeVectorsReporting_eq hs limit) fun _ _ _ => rfl
  | _ => rfl

end Disassembly

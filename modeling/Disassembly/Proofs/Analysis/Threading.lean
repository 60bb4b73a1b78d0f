import Disassembly.Project.Analysis
import Disassembly.Proofs.Analysis.Nesting
import Disassembly.Proofs.Analysis.Walk
import Disassembly.Proofs.Trace

/-!
How a context is handed on along a walk. It is never passed from one instruction to the next, but
written into the record of the one and looked up there for the other; still each instruction takes
over what the one before it has left, across jumps, calls and returns. Only a restore changes it on
the way: it brings back the widths of the save that it matches.
-/
namespace Disassembly

/-- Contexts that differ in their register widths at most. -/
def Context.SamePage (c d : Context) : Prop :=
  c.directPage = d.directPage ∧ c.dataBank = d.dataBank

theorem Context.SamePage.trans {c d e : Context} (h : c.SamePage d) (k : d.SamePage e) :
    c.SamePage e := ⟨h.1.trans k.1, h.2.trans k.2⟩

theorem Context.SamePage.symm {c d : Context} (h : c.SamePage d) : d.SamePage c :=
  ⟨h.1.symm, h.2.symm⟩

theorem Store.TakesOver.samePage {s : Store} {o : Int} {c d : Context} (h : s.TakesOver o c d) :
    d.SamePage c := ⟨h.directPage, h.dataBank⟩

/-- The context that visits, the oldest first, leave to what comes behind them. -/
inductive HandsOn (s : Store) (start : Int) : List Visit → Context → Prop
  | first {c : Context} : s.inheritedContext start (start - 1) = .ok c → HandsOn s start [] c
  | keep {before : List Visit} {u : Visit} :
    u.opcode ≠ Opcode.plp → HandsOn s start (before ++ [u]) u.context
  | restore {before : List Visit} {u save : Visit} :
    u.opcode = Opcode.plp → LastOpen [Opcode.php] [Opcode.plp] before save →
    HandsOn s start (before ++ [u])
      { u.context with xFlag := save.context.xFlag, mFlag := save.context.mFlag }

theorem HandsOn.samePage {s : Store} {start : Int} {visits : List Visit} {c : Context}
    (h : HandsOn s start visits c) :
    (visits = [] ∧ s.inheritedContext start (start - 1) = .ok c) ∨
      ∃ before u, visits = before ++ [u] ∧ c.SamePage u.context := by
  cases h with
  | first hc => exact Or.inl ⟨rfl, hc⟩
  | @keep before u _ => exact Or.inr ⟨before, u, rfl, rfl, rfl⟩
  | @restore before u save _ _ => exact Or.inr ⟨before, u, rfl, rfl, rfl⟩

/-- Visits, the oldest first, each of which takes over what the visits before it hand on, and
changes it by its own status mask only. -/
structure Threaded (s : Store) (start : Int) (visits : List Visit) : Prop where
  opcode : ∀ v ∈ visits, v.opcode = s.peek v.offset
  head : ∀ v ∈ visits.head?, v.offset = start
  context : ∀ before v after, visits = before ++ v :: after →
    ∃ c, HandsOn s start before c ∧ s.TakesOver v.offset c v.context

namespace Threaded

variable {s : Store} {start : Int} {visits : List Visit} {v : Visit} {c : Context}

theorem nil (s : Store) (start : Int) : Threaded s start [] where
  opcode _ hv := by cases hv
  head _ hv := by cases hv
  context _ _ _ hsplit := by simp at hsplit

/-- One more visit that takes over what was handed on. -/
theorem snoc (h : Threaded s start visits) (hop : v.opcode = s.peek v.offset)
    (hhead : visits = [] → v.offset = start) (hc : HandsOn s start visits c)
    (hv : s.TakesOver v.offset c v.context) :
    Threaded s start (visits ++ [v]) where
  opcode u hu := by
    rcases List.mem_append.1 hu with hu | hu
    · exact h.opcode u hu
    · rw [List.mem_singleton.1 hu]
      exact hop
  head u hu := by
    cases visits with
    | nil =>
      obtain rfl : v = u := by simpa using hu
      exact hhead rfl
    | cons first rest => exact h.head u hu
  context before u after hsplit := by
    rcases List.eq_nil_or_concat after with rfl | ⟨after', last, rfl⟩
    · obtain ⟨rfl, hlast⟩ := List.append_inj' hsplit rfl
      obtain rfl := List.head_eq_of_cons_eq hlast
      exact ⟨c, hc, hv⟩
    · have hsplit' : visits ++ [v] = (before ++ u :: after') ++ [last] := by simpa using hsplit
      exact h.context before u after' (List.append_inj' hsplit' rfl).1

/-- No visit leaves the page and bank with which the first one began. -/
theorem samePage_first (h : Threaded s start visits)
    (hfirst : s.inheritedContext start (start - 1) = .ok c) (before : List Visit) {v : Visit}
    {after : List Visit} (hsplit : visits = before ++ v :: after) : v.context.SamePage c := by
  obtain ⟨d, hd, hv⟩ := h.context before v after hsplit
  have hown := hv.samePage
  rcases hd.samePage with ⟨-, hd⟩ | ⟨before', u, hbefore, hlast⟩
  · obtain rfl := Except.ok.inj (hfirst.symm.trans hd)
    exact hown
  · have hsplit' : visits = before' ++ u :: v :: after := by
      rw [hsplit, hbefore, List.append_assoc]
      rfl
    exact hown.trans (hlast.trans (h.samePage_first hfirst before' hsplit'))
termination_by before.length
decreasing_by simp [hbefore]

theorem samePage (h : Threaded s start visits)
    (hfirst : s.inheritedContext start (start - 1) = .ok c) {u : Visit} (hu : u ∈ visits)
    (hv : v ∈ visits) : u.context.SamePage v.context := by
  obtain ⟨before, after, hsplit⟩ := List.append_of_mem hu
  obtain ⟨before', after', hsplit'⟩ := List.append_of_mem hv
  exact (h.samePage_first hfirst before hsplit).trans (h.samePage_first hfirst before' hsplit').symm

end Threaded

/-- What holds of a walk and its store whenever it comes to an instruction. -/
structure Walk.Threads (s : Store) (start : Int) (w : Walk) (t : Store) : Prop where
  valid : t.Valid
  agrees : s.Agrees t
  contains : t.Contains w.offset
  head : w.visits = [] → w.offset = start
  statuses : w.statuses =
    (stillOpen [Opcode.php] [Opcode.plp] w.visits).map fun v => v.context.widths
  handsOn : HandsOn s start w.visits.reverse (t.inherited w.offset w.prev)
  threaded : Threaded s start w.visits.reverse

namespace Walk.Threads

variable {s t : Store} {start : Int} {w : Walk}

theorem begin (hs : s.Valid) (hstart : s.Contains start) :
    Threads s start (Walk.start start) s where
  valid := hs
  agrees := Store.Agrees.refl s
  contains := hstart
  head _ := rfl
  statuses := rfl
  handsOn := HandsOn.first (Store.inheritedContext_of_contains hstart)
  threaded := Threaded.nil s start

theorem threaded_successor (h : Threads s start w t) :
    Threaded s start (w.successor t).visits.reverse := by
  rw [visits_successor, List.reverse_cons]
  refine h.threaded.snoc (h.agrees.peek w.offset) ?_ h.handsOn ?_
  · intro hnone
    exact h.head (List.reverse_eq_nil_iff.1 hnone)
  · exact h.agrees.takesOver.1 (t.takesOver_statusContext w.offset _)

theorem statuses_successor (h : Threads s start w t) (hrun : (w.successor t).stop = none) :
    (w.successor t).statuses = (stillOpen [Opcode.php] [Opcode.plp] (w.successor t).visits).map
      fun v => v.context.widths := by
  obtain ⟨-, hstatuses, -, -⟩ := successor_of_running hrun
  have hsaved : (w.note (w.visit t)).statuses = _ := h.statuses
  rw [hstatuses, visits_successor, statuses_withStatus, hsaved, stillOpen]
  simp only [List.mem_singleton]
  change (if (w.visit t).opcode = _ then _ else if (w.visit t).opcode = _ then _ else _) = _
  split
  · rfl
  · split
    · exact (List.map_tail ..).symm
    · rfl

/-- The context looked up for the next instruction is the one handed on to it. -/
theorem handsOn_successor (h : Threads s start w t) (hrun : (w.successor t).stop = none) :
    HandsOn s start (w.successor t).visits.reverse
      ((w.storeAfter t).inherited (w.successor t).offset (w.successor t).prev) := by
  obtain ⟨hstatus, -, hprev, -⟩ := successor_of_running hrun
  rw [visits_successor, List.reverse_cons, hprev]
  by_cases hop : t.peek w.offset = Opcode.plp
  · obtain ⟨bits, rest, hbits⟩ := withStatus_of_running hstatus hop
    have hsaved : w.statuses = bits :: rest := hbits
    rw [inherited_storeAfter_restore h.valid h.contains _ hop hsaved]
    rw [h.statuses] at hsaved
    obtain ⟨save, others, hopen, rfl, -⟩ := List.map_eq_cons_iff.1 hsaved
    rw [Context.withWidths_widths]
    exact HandsOn.restore hop (lastOpen_of_stillOpen hopen)
  · rw [inherited_storeAfter h.valid h.contains _ hop]
    exact HandsOn.keep hop

/-- A step of a walk that goes on keeps the invariant. -/
theorem step (h : Threads s start w t) (hrun : (w.successor t).stop = none) :
    Threads s start (w.successor t) (w.storeAfter t) where
  valid := valid_storeAfter h.valid
  agrees := h.agrees.trans (agrees_storeAfter w t)
  contains := (successor_of_running hrun).2.2.2
  head hnone := by
    rw [visits_successor] at hnone
    cases hnone
  statuses := h.statuses_successor hrun
  handsOn := h.handsOn_successor hrun
  threaded := h.threaded_successor

/-- However far it goes, a walk succeeds and its visits are threaded. -/
theorem run (h : Threads s start w t) (n : Nat) :
    ∃ w' t', Walk.run n w t = .ok w' t' ∧ s.Agrees t' ∧ Threaded s start w'.visits.reverse ∧
      ((w.visits ≠ [] ∨ 0 < n ∧ ¬ w.seen.contains w.offset) → w'.visits ≠ []) := by
  induction n generalizing w t with
  | zero =>
    refine ⟨w, t, rfl, h.agrees, h.threaded, ?_⟩
    rintro (hvisits | ⟨hn, -⟩)
    · exact hvisits
    · exact absurd hn (Nat.lt_irrefl 0)
  | succ n ih =>
    unfold Walk.run
    by_cases hseen : w.seen.contains w.offset
    · rw [if_pos hseen]
      refine ⟨_, t, rfl, h.agrees, h.threaded, ?_⟩
      rintro (hvisits | ⟨-, hnew⟩)
      · exact hvisits
      · exact absurd hseen hnew
    · have hvisits : (w.successor t).visits ≠ [] := by
        rw [visits_successor]
        exact List.cons_ne_nil _ _
      rw [if_neg hseen, bind_of_ok (advance_of_contains h.valid h.contains)]
      cases hstop : (w.successor t).stop with
      | none =>
        obtain ⟨w', t', hrun, hagree, hthreaded, hmore⟩ := ih (h.step hstop)
        exact ⟨w', t', hrun, hagree, hthreaded, fun _ => hmore (Or.inl hvisits)⟩
      | some reason =>
        exact ⟨_, _, rfl, h.agrees.trans (agrees_storeAfter w t), h.threaded_successor,
          fun _ => hvisits⟩

end Walk.Threads

section Recording

variable {s t : Store} {start : Int} {visits : List Visit} {v : Visit}

theorem Threaded.masked_context (h : Threaded s start visits) (hs : s.Valid)
    (hstart : s.Contains start) (hv : v ∈ visits) : v.context.masked = v.context := by
  obtain ⟨before, after, hsplit⟩ := List.append_of_mem hv
  have hpage := h.samePage_first (Store.inheritedContext_of_contains hstart) before hsplit
  have hmasked := Store.masked_inherited hs start (start - 1)
  rw [Context.masked_eq_iff] at hmasked ⊢
  rwa [hpage.1, hpage.2]

theorem Project.masked_entryOf (h : v.context.masked = v.context) :
    (entryOf s v).masked = entryOf s v := by
  have hop : ((v.opcode.toNat : Int)) % 0x100 = v.opcode.toNat := by
    have := v.opcode.toNat_lt
    omega
  simp only [TraceEntry.masked, entryOf, Option.map_some, hop, h]

theorem Project.entryOf_agrees (h : s.Agrees t) : entryOf t = entryOf s := by
  funext v
  simp only [entryOf, h.busAddress?]

/-- An empty recorder with room for all visits receives them as they took place. -/
theorem Threaded.toList_recorded (h : Threaded s start visits) (hs : s.Valid)
    (hstart : s.Contains start) {capacity : Nat} (hroom : visits.length ≤ capacity) :
    (visits.foldl (fun r v => Recorder.record r (Project.entryOf s v)) { capacity }).toList =
      visits.map (Project.entryOf s) := by
  have hkept := Recorder.toList_foldl capacity (visits.map (Project.entryOf s))
  rw [List.foldl_map, List.map_map, List.length_map, Nat.min_eq_left hroom,
    rtake_of_length_le (by rw [List.length_map])] at hkept
  rw [hkept]
  refine List.map_congr_left fun v hv => ?_
  exact Project.masked_entryOf (h.masked_context hs hstart hv)

theorem Project.recorder_follow {p : Project} {r : Recorder} (h : p.recorder = some r)
    (visits : List Visit) : (p.follow visits).recorder =
      some (visits.foldl (fun r v => r.record (entryOf p.store v)) r) := by
  have hreport : (p.report (visits.flatMap Visit.events)).recorder = some r := h
  unfold follow recordVisits
  rw [hreport]
  rfl

end Recording

/--
A walk from any offset of the image visits instructions whose contexts are threaded, and an empty
recorder that is large enough receives these visits. Direct page and bank are the same in all.
-/
theorem ProjectM.walk_threads_contexts (p : Project) (hs : p.store.Valid) {start : Int}
    (hstart : p.store.Contains start) (limit : Int) :
    ∃ (w : Walk) (q : Project), walk start limit p = .ok w.offset q ∧
      StoreM.walk start limit p.store = .ok w q.store ∧
      (0 < limit → w.visits ≠ []) ∧
      Threaded p.store start w.visits.reverse ∧
      (∀ u ∈ w.visits, ∀ v ∈ w.visits, u.context.directPage = v.context.directPage ∧
        u.context.dataBank = v.context.dataBank) ∧
      ∀ capacity, p.recorder = some { capacity } → w.visits.length ≤ capacity →
        q.recorder.map Recorder.toList =
          some (w.visits.reverse.map (Project.entryOf p.store)) := by
  obtain ⟨w, t, hrun, hagree, hthreaded, hmore⟩ :=
    (Walk.Threads.begin hs hstart).run limit.toNat
  have hwalk : StoreM.walk start limit p.store = .ok w t := hrun
  have hstore : (({ p with store := t } : Project).follow w.visits.reverse).store = t :=
    Project.store_follow _ _
  refine ⟨w, (({ p with store := t } : Project).follow w.visits.reverse).report
    (w.stop.toList.map Event.stopped), ?_, ?_, ?_, hthreaded, ?_, ?_⟩
  · unfold walk
    exact (bind_of_ok (onStore_of_ok hwalk)).trans rfl
  · exact hwalk.trans (congrArg (EStateM.Result.ok w) hstore.symm)
  · intro hlimit
    exact hmore (Or.inr ⟨by omega, Bool.false_ne_true⟩)
  · intro u hu v hv
    exact hthreaded.samePage (Store.inheritedContext_of_contains hstart) (List.mem_reverse.2 hu)
      (List.mem_reverse.2 hv)
  · intro capacity hempty hroom
    have hrecorder := Project.recorder_follow
      (show ({ p with store := t } : Project).recorder = some { capacity } from hempty)
      w.visits.reverse
    change Option.map _ (({ p with store := t } : Project).follow w.visits.reverse).recorder = _
    rw [hrecorder, Project.entryOf_agrees hagree]
    exact congrArg some (hthreaded.toList_recorded hs hstart (by rwa [List.length_reverse]))

/-- A save, a change of both widths, a load that is narrow for it, a restore, and a load that takes
the saved widths over and is wide again. -/
theorem ProjectM.walk_threads_contexts_restore :
    let rom : Array UInt8 := #[0x08, 0xE2, 0x30, 0xA9, 0x12, 0x28, 0xA9, 0x34, 0x12, 0xDB]
    let s : Store := ⟨rom, .loRom, .slow, Array.replicate 10 {}, {}, {}⟩
    let p : Project := { store := s, recorder := some { capacity := 6 } }
    let wide : Context := {}
    let narrow : Context := { xFlag := true, mFlag := true }
    s.Valid ∧ s.Contains 0 ∧ ∃ (w : Walk) (q : Project), walk 0 8 p = .ok w.offset q ∧
      w.visits.length = 6 ∧ Threaded s 0 w.visits.reverse ∧
      q.recorder.map Recorder.toList = some (w.visits.reverse.map (Project.entryOf s)) ∧
      q.recorder.map (fun r => r.toList.map fun e => (e.offset, e.context, e.next)) =
        some [(0, wide, 1), (1, narrow, 3), (3, narrow, 5), (5, narrow, 6), (6, wide, 9),
          (9, wide, 10)] := by
  intro rom s p wide narrow
  have hcreate : Store.create rom .loRom .slow = .ok s := rfl
  have hs := Store.valid_create hcreate
  have hstart : s.Contains 0 := by decide
  obtain ⟨w, q, hwalk, hrun, -, hthreaded, -, hrecorded⟩ := walk_threads_contexts p hs hstart 8
  have hvisits : (match StoreM.walk 0 8 p.store with
      | .ok w _ => w.visits.reverse.map fun v => (v.offset, v.context, v.next)
      | .error _ _ => []) = [(0, wide, 1), (1, narrow, 3), (3, narrow, 5), (5, narrow, 6),
        (6, wide, 9), (9, wide, 10)] := by decide +kernel
  simp only [hrun] at hvisits
  have hlength : w.visits.length = 6 := by simpa using congrArg List.length hvisits
  have hentries := hrecorded 6 rfl (Nat.le_of_eq hlength)
  refine ⟨hs, hstart, w, q, hwalk, hlength, hthreaded, hentries, ?_⟩
  obtain ⟨r, hr, hlist⟩ := Option.map_eq_some_iff.1 hentries
  rw [hr, Option.map_some, hlist, List.map_map]
  exact congrArg some hvisits

end Disassembly

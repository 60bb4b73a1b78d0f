import Disassembly.Proofs.Analysis.Sweep
import Disassembly.Proofs.Analysis.Threading
import Mathlib.Tactic.SplitIfs

/-!
Straight-line code. A walk decodes each instruction twice, keeps its stacks and looks where it has
come to; a sweep decodes once and goes on behind the instruction whatever it is. As long as no
instruction passes control elsewhere for good, both come to the same instructions in the same
stores, and a recorder receives the same entries from both.
-/
namespace Disassembly

/-- A walk goes on right behind the instruction and its record stays as it was decoded. Branches,
which a walk passes by, and saves of the widths are among these. -/
def Opcode.IsStraight (op : UInt8) : Prop :=
  op ∉ jumps ∧ op ∉ calls ∧ op ∉ returns ∧ op ∉ stops ∧ op ≠ plp

instance (op : UInt8) : Decidable (Opcode.IsStraight op) := inferInstanceAs (Decidable (_ ∧ _))

namespace Walk

variable {s t : Store} {w : Walk} {op : UInt8} {context : Context}

section Step

/-- Looking where a walk has come to can only stop it. -/
theorem inspect_eq (w : Walk) (op : UInt8) (s : Store) :
    w.inspect op s = { w with stop := (w.inspect op s).stop } := by
  unfold inspect
  split_ifs <;> rfl

theorem inspect_of_code (hop : op ∉ Opcode.stops) (hin : s.Contains w.offset)
    (hcode : (s.cell w.offset).flag.isCode) : w.inspect op s = w := by
  simp [inspect, hop, hin, hcode]

/-- Unless widths are restored, only the saved ones may change. -/
theorem withStatus_eq (h : op ≠ Opcode.plp) (context : Context) :
    w.withStatus op context = { w with statuses := (w.withStatus op context).statuses } := by
  unfold withStatus
  rw [if_neg h]
  split_ifs <;> rfl

/-- The walk behind a straight instruction, before it is checked where it has come to. -/
def passed (w : Walk) (s : Store) : Walk :=
  ((w.note (w.visit s)).withStatus (s.peek w.offset) (w.visit s).context).goTo (w.visit s).next

theorem successor_of_straight (hop : Opcode.IsStraight (s.peek w.offset)) (hrun : w.stop = none) :
    w.successor s = (w.passed s).inspect (s.peek w.offset) (w.storeAfter s) := by
  obtain ⟨-, hcall, hreturn, -, hrestore⟩ := hop
  have hstop : ((w.note (w.visit s)).withStatus (s.peek w.offset) (w.visit s).context).stop =
      none := by
    rw [withStatus_eq hrestore]
    exact hrun
  have hrouted : w.routed s = w.passed s := by
    simp [routed, hstop, route, hcall, hreturn, passed]
  have hgoes : (w.passed s).stop = none := hstop
  simp [successor, hrouted, hgoes]

end Step

/-- The walk and the sweep are at the same place and have visited the same instructions; what the
walk has seen lies behind it. -/
structure Follows (w : Walk) (v : Sweep) : Prop where
  offset : w.offset = v.offset
  prev : w.prev = v.prev
  seen : ∀ o, w.seen.contains o → o < w.offset
  entries : ∀ s, w.visits.map (Project.entryOf s) = v.visits.map (Project.entryOf s)

namespace Follows

variable {v v' : Sweep} {behind : Int}

theorem start (offset : Int) : (Walk.start offset).Follows ⟨offset, offset - 1, []⟩ where
  offset := rfl
  prev := rfl
  seen _ h := absurd h Bool.false_ne_true
  entries _ := rfl

theorem not_seen (h : w.Follows v) : ¬ w.seen.contains w.offset := by
  intro hseen
  exact Int.lt_irrefl _ (h.seen _ hseen)

/-- The visits differ in their decodings only, which no entry shows. -/
theorem entryOf_visit (h : w.Follows v) (hop : Opcode.IsStraight (s.peek w.offset)) (u : Store) :
    Project.entryOf u (w.visit s) = Project.entryOf u (v.visit s) := by
  have hpasses : Opcode.followsTarget (s.peek w.offset) false false = false := by
    simp [Opcode.followsTarget, hop.1]
  have hnext : (w.visit s).next = (v.visit s).next := by
    rw [h.offset] at hpasses
    simp only [Walk.visit, Sweep.visit, Store.decoding, h.offset, h.prev, hpasses,
      Bool.false_eq_true, if_false]
  simp only [Project.entryOf, hnext]
  simp only [Walk.visit, Sweep.visit, h.offset, h.prev]

section Step

variable (h : w.Follows v) (hop : Opcode.IsStraight (s.peek w.offset)) (hrun : w.stop = none)

include h hop

theorem storeAfter : w.storeAfter s = s.decoded v.offset v.prev := by
  rw [Walk.storeAfter_of_ne hop.2.2.2.2, h.offset, h.prev]

theorem next_visit : (w.visit s).next = (v.successor s).offset :=
  congrArg TraceEntry.next (h.entryOf_visit hop s)

include hrun

theorem successor : (w.successor s).Follows (v.successor s) := by
  have hnext := h.next_visit hop
  have hpos : 1 ≤ s.lengthUnder v.offset (s.decodingContext v.offset v.prev) := Mode.length_pos _
  have hlt : w.offset < (v.successor s).offset := by
    rw [h.offset]
    change v.offset < v.offset + _
    omega
  rw [successor_of_straight hop hrun, inspect_eq, passed, withStatus_eq hop.2.2.2.2]
  constructor
  · exact hnext
  · exact h.offset
  · intro o hseen
    change o < (w.visit s).next
    have hseen : (w.note (w.visit s)).seen.contains o := hseen
    rcases (contains_seen_note w _ o).1 hseen with ⟨-, rfl⟩ | hseen
    · exact hnext ▸ hlt
    · have hold := h.seen o hseen
      omega
  · intro u
    simp [goTo, note, Sweep.successor, h.entryOf_visit hop, h.entries]

/-- The walk goes on as long as it comes to code of the image. -/
theorem running (hin : s.Contains (v.successor s).offset)
    (hcode : ((s.decoded v.offset v.prev).cell (v.successor s).offset).flag.isCode) :
    (w.successor s).stop = none := by
  have hnext : (w.passed s).offset = (v.successor s).offset := h.next_visit hop
  have hstop : (w.passed s).stop = none := by
    rw [passed, withStatus_eq hop.2.2.2.2]
    exact hrun
  rw [successor_of_straight hop hrun, h.storeAfter hop, inspect_of_code hop.2.2.2.1]
  · exact hstop
  · rw [hnext]
    exact (Store.agrees_decoded s _ _).contains.2 hin
  · rwa [hnext]

end Step

end Follows

end Walk

namespace Sweep

variable {s t : Store} {v v' : Sweep} {behind : Int}

/-- A sweep forgets no visit. -/
theorem visits_run {n : Nat} (hs : s.Valid) (h0 : 0 ≤ v.offset) (hsize : behind ≤ s.size)
    (hrun : run behind n v s = .ok v' t) : ∀ u ∈ v.visits, u ∈ v'.visits := by
  induction n generalizing s v with
  | zero =>
    obtain ⟨rfl, rfl⟩ := EStateM.Result.ok.inj hrun
    exact fun _ hu => hu
  | succ n ih =>
    by_cases hlt : v.offset < behind
    · have ho : s.Contains v.offset := ⟨h0, by omega⟩
      have hnext : (v.successor s).offset = v.offset + (s.lengthUnder v.offset _ : Nat) := rfl
      rw [run_step n hs ho hlt] at hrun
      intro u hu
      apply ih (hs.decoded _ _) (by omega) _ hrun u
      · exact List.mem_cons_of_mem _ hu
      · rwa [(Store.agrees_decoded s _ _).size]
    · rw [run_end _ (by omega)] at hrun
      obtain ⟨rfl, rfl⟩ := EStateM.Result.ok.inj hrun
      exact fun _ hu => hu

end Sweep

namespace Walk

variable {s t : Store} {w : Walk} {v v' : Sweep} {behind : Int}

/-- Through straight code a walk of as many instructions does what a sweep does. It may be stopped
at its end, where the sweep ends too. -/
theorem Follows.run (h : w.Follows v) (n : Nat) (hs : s.Valid) (h0 : 0 ≤ v.offset)
    (hsize : behind ≤ s.size) (hgoes : w.stop = none)
    (hsweep : Sweep.run behind n v s = .ok v' t)
    (hops : ∀ u ∈ v'.visits, Opcode.IsStraight u.opcode)
    (hcode : ∀ i, v.offset ≤ i → i < behind → (s.cell i).flag.isCode) :
    ∃ k w', v'.visits.length = v.visits.length + k ∧ Walk.run k w s = .ok w' t ∧
      w'.Follows v' := by
  induction n generalizing s w v with
  | zero =>
    obtain ⟨rfl, rfl⟩ := EStateM.Result.ok.inj hsweep
    exact ⟨0, w, rfl, rfl, h⟩
  | succ n ih =>
    by_cases hlt : v.offset < behind
    · have ho : s.Contains v.offset := ⟨h0, by omega⟩
      have hnext : (v.successor s).offset = v.offset + (s.lengthUnder v.offset _ : Nat) := rfl
      have hpos : 1 ≤ s.lengthUnder v.offset (s.decodingContext v.offset v.prev) :=
        Mode.length_pos _
      have hagree := Store.agrees_decoded s v.offset v.prev
      have hsize' : behind ≤ (s.decoded v.offset v.prev).size := by rwa [hagree.size]
      rw [Sweep.run_step n hs ho hlt] at hsweep
      have hop : Opcode.IsStraight (s.peek w.offset) := by
        have hvisited := Sweep.visits_run (hs.decoded _ _) (by omega) hsize' hsweep (v.visit s)
          (List.mem_cons_self)
        rw [h.offset]
        exact hops _ hvisited
      have hstep (k : Nat) := run_step_of_contains k hs (h.offset ▸ ho) h.not_seen
      have hfollows := h.successor hop hgoes
      rw [h.storeAfter hop] at hstep
      by_cases hmore : (v.successor s).offset < behind
      · have hkept : ∀ i, (v.successor s).offset ≤ i → i < behind →
            ((s.decoded v.offset v.prev).cell i).flag.isCode := by
          intro i hi hbehind
          rw [Store.flag_decoded_outside hs ho ⟨by omega, by omega⟩ (Or.inr hi)]
          exact hcode i (by omega) hbehind
        have hruns := h.running hop hgoes ⟨by omega, by omega⟩ (hkept _ (Int.le_refl _) hmore)
        obtain ⟨k, w', hlength, hrun, hend⟩ := ih hfollows (hs.decoded _ _) (by omega) hsize' hruns
          hsweep hkept
        refine ⟨k + 1, w', ?_, ?_, hend⟩
        · simp only [hlength, Sweep.successor, List.length_cons]
          omega
        · simpa [hstep, hruns] using hrun
      · rw [Sweep.run_end _ (by omega)] at hsweep
        obtain ⟨rfl, rfl⟩ := EStateM.Result.ok.inj hsweep
        refine ⟨1, _, rfl, ?_, hfollows⟩
        rw [hstep]
        split_ifs <;> rfl
    · rw [Sweep.run_end _ (by omega)] at hsweep
      obtain ⟨rfl, rfl⟩ := EStateM.Result.ok.inj hsweep
      exact ⟨0, w, rfl, rfl, h⟩

end Walk

/-- Visits with the same entries leave the same recorder. -/
theorem Project.recorder_follow_congr (p : Project) {visits more : List Visit}
    (h : visits.map (entryOf p.store) = more.map (entryOf p.store)) :
    (p.follow visits).recorder = (p.follow more).recorder := by
  cases hr : p.recorder with
  | none => simp [follow, recordVisits, report, hr]
  | some r =>
    have hfold := congrArg (List.foldl Recorder.record r) h
    simp only [List.foldl_map] at hfold
    rw [recorder_follow hr, recorder_follow hr, hfold]

/--
Where a sweep comes to straight instructions only, through bytes that are not set apart as data, a
walk of as many instructions from the same offset ends where the sweep ends. It leaves the same
store and the same recorder.
-/
theorem ProjectM.walk_eq_sweep {p : Project} (hs : p.store.Valid) {start behind : Int}
    (h0 : 0 ≤ start) (hlt : start < min behind p.store.size) :
    ∃ (v : Sweep) (q : Project), StoreM.sweep start behind p.store = .ok v q.store ∧
      sweep start behind p = .ok v.offset q ∧
      ((∀ u ∈ v.visits, Opcode.IsStraight u.opcode) →
        (∀ i, p.store.Contains i → start ≤ i → i < v.offset → (p.store.cell i).flag.isCode) →
        ∃ q', walk start v.visits.length p = .ok v.offset q' ∧ q'.store = q.store ∧
          q'.recorder = q.recorder) := by
  obtain ⟨heads, v, t, hsweep, hswept⟩ := StoreM.sweep_of_contains hs h0 hlt
  have hstore : (({ p with store := t } : Project).follow v.visits.reverse).store = t :=
    Project.store_follow _ _
  refine ⟨v, _, ?_, sweep_of_run hsweep, fun hops hcode => ?_⟩
  · exact hsweep.trans (congrArg (EStateM.Result.ok v) hstore.symm)
  have hregion : ∀ i, start ≤ i → i < min behind p.store.size →
      (p.store.cell i).flag.isCode := by
    intro i hi hbehind
    have hend := hswept.reaches.1
    exact hcode i ⟨by omega, by omega⟩ hi (by omega)
  obtain ⟨k, w, hlength, hwalk, hfollows⟩ := (Walk.Follows.start start).run _ hs h0
    (Int.min_le_right behind p.store.size) rfl hsweep hops hregion
  have hlimit : StoreM.walk start v.visits.length p.store = .ok w t := by
    rw [hlength]
    simpa [StoreM.walk] using hwalk
  refine ⟨_, (walk_of_run hlimit).trans (by rw [hfollows.offset]), ?_, ?_⟩
  · exact (Project.store_follow _ _).trans hstore.symm
  · apply Project.recorder_follow_congr
    rw [List.map_reverse, List.map_reverse, hfollows.entries]

/-- A save, a branch to itself, a change of both widths, a load of eight bits, and a load that the
end of the image cuts off. The recorder has room for three of the five. -/
theorem ProjectM.walk_eq_sweep_branch :
    let s : Store := ⟨#[0x08, 0xD0, 0xFE, 0xE2, 0x30, 0xA9, 0x12, 0xAD, 0x00], .loRom, .slow,
      Array.replicate 9 {}, {}, {}⟩
    let p : Project := { store := s, recorder := some { capacity := 3 } }
    s.Valid ∧ 0 < min 100 (s.size : Int) ∧ ∃ q q', sweep 0 100 p = .ok 10 q ∧
      walk 0 5 p = .ok 10 q' ∧ q'.store = q.store ∧ q'.recorder = q.recorder := by
  intro s p
  have hcreate : Store.create #[0x08, 0xD0, 0xFE, 0xE2, 0x30, 0xA9, 0x12, 0xAD, 0x00] .loRom .slow =
    .ok s := rfl
  have hs := Store.valid_create hcreate
  have hlt : 0 < min 100 (s.size : Int) := by decide
  obtain ⟨v, q, hrun, hsweep, hwalk⟩ := walk_eq_sweep (p := p) hs (Int.le_refl 0) hlt
  have hvisits : (match StoreM.sweep 0 100 p.store with
      | .ok v _ => (v.offset, v.visits.map Visit.opcode)
      | .error _ _ => (0, [])) = (10, [0xAD, 0xA9, 0xE2, 0xD0, 0x08]) := by decide +kernel
  rw [hrun] at hvisits
  obtain ⟨hend, hops⟩ := Prod.mk.inj hvisits
  have hlength : v.visits.length = 5 := by simpa using congrArg List.length hops
  have hstraight : ∀ op ∈ v.visits.map Visit.opcode, Opcode.IsStraight op := by
    rw [hops]
    simp only [List.forall_mem_cons, List.not_mem_nil, false_implies, implies_true, and_true]
    decide
  obtain ⟨q', hwalked, hstore, hrecorder⟩ := hwalk (by simpa using hstraight) (by
    intro i _ _ _
    rw [Store.cell_create hcreate]
    rfl)
  rw [hend] at hsweep hwalked
  rw [hlength] at hwalked
  exact ⟨hs, hlt, q, q', hsweep, hwalked, hstore, hrecorder⟩

end Disassembly

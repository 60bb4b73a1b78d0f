import Disassembly.Analysis.Walk
import Disassembly.Proofs.Decode.Repeat

/-!
What one step of a walk does. Inside the image it always succeeds: the instruction is decoded, its
second decoding changes nothing, and a restore puts saved widths into its own record. If the walk
goes on, it goes on inside the image, from the instruction that it has just visited.
-/
namespace Disassembly

/-- The visit is one of a jump or a branch. -/
def Visit.IsTransfer (v : Visit) : Prop := v.opcode ∈ Opcode.jumps ∨ v.opcode ∈ Opcode.branches

instance (v : Visit) : Decidable v.IsTransfer := inferInstanceAs (Decidable (_ ∨ _))

namespace Walk

variable {s : Store} {w : Walk} {op : UInt8} {context : Context}

/-- The visit of the instruction that a walk has come to. -/
def visit (w : Walk) (s : Store) : Visit :=
  ⟨w.offset, s.peek w.offset, s.decodingContext w.offset w.prev,
    (s.decoding w.offset false false w.prev).next,
    [s.decoding w.offset false false w.prev, s.decoding w.offset true false w.prev]⟩

/-- The walk behind an instruction that may save or restore widths. -/
def withStatus (w : Walk) (op : UInt8) (context : Context) : Walk :=
  if op = Opcode.php then { w with statuses := context.widths :: w.statuses }
  else if op = Opcode.plp then
    match w.statuses with
    | [] => w.halt .unmatchedRestore w.offset
    | _ :: rest => { w with statuses := rest }
  else w

/-- The store behind an instruction that may restore widths. -/
def restored (w : Walk) (op : UInt8) (s : Store) : Store :=
  if op = Opcode.plp then
    match w.statuses with
    | [] => s
    | bits :: _ => s.editRun w.offset 1 (·.setWidths bits)
  else s

/-- The store after one step of the walk. -/
def storeAfter (w : Walk) (s : Store) : Store :=
  w.restored (s.peek w.offset) (s.decoded w.offset w.prev)

/-- The walk after one step, before it is checked where it has come to. -/
def routed (w : Walk) (s : Store) : Walk :=
  let w' := (w.note (w.visit s)).withStatus (s.peek w.offset) (w.visit s).context
  if w'.stop.isSome then w'
  else w'.route (s.peek w.offset) (w.visit s).next (s.decoding w.offset true false w.prev).next

/-- The walk after one step. -/
def successor (w : Walk) (s : Store) : Walk :=
  if (w.routed s).stop.isSome then w.routed s
  else (w.routed s).inspect (s.peek w.offset) (w.storeAfter s)

theorem passStatus_of_contains (h : s.Contains w.offset) :
    w.passStatus op context s = .ok (w.withStatus op context) (w.restored op s) := by
  unfold passStatus withStatus restored
  by_cases hsave : op = Opcode.php
  · subst hsave
    rfl
  · rw [if_neg hsave, if_neg hsave]
    by_cases hrestore : op = Opcode.plp
    · rw [if_pos hrestore, if_pos hrestore, if_pos hrestore]
      cases hstatuses : w.statuses with
      | nil => rfl
      | cons bits rest => exact bind_of_ok (StoreM.edit_of_contains h _)
    · rw [if_neg hrestore, if_neg hrestore, if_neg hrestore]
      rfl

/-- Outside the image a step fails before it changes anything. -/
theorem advance_outside (ho : ¬ s.Contains w.offset) :
    w.advance s = .error (.outside 1 w.offset s.size) s :=
  bind_of_error (StoreM.decode_outside ho false false w.prev)

/-- Inside the image a step succeeds. -/
theorem advance_of_contains (hs : s.Valid) (ho : s.Contains w.offset) :
    w.advance s = .ok (w.successor s) (w.storeAfter s) := by
  have hnoted : (s.decoded w.offset w.prev).Contains (w.note (w.visit s)).offset :=
    (Store.agrees_decoded s _ _).contains.2 ho
  unfold advance
  refine (bind_of_ok (StoreM.decode_of_contains hs ho false false w.prev)).trans ?_
  refine (bind_of_ok (StoreM.decode_decoded hs ho true false w.prev)).trans ?_
  refine (bind_of_ok (StoreM.read_of_ok (Store.contextAt_decoded hs ho w.prev))).trans ?_
  refine (bind_of_ok (passStatus_of_contains hnoted)).trans ?_
  -- The walk ends at a restore without a save, ends or goes on in its routing, or is inspected.
  split
  · next hstop =>
    have hrouted : w.routed s =
        (w.note (w.visit s)).withStatus (s.peek w.offset) (w.visit s).context := if_pos hstop
    have hsuccessor : w.successor s = w.routed s := if_pos (by rw [hrouted]; exact hstop)
    rw [hsuccessor, hrouted]
    rfl
  · next hgoes =>
    have hrouted : w.routed s =
        ((w.note (w.visit s)).withStatus (s.peek w.offset) (w.visit s).context).route
          (s.peek w.offset) (w.visit s).next (s.decoding w.offset true false w.prev).next :=
      if_neg hgoes
    dsimp only
    split
    · next hstop =>
      have hsuccessor : w.successor s = w.routed s := if_pos (by rw [hrouted]; exact hstop)
      rw [hsuccessor, hrouted]
      rfl
    · next hinside =>
      have hsuccessor : w.successor s =
          (w.routed s).inspect (s.peek w.offset) (w.storeAfter s) :=
        if_neg (by rw [hrouted]; exact hinside)
      rw [hsuccessor, hrouted]
      rfl

section Visits

/-- What a walk remembers of the instructions that it has visited. -/
def memory (w : Walk) : List Visit × Std.TreeSet Int := (w.visits, w.seen)

@[simp] theorem memory_withStatus (w : Walk) (op : UInt8) (context : Context) :
    (w.withStatus op context).memory = w.memory := by
  unfold withStatus
  split
  · rfl
  · split
    · split <;> rfl
    · rfl

@[simp] theorem memory_route (w : Walk) (op : UInt8) (next target : Int) :
    (w.route op next target).memory = w.memory := by
  unfold route
  split
  · split <;> rfl
  · split <;> rfl

@[simp] theorem memory_inspect (w : Walk) (op : UInt8) (s : Store) :
    (w.inspect op s).memory = w.memory := by
  unfold inspect
  split
  · rfl
  · split
    · rfl
    · split <;> rfl

/-- After the visit is noted, a step remembers nothing more. -/
theorem memory_successor (w : Walk) (s : Store) :
    (w.successor s).memory = (w.note (w.visit s)).memory := by
  have hrouted : (w.routed s).memory = (w.note (w.visit s)).memory := by
    unfold routed
    dsimp only
    split
    · exact memory_withStatus _ _ _
    · rw [memory_route]
      exact memory_withStatus _ _ _
  unfold successor
  split
  · exact hrouted
  · rw [memory_inspect]
    exact hrouted

/-- A step adds one visit, also when the walk ends with it. -/
theorem visits_successor (w : Walk) (s : Store) :
    (w.successor s).visits = w.visit s :: w.visits :=
  congrArg Prod.fst (memory_successor w s)

theorem seen_successor (w : Walk) (s : Store) :
    (w.successor s).seen = (w.note (w.visit s)).seen :=
  congrArg Prod.snd (memory_successor w s)

/-- Jumps and branches are remembered when they are visited. -/
theorem contains_seen_note (w : Walk) (v : Visit) (offset : Int) :
    (w.note v).seen.contains offset ↔
      v.IsTransfer ∧ v.offset = offset ∨ w.seen.contains offset := by
  have htransfer : Opcode.jumps.contains v.opcode || Opcode.branches.contains v.opcode ↔
      v.IsTransfer := by
    simp [Visit.IsTransfer]
  unfold note
  simp only [htransfer]
  split
  · next hv =>
    rw [Std.TreeSet.contains_insert, Bool.or_eq_true, beq_iff_eq,
      Std.LawfulEqCmp.compare_eq_iff_eq]
    simp [hv]
  · next hv => simp [hv]

end Visits

section Running

theorem offset_withStatus (w : Walk) (op : UInt8) (context : Context) :
    (w.withStatus op context).offset = w.offset := by
  unfold withStatus
  split
  · rfl
  · split
    · split <;> rfl
    · rfl

theorem statuses_withStatus (w : Walk) (op : UInt8) (context : Context) :
    (w.withStatus op context).statuses =
      if op = Opcode.php then context.widths :: w.statuses
      else if op = Opcode.plp then w.statuses.tail
      else w.statuses := by
  unfold withStatus
  split
  · rfl
  · split
    · split
      · next hempty => simp [halt, hempty]
      · next hsaved => simp [hsaved]
    · rfl

theorem withStatus_of_running (h : (w.withStatus op context).stop = none)
    (hop : op = Opcode.plp) : ∃ bits rest, w.statuses = bits :: rest := by
  cases hstatuses : w.statuses with
  | nil =>
    subst hop
    have hhalt : w.withStatus Opcode.plp context = w.halt .unmatchedRestore w.offset := by
      simp [withStatus, hstatuses, Opcode.php, Opcode.plp]
    rw [hhalt] at h
    cases h
  | cons bits rest => exact ⟨bits, rest, rfl⟩

theorem route_of_running {next target : Int} (h : (w.route op next target).stop = none) :
    (w.route op next target).prev = w.offset ∧
      (w.route op next target).statuses = w.statuses := by
  unfold route at h ⊢
  split
  · next hreturn =>
    rw [if_pos hreturn] at h
    cases hcalls : w.calls with
    | nil =>
      rw [hcalls] at h
      cases h
    | cons back rest => exact ⟨rfl, rfl⟩
  · split
    · exact ⟨rfl, rfl⟩
    · exact ⟨rfl, rfl⟩

theorem inspect_of_running (h : (w.inspect op s).stop = none) :
    w.inspect op s = w ∧ s.Contains w.offset := by
  unfold inspect at h ⊢
  by_cases hstop : Opcode.stops.contains op
  · rw [if_pos hstop] at h
    cases h
  · rw [if_neg hstop] at h ⊢
    by_cases hleft : ¬ s.Contains w.offset
    · rw [if_pos hleft] at h
      cases h
    · rw [if_neg hleft] at h ⊢
      by_cases hcode : (s.cell w.offset).flag.isCode
      · exact ⟨if_pos hcode, Decidable.not_not.1 hleft⟩
      · rw [if_neg hcode] at h
        cases h

/-- A walk that goes on has not ended in the first of two parts. -/
theorem going_of_running {first second : Walk}
    (h : (if first.stop.isSome then first else second).stop = none) :
    first.stop = none ∧ (if first.stop.isSome then first else second) = second := by
  cases hstop : first.stop with
  | none => exact ⟨rfl, if_neg Bool.false_ne_true⟩
  | some reason =>
    rw [if_pos (by rw [hstop]; rfl), hstop] at h
    cases h

/-- A walk that goes on does so inside the image, from the instruction that it has visited. -/
theorem successor_of_running (h : (w.successor s).stop = none) :
    ((w.note (w.visit s)).withStatus (s.peek w.offset) (w.visit s).context).stop = none ∧
      (w.successor s).statuses =
        ((w.note (w.visit s)).withStatus (s.peek w.offset) (w.visit s).context).statuses ∧
      (w.successor s).prev = w.offset ∧
      (w.storeAfter s).Contains (w.successor s).offset := by
  obtain ⟨hrouted, hinspect⟩ := going_of_running h
  obtain ⟨hstatus, hroute⟩ := going_of_running hrouted
  have hsuccessor : w.successor s = _ := hinspect
  have hpassed : w.routed s = _ := hroute
  rw [hsuccessor] at h
  obtain ⟨hsame, hinside⟩ := inspect_of_running h
  rw [hsuccessor, hsame]
  rw [hpassed] at hrouted
  obtain ⟨hprev, hstatuses⟩ := route_of_running hrouted
  rw [← hpassed, offset_withStatus] at hprev
  rw [← hpassed] at hstatuses
  exact ⟨hstatus, hstatuses, hprev, hinside⟩

end Running

section Stores

theorem agrees_restored (w : Walk) (op : UInt8) (s : Store) : s.Agrees (w.restored op s) := by
  unfold restored
  split
  · split
    · exact Store.Agrees.refl s
    · exact Store.agrees_editRun _ _ s w.offset
  · exact Store.Agrees.refl s

theorem agrees_storeAfter (w : Walk) (s : Store) : s.Agrees (w.storeAfter s) :=
  (Store.agrees_decoded s w.offset w.prev).trans (agrees_restored w _ _)

theorem valid_storeAfter (hs : s.Valid) : (w.storeAfter s).Valid := by
  have hd := hs.decoded w.offset w.prev
  unfold storeAfter restored
  split
  · split
    · exact hd
    · next bits _ _ => exact hd.editRun (Cell.masking_setWidths bits) _ _
  · exact hd

theorem storeAfter_of_ne (h : s.peek w.offset ≠ Opcode.plp) :
    w.storeAfter s = s.decoded w.offset w.prev := if_neg h

theorem storeAfter_of_restore {bits : Int} {rest : List Int} (h : s.peek w.offset = Opcode.plp)
    (hsaved : w.statuses = bits :: rest) :
    w.storeAfter s = (s.decoded w.offset w.prev).editRun w.offset 1 (·.setWidths bits) := by
  unfold storeAfter restored
  rw [if_pos h, hsaved]

variable (hs : s.Valid) (ho : s.Contains w.offset) (next : Int)

include hs ho

/-- Whatever comes next takes over the context of the visited instruction. -/
theorem inherited_storeAfter (h : s.peek w.offset ≠ Opcode.plp) :
    (w.storeAfter s).inherited next w.offset = (w.visit s).context := by
  have hod := (Store.agrees_decoded s w.offset w.prev).contains.2 ho
  rw [storeAfter_of_ne h, Store.inherited_of_opcode hod (Store.flag_decoded_self hs ho)]
  exact Store.context_decoded_self hs ho

/-- Behind a restore it takes over that context with the widths that were saved last. -/
theorem inherited_storeAfter_restore {bits : Int} {rest : List Int}
    (h : s.peek w.offset = Opcode.plp) (hsaved : w.statuses = bits :: rest) :
    (w.storeAfter s).inherited next w.offset = (w.visit s).context.withWidths bits := by
  have hod := (Store.agrees_decoded s w.offset w.prev).contains.2 ho
  have hcell := (hs.decoded w.offset w.prev).cell_editRun (·.setWidths bits) 1 ho.1 hod
  rw [if_pos (by omega)] at hcell
  have hflag : (((s.decoded w.offset w.prev).editRun w.offset 1 (·.setWidths bits)).cell
      w.offset).flag = .opcode := by
    rw [hcell, Cell.flag_setWidths]
    exact Store.flag_decoded_self hs ho
  have hrestored := (Store.agrees_editRun (·.setWidths bits) 1 (s.decoded w.offset w.prev)
    w.offset).contains.2 hod
  rw [storeAfter_of_restore h hsaved, Store.inherited_of_opcode hrestored hflag, hcell,
    Cell.context_setWidths, Store.context_decoded_self hs ho]
  rfl

end Stores

section Routing

@[simp] theorem calls_withStatus (w : Walk) (op : UInt8) (context : Context) :
    (w.withStatus op context).calls = w.calls := by
  unfold withStatus
  split
  · rfl
  · split
    · split <;> rfl
    · rfl

theorem stop_withStatus (w : Walk) (op : UInt8) (context : Context) :
    (w.withStatus op context).stop = w.stop ∨
      op = Opcode.plp ∧
        (w.withStatus op context).stop = some ⟨.unmatchedRestore, w.offset⟩ := by
  unfold withStatus
  split
  · exact Or.inl rfl
  · split
    · next hrestore =>
      split
      · exact Or.inr ⟨hrestore, rfl⟩
      · exact Or.inl rfl
    · exact Or.inl rfl

@[simp] theorem calls_inspect (w : Walk) (op : UInt8) (s : Store) :
    (w.inspect op s).calls = w.calls := by
  unfold inspect
  split
  · rfl
  · split
    · rfl
    · split <;> rfl

@[simp] theorem offset_inspect (w : Walk) (op : UInt8) (s : Store) :
    (w.inspect op s).offset = w.offset := by
  unfold inspect
  split
  · rfl
  · split
    · rfl
    · split <;> rfl

/-- What a step does to the offset of a walk and to its open calls. -/
inductive Moves (w : Walk) (s : Store) (w' : Walk) : Prop
  | unmatchedRestore : s.peek w.offset = Opcode.plp →
    w'.stop = some ⟨.unmatchedRestore, w.offset⟩ → w'.calls = w.calls → Moves w s w'
  | unmatchedReturn : s.peek w.offset ∈ Opcode.returns → w.calls = [] →
    w'.stop = some ⟨.unmatchedReturn, w.offset⟩ → w'.calls = [] → Moves w s w'
  | back {rest : List Int} : s.peek w.offset ∈ Opcode.returns → w.calls = w'.offset :: rest →
    w'.calls = rest → Moves w s w'
  | call : s.peek w.offset ∈ Opcode.calls →
    w'.offset = (s.decoding w.offset true false w.prev).next →
    w'.calls = (w.visit s).next :: w.calls → Moves w s w'
  | next : s.peek w.offset ∉ Opcode.returns → s.peek w.offset ∉ Opcode.calls →
    w'.offset = (w.visit s).next → w'.calls = w.calls → Moves w s w'

/-- After its routing a walk is only stopped. -/
theorem successor_of_routed (w : Walk) (s : Store) :
    (w.successor s).offset = (w.routed s).offset ∧ (w.successor s).calls = (w.routed s).calls ∧
      ∀ stop, (w.routed s).stop = some stop → (w.successor s).stop = some stop := by
  unfold successor
  split
  · exact ⟨rfl, rfl, fun _ h => h⟩
  · next hgoes =>
    refine ⟨offset_inspect _ _ _, calls_inspect _ _ _, fun stop h => ?_⟩
    rw [h] at hgoes
    exact absurd rfl hgoes

theorem route_cases (w : Walk) (op : UInt8) (next target : Int) :
    (op ∈ Opcode.returns ∧ w.calls = [] ∧
      w.route op next target = w.halt .unmatchedReturn w.offset) ∨
    (∃ back rest, op ∈ Opcode.returns ∧ w.calls = back :: rest ∧
      w.route op next target = { w with calls := rest }.goTo back) ∨
    (op ∈ Opcode.calls ∧
      w.route op next target = { w with calls := next :: w.calls }.goTo target) ∨
    (op ∉ Opcode.returns ∧ op ∉ Opcode.calls ∧ w.route op next target = w.goTo next) := by
  unfold route
  simp only [List.contains_iff_mem]
  by_cases hreturn : op ∈ Opcode.returns
  · cases hcalls : w.calls with
    | nil => exact Or.inl ⟨hreturn, rfl, if_pos hreturn⟩
    | cons back rest => exact Or.inr (Or.inl ⟨back, rest, hreturn, rfl, if_pos hreturn⟩)
  · rw [if_neg hreturn]
    by_cases hcall : op ∈ Opcode.calls
    · exact Or.inr (Or.inr (Or.inl ⟨hcall, if_pos hcall⟩))
    · exact Or.inr (Or.inr (Or.inr ⟨hreturn, hcall, if_neg hcall⟩))

theorem moves_successor (hrun : w.stop = none) : w.Moves s (w.successor s) := by
  obtain ⟨hoffset, hcalls, hstop⟩ := successor_of_routed w s
  let noted := (w.note (w.visit s)).withStatus (s.peek w.offset) (w.visit s).context
  have hopen : noted.calls = w.calls := calls_withStatus _ _ _
  have hplace : noted.offset = w.offset := offset_withStatus _ _ _
  rcases stop_withStatus (w.note (w.visit s)) (s.peek w.offset) (w.visit s).context with
    hgoes | ⟨hop, hends⟩
  · have hgoes : noted.stop = none := hgoes.trans hrun
    have hrouted : w.routed s = noted.route (s.peek w.offset) (w.visit s).next
        (s.decoding w.offset true false w.prev).next :=
      if_neg (by rw [hgoes]; exact Bool.false_ne_true)
    rcases noted.route_cases (s.peek w.offset) (w.visit s).next
      (s.decoding w.offset true false w.prev).next with
      ⟨hop, hnone, hroute⟩ | ⟨back, rest, hop, hback, hroute⟩ | ⟨hop, hroute⟩ | ⟨hop, hop', hroute⟩
    · rw [hrouted, hroute] at hcalls hstop
      exact Moves.unmatchedReturn hop (hopen.symm.trans hnone)
        (hstop _ (by rw [← hplace]; rfl)) (hcalls.trans hnone)
    · rw [hrouted, hroute] at hoffset hcalls
      exact Moves.back hop (by rw [hoffset, ← hopen]; exact hback) hcalls
    · rw [hrouted, hroute] at hoffset hcalls
      exact Moves.call hop hoffset (hcalls.trans (congrArg _ hopen))
    · rw [hrouted, hroute] at hoffset hcalls
      exact Moves.next hop hop' hoffset (hcalls.trans hopen)
  · have hrouted : w.routed s = noted := if_pos (by rw [hends]; rfl)
    rw [hrouted] at hcalls hstop
    exact Moves.unmatchedRestore hop (hstop _ hends) (hcalls.trans hopen)

end Routing

section Induction

theorem run_of_seen (n : Nat) (hseen : w.seen.contains w.offset) :
    run (n + 1) w s = .ok (w.halt .alreadyVisited w.offset) s := by
  rw [run, if_pos hseen]
  rfl

theorem run_step_of_contains (n : Nat) (hs : s.Valid) (ho : s.Contains w.offset)
    (hnew : ¬ w.seen.contains w.offset) :
    run (n + 1) w s = if (w.successor s).stop.isSome then .ok (w.successor s) (w.storeAfter s)
      else run n (w.successor s) (w.storeAfter s) := by
  rw [run, if_neg hnew, bind_of_ok (advance_of_contains hs ho)]
  split <;> rfl

/-- What a step to an instruction that the walk has not seen keeps, the walk keeps. -/
theorem run_keeps_unseen {P : Walk → Store → Prop}
    (hstep : ∀ w t, t.Valid → t.Contains w.offset → w.stop = none → ¬ w.seen.contains w.offset →
      P w t → P (w.successor t) (w.storeAfter t))
    (hseen : ∀ w t, w.stop = none → P w t → P (w.halt .alreadyVisited w.offset) t)
    (n : Nat) (hs : s.Valid) (ho : s.Contains w.offset) (hrun : w.stop = none) (h : P w s) :
    ∃ w' t, run n w s = .ok w' t ∧ P w' t := by
  induction n generalizing w s with
  | zero => exact ⟨w, s, rfl, h⟩
  | succ n ih =>
    by_cases hagain : w.seen.contains w.offset
    · exact ⟨_, s, run_of_seen n hagain, hseen w s hrun h⟩
    · have hnext := hstep w s hs ho hrun hagain h
      rw [run_step_of_contains n hs ho hagain]
      cases hstop : (w.successor s).stop with
      | none => exact ih (valid_storeAfter hs) (successor_of_running hstop).2.2.2 hstop hnext
      | some reason => exact ⟨_, _, rfl, hnext⟩

/-- What a step of a walk keeps, the walk keeps. -/
theorem run_keeps {P : Walk → Store → Prop}
    (hstep : ∀ w t, t.Valid → t.Contains w.offset → w.stop = none → P w t →
      P (w.successor t) (w.storeAfter t))
    (hseen : ∀ w t, w.stop = none → P w t → P (w.halt .alreadyVisited w.offset) t)
    (n : Nat) (hs : s.Valid) (ho : s.Contains w.offset) (hrun : w.stop = none) (h : P w s) :
    ∃ w' t, run n w s = .ok w' t ∧ P w' t :=
  run_keeps_unseen (fun w t ht hin hgoes _ => hstep w t ht hin hgoes) hseen n hs ho hrun h

end Induction

end Walk

end Disassembly

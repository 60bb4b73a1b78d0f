import Disassembly.Proofs.Analysis.Returns

/-!
Where a walk goes on behind a jump. A jump is followed to its target if the target is a byte of the
image. If it is none the jump is passed by like any other instruction, unless the jump is cut off by
the end of the image: then nothing lies behind it and the walk ends.
-/
namespace Disassembly

namespace Opcode

variable {op : UInt8}

theorem mem_flows_of_jumps (h : op ∈ jumps) : op ∈ flows :=
  List.mem_append_left _ (List.mem_append_left _ h)

/-- No jump opens or closes a call. -/
theorem not_mem_calls_of_jumps (h : op ∈ jumps) : op ∉ calls ∧ op ∉ returns := by
  have hall : ∀ op ∈ jumps, op ∉ calls ∧ op ∉ returns := by decide +kernel
  exact hall op h

/-- A transfer of control is as long under any widths. -/
theorem resolve_of_flow (h : op ∈ flows) (x m : Bool) : (mode op).resolve x m = mode op := by
  rcases mode_of_flow h with ⟨hm, -⟩ | hm | hm | hm
  all_goals rw [hm]; rfl

end Opcode

namespace Store

variable {s t : Store} {v : Visit}

/-- The visit is of an instruction of the image, and goes on at the target of a jump, if it has one,
or behind the instruction. -/
structure Leads (s : Store) (v : Visit) : Prop where
  contains : s.Contains v.offset
  opcode : v.opcode = s.peek v.offset
  next : v.next =
    if v.opcode ∈ Opcode.jumps then (s.target? v.offset).getD v.behind else v.behind

theorem leads_visit {w : Walk} (hagree : s.Agrees t) (ho : t.Contains w.offset) :
    s.Leads (w.visit t) where
  contains := hagree.contains.1 ho
  opcode := hagree.peek w.offset
  next := by
    have hjumps : Opcode.followsTarget (t.peek w.offset) false false =
        decide (t.peek w.offset ∈ Opcode.jumps) := by
      simp [Opcode.followsTarget]
    change (t.decoding w.offset false false w.prev).next =
      if t.peek w.offset ∈ Opcode.jumps then _ else _
    simp only [Store.decoding, hjumps, decide_eq_true_eq]
    split
    · next hop =>
      have hflow : s.peek w.offset ∈ Opcode.flows := by
        rw [← hagree.peek]
        exact Opcode.mem_flows_of_jumps hop
      rw [(hagree.trans (agrees_own t w.offset _)).target?_of_flow hflow]
      rfl
    · rfl

namespace Leads

variable (h : s.Leads v) (hop : v.opcode ∈ Opcode.jumps)

include h hop

theorem of_jump : s.targetAt v.offset = .ok (some v.next) ∨
    s.targetAt v.offset = .ok none ∧ v.next = v.behind := by
  have hnext := h.next
  rw [if_pos hop] at hnext
  rw [hnext]
  exact targetAt_getD h.contains v.behind

theorem behind_eq : v.behind = v.offset + s.length v.offset := by
  have hflow := Opcode.mem_flows_of_jumps hop
  unfold Visit.behind Store.length Store.mode Store.modeUnder
  rw [← h.opcode, Opcode.resolve_of_flow hflow, Opcode.resolve_of_flow hflow]

/-- A jump that is cut off leads out of the image. -/
theorem not_contains_of_truncated (hcut : s.truncatedAt v.offset = .ok true) :
    ¬ s.Contains v.next := by
  rw [truncatedAt_of_contains h.contains] at hcut
  have hcut := of_decide_eq_true (Except.ok.inj hcut)
  have hnext := h.next
  rw [if_pos hop, target?_of_truncated hcut, Option.getD_none, h.behind_eq hop] at hnext
  intro hinside
  have := hinside.2
  omega

end Leads

end Store

section Walks

variable {s : Store} {start : Int}

theorem StoreM.walk_leads (hs : s.Valid) (hstart : s.Contains start) (limit : Int) :
    ∃ w t, walk start limit s = .ok w t ∧ w.Trailed s t ∧ ∀ v ∈ w.visits.reverse, s.Leads v := by
  refine Walk.run_keeps ?_ ?_ limit.toNat hs hstart rfl ⟨Walk.Trailed.begin s start, ?_⟩
  · rintro w t - ho hrun ⟨htrailed, hleads⟩
    refine ⟨htrailed.step ho hrun, ?_⟩
    intro v hv
    rw [Walk.visits_successor, List.mem_reverse, List.mem_cons] at hv
    rcases hv with rfl | hv
    · exact Store.leads_visit htrailed.agrees ho
    · exact hleads v (List.mem_reverse.2 hv)
  · rintro w t hrun ⟨htrailed, hleads⟩
    exact ⟨htrailed.seen hrun, hleads⟩
  · intro v hv
    cases hv

/--
Behind a jump a walk goes on at the target of the jump if that is a byte of the image, and else
behind the jump. Behind a jump that the end of the image cuts off it visits nothing.
-/
theorem StoreM.walk_follows_jumps (hs : s.Valid) (hstart : s.Contains start) (limit : Int) :
    ∃ w t, walk start limit s = .ok w t ∧
      (∀ before u next, w.GoesFrom before u next → u.opcode ∈ Opcode.jumps →
        s.targetAt u.offset = .ok (some next) ∨
          s.targetAt u.offset = .ok none ∧ next = u.behind) ∧
      ∀ before u after, w.visits.reverse = before ++ u :: after → u.opcode ∈ Opcode.jumps →
        s.truncatedAt u.offset = .ok true → after = [] := by
  obtain ⟨w, t, hrun, htrailed, hleads⟩ := walk_leads hs hstart limit
  have hnext {before : List Visit} {u : Visit} {next : Int} (hgoes : w.GoesFrom before u next)
      (hop : u.opcode ∈ Opcode.jumps) : next = u.next ∧ s.Leads u := by
    obtain ⟨hcall, hreturn⟩ := Opcode.not_mem_calls_of_jumps hop
    obtain ⟨after, hvisits⟩ := hgoes.visits
    refine ⟨(htrailed.goesOn hgoes).of_other hreturn hcall, hleads u ?_⟩
    rw [hvisits]
    exact List.mem_append_right _ List.mem_cons_self
  refine ⟨w, t, hrun, ?_, ?_⟩
  · intro before u next hgoes hop
    obtain ⟨rfl, hu⟩ := hnext hgoes hop
    exact hu.of_jump hop
  · intro before u after hvisits hop hcut
    cases after with
    | nil => rfl
    | cons v rest =>
      obtain ⟨hoffset, hu⟩ := hnext (Or.inl ⟨v, rest, hvisits, rfl⟩) hop
      have hv : v ∈ w.visits.reverse := by
        rw [hvisits]
        exact List.mem_append_right _ (List.mem_cons_of_mem u List.mem_cons_self)
      have hinside := (hleads v hv).contains
      rw [hoffset] at hinside
      exact absurd hinside (hu.not_contains_of_truncated hop hcut)

/-- A jump over one byte to a long branch that the end of the image cuts off. -/
theorem StoreM.walk_follows_jumps_truncated :
    let s : Store := ⟨#[0x4C, 0x04, 0x80, 0xEA, 0x82, 0xFC], .loRom, .slow,
      Array.replicate 6 {}, {}, {}⟩
    s.Valid ∧ s.Contains 0 ∧ ∃ w t u v, walk 0 8 s = .ok w t ∧ w.visits.reverse = [u, v] ∧
      u.opcode = 0x4C ∧ s.targetAt u.offset = .ok (some v.offset) ∧
      v.opcode = 0x82 ∧ s.truncatedAt v.offset = .ok true := by
  intro s
  have hcreate : Store.create #[0x4C, 0x04, 0x80, 0xEA, 0x82, 0xFC] .loRom .slow = .ok s := rfl
  have hs := Store.valid_create hcreate
  have hstart : s.Contains 0 := by decide
  obtain ⟨w, t, hrun, hjumps, hcut⟩ := walk_follows_jumps hs hstart 8
  have hfirst : (match walk 0 8 s with
      | .ok w _ => (w.visits.reverse.take 2).map fun v => (v.offset, v.opcode)
      | .error _ _ => []) = [(0, 0x4C), (4, 0x82)] := by decide +kernel
  rw [hrun] at hfirst
  simp only [List.map_eq_cons_iff, Prod.mk.injEq, List.map_eq_nil_iff] at hfirst
  obtain ⟨u, _, htake, hu, v, _, rfl, hv, rfl⟩ := hfirst
  have hsplit : w.visits.reverse = [u] ++ v :: w.visits.reverse.drop 2 := by
    calc w.visits.reverse = w.visits.reverse.take 2 ++ w.visits.reverse.drop 2 :=
          (List.take_append_drop 2 _).symm
      _ = [u] ++ v :: w.visits.reverse.drop 2 := by rw [htake]; rfl
  have htruncated : s.truncatedAt v.offset = .ok true := by
    have hcutoff : (s.size : Int) < 4 + s.length 4 := by decide +kernel
    rw [hv.1, Store.truncatedAt_of_contains (by decide), decide_eq_true hcutoff]
  have hlast : w.visits.reverse.drop 2 = [] :=
    hcut [u] v _ hsplit (by rw [hv.2]; decide) htruncated
  have htarget : s.targetAt u.offset = .ok (some v.offset) := by
    have hsome : s.target? 0 = some 4 := by decide +kernel
    have hread := Store.targetAt_of_contains hstart
    rcases hjumps [] u v.offset (Or.inl ⟨v, _, hsplit, rfl⟩) (by rw [hu.2]; decide) with
      htarget | ⟨hnone, -⟩
    · exact htarget
    · rw [hu.1, hread, hsome] at hnone
      cases hnone
  rw [hlast] at hsplit
  exact ⟨hs, hstart, w, t, u, v, hrun, hsplit, hu.2, htarget, hv.2, htruncated⟩

/-- The target of this jump is no byte of the image, and the walk goes on behind the jump. -/
theorem StoreM.walk_passes_jump :
    let s : Store := ⟨#[0x4C, 0x00, 0x00, 0xEA], .loRom, .slow, Array.replicate 4 {}, {}, {}⟩
    s.targetAt 0 = .ok none ∧ ∃ w t, walk 0 2 s = .ok w t ∧
      w.visits.reverse.map (fun v => (v.offset, v.opcode)) = [(0, 0x4C), (3, 0xEA)] := by
  intro s
  have hs := Store.valid_create (show Store.create #[0x4C, 0x00, 0x00, 0xEA] .loRom .slow =
    .ok s from rfl)
  have hstart : s.Contains 0 := by decide
  obtain ⟨w, t, hrun, -⟩ := walk_leads hs hstart 2
  have hvisits : (match walk 0 2 s with
      | .ok w _ => w.visits.reverse.map fun v => (v.offset, v.opcode)
      | .error _ _ => []) = [(0, 0x4C), (3, 0xEA)] := by decide +kernel
  rw [hrun] at hvisits
  have htarget : s.targetAt 0 = .ok none := by
    have hnone : s.target? 0 = none := by decide +kernel
    rw [Store.targetAt_of_contains hstart, hnone]
  exact ⟨htarget, w, t, hrun, hvisits⟩

end Walks

end Disassembly

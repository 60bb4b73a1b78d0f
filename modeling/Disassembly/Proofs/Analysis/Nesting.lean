import Disassembly.Analysis.Visit

/-!
Visits that open something and visits that close it, the last opened first: calls and returns,
saves and restores. What is open behind some visits is a stack that is computed visit by visit;
that a visit is on its top says that everything behind it is closed again.
-/
namespace Disassembly

/-- Opcodes in which those that open and those that close pair up. -/
inductive Nested (opens closes : List UInt8) : List UInt8 → Prop
  | nil : Nested opens closes []
  | other {op : UInt8} {ops : List UInt8} :
    op ∉ opens → op ∉ closes → Nested opens closes ops → Nested opens closes (op :: ops)
  | pair {op last : UInt8} {inner ops : List UInt8} :
    op ∈ opens → last ∈ closes → Nested opens closes inner → Nested opens closes ops →
    Nested opens closes (op :: inner ++ last :: ops)

/-- The newest of some visits, the oldest first, that is still open: all behind it is closed. -/
def LastOpen (opens closes : List UInt8) (before : List Visit) (v : Visit) : Prop :=
  ∃ earlier between, before = earlier ++ v :: between ∧ v.opcode ∈ opens ∧
    Nested opens closes (between.map Visit.opcode)

/-- What is still open of visits whose newest comes first. -/
def stillOpen (opens closes : List UInt8) : List Visit → List Visit
  | [] => []
  | v :: earlier =>
    if v.opcode ∈ opens then v :: stillOpen opens closes earlier
    else if v.opcode ∈ closes then (stillOpen opens closes earlier).tail
    else stillOpen opens closes earlier

variable {opens closes : List UInt8}

section Stack

variable {v : Visit} (earlier : List Visit)

theorem stillOpen_open (h : v.opcode ∈ opens) :
    stillOpen opens closes (v :: earlier) = v :: stillOpen opens closes earlier := if_pos h

theorem stillOpen_close (hopen : v.opcode ∉ opens) (h : v.opcode ∈ closes) :
    stillOpen opens closes (v :: earlier) = (stillOpen opens closes earlier).tail := by
  rw [stillOpen, if_neg hopen, if_pos h]

theorem stillOpen_other (hopen : v.opcode ∉ opens) (hclose : v.opcode ∉ closes) :
    stillOpen opens closes (v :: earlier) = stillOpen opens closes earlier := by
  rw [stillOpen, if_neg hopen, if_neg hclose]

end Stack

theorem Nested.append {a b : List UInt8} (ha : Nested opens closes a)
    (hb : Nested opens closes b) : Nested opens closes (a ++ b) := by
  induction ha with
  | nil => exact hb
  | other hopen hclose _ ih => exact Nested.other hopen hclose ih
  | pair hopen hclose hinner _ _ ih =>
    have hpair := Nested.pair hopen hclose hinner ih
    rwa [← List.cons_append, ← List.append_assoc] at hpair

/-- Behind the top of the stack all is closed, and before it the rest of the stack is open. -/
theorem stillOpen_eq_cons {visits rest : List Visit} {top : Visit}
    (h : stillOpen opens closes visits = top :: rest) :
    ∃ between earlier, visits = between ++ top :: earlier ∧ top.opcode ∈ opens ∧
      Nested opens closes (between.reverse.map Visit.opcode) ∧
      stillOpen opens closes earlier = rest := by
  match visits with
  | [] => cases h
  | v :: visits =>
    by_cases hopen : v.opcode ∈ opens
    · rw [stillOpen_open visits hopen] at h
      obtain ⟨rfl, rfl⟩ := List.cons.inj h
      exact ⟨[], visits, rfl, hopen, Nested.nil, rfl⟩
    by_cases hclose : v.opcode ∈ closes
    · rw [stillOpen_close visits hopen hclose] at h
      -- The newest visit closes the old top; the one looked for lies below that.
      obtain ⟨inner, hinner⟩ : ∃ inner, stillOpen opens closes visits = inner :: top :: rest := by
        cases hstack : stillOpen opens closes visits with
        | nil =>
          rw [hstack] at h
          cases h
        | cons inner others =>
          rw [hstack] at h
          exact ⟨inner, congrArg (inner :: ·) h⟩
      obtain ⟨between, earlier, hvisits, hop, hnested, hrest⟩ := stillOpen_eq_cons hinner
      have hshorter : earlier.length < visits.length := by
        simp only [hvisits, List.length_append, List.length_cons]
        omega
      obtain ⟨between', earlier', hearlier, hop', hnested', hrest'⟩ := stillOpen_eq_cons hrest
      refine ⟨v :: between ++ inner :: between', earlier', ?_, hop', ?_, hrest'⟩
      · simp [hvisits, hearlier]
      · have hpair := hnested'.append (Nested.pair hop hclose hnested Nested.nil)
        simpa using hpair
    · rw [stillOpen_other visits hopen hclose] at h
      obtain ⟨between, earlier, rfl, hop, hnested, hrest⟩ := stillOpen_eq_cons h
      refine ⟨v :: between, earlier, rfl, hop, ?_, hrest⟩
      have hlast := hnested.append (Nested.other hopen hclose Nested.nil)
      simpa using hlast
termination_by visits.length
decreasing_by
  · exact Nat.lt_succ_self _
  · exact Nat.lt_succ_of_lt hshorter
  · exact Nat.lt_succ_self _

theorem lastOpen_of_stillOpen {visits rest : List Visit} {top : Visit}
    (h : stillOpen opens closes visits = top :: rest) :
    LastOpen opens closes visits.reverse top := by
  obtain ⟨between, earlier, rfl, hop, hnested, -⟩ := stillOpen_eq_cons h
  exact ⟨earlier.reverse, between.reverse, by simp, hop, hnested⟩

end Disassembly

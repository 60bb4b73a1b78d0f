import Disassembly.Trace
import Mathlib.Data.List.DropRight

/-!
What a recorder keeps of the entries that it is given. Entry number `j` of the trace goes to slot
`j`, counted around the ring, and stays there until the ring has come round. Write index and number
of entries follow from the length of the trace, so reading backwards from the write index gives the
last entries of the trace, as many as there is room for.
-/
namespace Disassembly

section Last

variable {α : Type}

theorem rtake_of_length_le {a : List α} {n : Nat} (h : a.length ≤ n) : a.rtake n = a := by
  rw [List.rtake, Nat.sub_eq_zero_of_le h, List.drop_zero]

theorem filterMap_getElem?_range (a : List α) (n : Nat) :
    (List.range n).filterMap (fun i => a[i]?) = a.take n := by
  induction n with
  | zero => rfl
  | succ n ih =>
    rw [List.range_succ, List.filterMap_append, ih, List.take_add_one]
    cases h : a[n]? <;> simp [h]

/-- The last elements, picked one by one. -/
theorem filterMap_getElem?_last {a : List α} {n : Nat} (h : n ≤ a.length) :
    (List.range n).filterMap (fun i => a[a.length - n + i]?) = a.rtake n := by
  have hlength : (a.rtake n).length ≤ n := by
    rw [List.rtake, List.length_drop]
    omega
  have hplaces : (fun i => a[a.length - n + i]?) = fun i => (a.rtake n)[i]? := by
    funext i
    simp [List.rtake]
  rw [hplaces, filterMap_getElem?_range, List.take_of_length_le hlength]

/-- Numbers that are less than a turn apart have different places on the ring. -/
theorem mod_ne_of_lt {j n turn : Nat} (h : j < n) (h' : n < j + turn) : j % turn ≠ n % turn := by
  intro hsame
  have hdvd : turn ∣ n - j :=
    Nat.dvd_of_mod_eq_zero (Nat.sub_mod_eq_zero_of_mod_eq hsame.symm)
  have hnone : n - j = 0 := Nat.eq_zero_of_dvd_of_lt hdvd (by omega)
  omega

end Last

namespace Recorder

variable {r : Recorder} {entry : TraceEntry} {given : List TraceEntry}

theorem create_of_pos {capacity : Int} (h : 1 ≤ capacity) :
    create capacity = .ok { capacity := capacity.toNat } :=
  if_neg (by omega)

theorem shown_le (r : Recorder) (limit : Option Int) : r.shown limit ≤ r.size := by
  cases limit with
  | none => exact Nat.le_refl _
  | some limit => exact Nat.min_le_left _ _

section Slots

theorem slot_natCast (r : Recorder) (j : Nat) :
    r.slot j = r.slots.getD (j % r.capacity) none := by
  rw [slot, ← Int.natCast_emod, Int.toNat_natCast]

/-- Slots are numbered around the ring. -/
theorem slot_emod_add (r : Recorder) (m k : Int) :
    r.slot (m % r.capacity + k) = r.slot (m + k) := by
  rw [slot, slot, Int.emod_add_emod]

/-- An entry is put into the slot that was next, and no other one changes. -/
theorem slot_record (h : r.index < r.slots.size) (j : Nat) :
    (r.record entry).slot j = if j % r.capacity = r.index then some entry.masked else r.slot j := by
  simp only [slot_natCast, record, Array.getD_eq_getD_getElem?, Array.getElem?_setIfInBounds,
    if_pos h, eq_comm (a := j % r.capacity)]
  split
  · rfl
  · rfl

end Slots

/-- The recorder stands behind the trace `given`: the last entries of that are in their slots. -/
structure Holds (r : Recorder) (given : List TraceEntry) : Prop where
  slots : r.slots.size = r.capacity
  index : r.index = given.length % r.capacity
  size : r.size = min given.length r.capacity
  slot : ∀ j < given.length, given.length ≤ j + r.capacity → r.slot j = given[j]?

namespace Holds

theorem fresh (capacity : Nat) : Holds { capacity } [] where
  slots := Array.size_replicate
  index := (Nat.zero_mod capacity).symm
  size := (Nat.zero_min capacity).symm
  slot _ h := absurd h (Nat.not_lt_zero _)

/-- One more entry: it takes the place of the entry that was recorded a turn ago. -/
theorem record (h : r.Holds given) (entry : TraceEntry) :
    (r.record entry).Holds (given ++ [entry.masked]) where
  slots := Array.size_setIfInBounds.trans h.slots
  index := by
    simp [Recorder.record, h.index]
  size := by
    simp only [Recorder.record, h.size, List.length_append, List.length_singleton]
    split <;> omega
  slot j hj hlast := by
    rw [List.length_append, List.length_singleton] at hj hlast
    have hlast : given.length < j + r.capacity := hlast
    have hindex : r.index < r.slots.size := by
      rw [h.slots, h.index]
      exact Nat.mod_lt _ (by omega)
    rw [slot_record hindex, h.index]
    by_cases hnew : j = given.length
    · simp [hnew]
    · have hlt : j < given.length := by omega
      rw [if_neg (mod_ne_of_lt hlt hlast), h.slot j hlt hlast.le, List.getElem?_append_left hlt]

theorem foldl (h : r.Holds given) (more : List TraceEntry) :
    (more.foldl Recorder.record r).Holds (given ++ more.map TraceEntry.masked) := by
  induction more generalizing r given with
  | nil => simpa using h
  | cons entry rest ih =>
    have hrest := ih (h.record entry)
    rwa [List.append_assoc] at hrest

/-- Counted backwards from the slot that is next, slots hold the trace from its end. -/
theorem slot_back (h : r.Holds given) {count i : Nat} (hcount : count ≤ r.size) (hi : i < count) :
    r.slot (r.index - count + i) = given[given.length - count + i]? := by
  have hsize := h.size
  have hplace : ((given.length - count + i : Nat) : Int) = given.length + (i - count) := by omega
  have hnumber : (r.index : Int) - count + i = (given.length : Int) % r.capacity + (i - count) := by
    rw [h.index, Int.natCast_emod]
    omega
  rw [hnumber, slot_emod_add, ← hplace]
  exact h.slot _ (by omega) (by omega)

theorem entries (h : r.Holds given) (limit : Option Int) :
    r.entries limit = given.rtake (r.shown limit) := by
  have hshown := shown_le r limit
  have hsize := h.size
  rw [← filterMap_getElem?_last (show r.shown limit ≤ given.length by omega)]
  apply List.filterMap_congr
  intro i hi
  exact h.slot_back hshown (List.mem_range.1 hi)

theorem last? (h : r.Holds given) (hpos : 0 < r.capacity) : r.last? = given.getLast? := by
  have hsize := h.size
  unfold Recorder.last?
  split
  · have hnone : given = [] := List.length_eq_zero_iff.1 (by omega)
    rw [hnone]
    rfl
  · have hback := h.slot_back (show 1 ≤ r.size by omega) Nat.one_pos
    simpa [List.getLast?_eq_getElem?] using hback

end Holds

@[simp] theorem capacity_foldl (r : Recorder) (more : List TraceEntry) :
    (more.foldl record r).capacity = r.capacity := by
  induction more generalizing r with
  | nil => rfl
  | cons entry rest ih => exact ih (r.record entry)

/-- What is left of a trace in a recorder that was empty. -/
theorem toList_foldl (capacity : Nat) (given : List TraceEntry) :
    (given.foldl record { capacity }).toList =
      (given.map TraceEntry.masked).rtake (min given.length capacity) := by
  have h := (Holds.fresh capacity).foldl given
  have hsize := h.size
  rw [List.nil_append] at h hsize
  rw [toList, h.entries, shown, hsize, capacity_foldl, List.length_map]

/--
A recorder is the last part of its trace. Of the entries that it was given, with opcode, direct page
and bank cut to their widths, it holds as many as it has room for, shows the last of them up to a
limit in the order in which they came, each on a line of its own, and knows the very last.
-/
theorem holds_last {capacity : Int} (hcapacity : 1 ≤ capacity) (given : List TraceEntry) :
    ∃ fresh r kept, create capacity = .ok fresh ∧ given.foldl record fresh = r ∧
      given.map (fun e => { e with
        opcode := e.opcode.map (· % 0x100)
        context := { e.context with
          directPage := e.context.directPage % 0x10000
          dataBank := e.context.dataBank % 0x100 } }) = kept ∧
      r.size = min given.length capacity.toNat ∧
      r.entries none = kept.rtake (min given.length capacity.toNat) ∧
      (∀ limit : Int, r.entries (some limit) =
        kept.rtake (min (min given.length capacity.toNat) (max limit 0).toNat)) ∧
      r.last? = kept.getLast? ∧ ∀ limit, r.lines limit = (r.entries limit).map TraceEntry.line := by
  have hheld := (Holds.fresh capacity.toNat).foldl given
  rw [List.nil_append] at hheld
  have hroom : 0 < (given.foldl record { capacity := capacity.toNat }).capacity := by
    rw [capacity_foldl]
    exact Int.pos_iff_toNat_pos.1 hcapacity
  have hsize : (given.foldl record { capacity := capacity.toNat }).size =
      min given.length capacity.toNat := by
    rw [hheld.size, List.length_map, capacity_foldl]
  refine ⟨_, _, given.map TraceEntry.masked, create_of_pos hcapacity, rfl, rfl, hsize, ?_, ?_,
    hheld.last? hroom, fun _ => rfl⟩
  · rw [hheld.entries, shown, hsize]
  · intro limit
    have hlimit : (max limit 0).toNat = limit.toNat := by omega
    rw [hheld.entries, shown, hsize, hlimit]

/-- Five entries in three slots: the third one is the oldest that is left. -/
theorem holds_last_wrapped :
    let given := (List.range 5).map fun k : Nat =>
      ({ offset := k, address := -1, opcode := some (0x1A9 + k), mnemonic := "LDA",
         context := { directPage := -1, dataBank := 0x17E }, next := k + 1 } : TraceEntry)
    1 ≤ (3 : Int) ∧ ∃ fresh r, create 3 = .ok fresh ∧ given.foldl record fresh = r ∧ r.size = 3 ∧
      (r.entries none).map (·.offset) = [2, 3, 4] ∧
      (r.entries (some 2)).map (·.opcode) = [some 0xAC, some 0xAD] ∧ r.entries (some (-1)) = [] ∧
      r.last?.map (·.context) = some { directPage := 0xFFFF, dataBank := 0x7E } ∧
      r.lines (some 1) = ["pc=000004 snes=------ opcode=AD LDA D=FFFF B=7E mx next=000005"] := by
  intro given
  obtain ⟨fresh, r, kept, hcreate, hgiven, rfl, hsize, hall, hsome, hlast, hlines⟩ :=
    holds_last (show 1 ≤ (3 : Int) by decide) given
  refine ⟨by decide, fresh, r, hcreate, hgiven, hsize, ?_, ?_, ?_, ?_, ?_⟩
  · rw [hall]
    decide
  · rw [hsome]
    decide
  · rw [hsome]
    rfl
  · rw [hlast]
    decide
  · rw [hlines, hsome]
    decide +kernel

end Recorder

end Disassembly

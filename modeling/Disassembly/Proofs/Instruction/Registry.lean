import Disassembly.Instruction.Registry
import Mathlib.Data.List.Nodup
import Mathlib.Order.Bounds.Basic

/-!
Building instruction tables. Registering a list goes on up to the first opcode that is taken, and
what was registered before it stays. A table comes out exactly if every opcode occurs once; its
rows are then in the order of the opcodes, whatever the order of the list was.
-/
namespace Disassembly

namespace Registry

variable {r s t : Registry} {i old : Instruction} {is kept table : List Instruction} {op : UInt8}

/-- An opcode that occurs once is that of one instruction only. -/
theorem filter_of_nodup (h : (is.map (·.opcode)).Nodup) (hi : i ∈ is) :
    (is.filter fun j => j.opcode = i.opcode) = [i] := by
  induction is with
  | nil => cases hi
  | cons first rest ih =>
    rw [List.map_cons, List.nodup_cons] at h
    rcases List.mem_cons.1 hi with rfl | hrest
    · have hnone : ∀ j ∈ rest, j.opcode ≠ i.opcode := by
        intro j hj hop
        exact h.1 (List.mem_map.2 ⟨j, hj, hop⟩)
      simpa using hnone
    · have hne : first.opcode ≠ i.opcode := by
        intro hop
        exact h.1 (List.mem_map.2 ⟨i, hrest, hop.symm⟩)
      rw [List.filter_cons_of_neg (by simpa using hne)]
      exact ih h.2 hrest

theorem find?_of_nodup (h : (is.map (·.opcode)).Nodup) (hi : i ∈ is) :
    (is.find? fun j => j.opcode = i.opcode) = some i := by
  rw [← List.head?_filter, filter_of_nodup h hi, List.head?_cons]

section Slots

theorem getElem?_slots (r : Registry) (op : UInt8) : r.slots[op.toNat]? = some (r.get? op) :=
  Vector.getElem?_eq_getElem op.toNat_lt

@[simp] theorem get?_empty (op : UInt8) : get? {} op = none := by
  have h := getElem?_slots {} op
  simp [op.toNat_lt] at h
  exact h.symm

theorem register_of_taken (h : r.get? i.opcode = some old) :
    r.register i = (r, some (.duplicate i.opcode old.mnemonic)) := by
  rw [register, h]

/-- A free slot is filled, and no other one changes. -/
theorem register_of_free (h : r.get? i.opcode = none) : ∃ t, r.register i = (t, none) ∧
    ∀ op, t.get? op = if op = i.opcode then some i else r.get? op := by
  refine ⟨_, by rw [register, h], fun op => ?_⟩
  apply Option.some.inj
  rw [← getElem?_slots, Vector.getElem?_set, getElem?_slots]
  by_cases hop : op = i.opcode
  · simp [hop]
  · simp [hop, Ne.symm hop, UInt8.toNat_inj]

/-- A registration is refused exactly if its slot is taken, and then the table stays as it was. -/
theorem register_eq_some_iff {e : RegistryFault} : r.register i = (t, some e) ↔
    t = r ∧ ∃ old, r.get? i.opcode = some old ∧ e = .duplicate i.opcode old.mnemonic := by
  cases hslot : r.get? i.opcode with
  | none =>
    obtain ⟨t', hfree, -⟩ := register_of_free hslot
    simp [hfree]
  | some old =>
    simp [register_of_taken hslot, eq_comm]

theorem registerAll_of_refused {e : RegistryFault} (h : r.register i = (t, some e))
    (rest : List Instruction) : r.registerAll (i :: rest) = (r, some e) := by
  obtain ⟨rfl, -⟩ := register_eq_some_iff.1 h
  simp only [registerAll, h]

end Slots

section Registration

/-- The second table has the rows of the first and those of the list, whose opcodes were free and
differ. -/
structure Adds (r : Registry) (kept : List Instruction) (t : Registry) : Prop where
  nodup : (kept.map (·.opcode)).Nodup
  free : ∀ i ∈ kept, r.get? i.opcode = none
  get? : ∀ op, t.get? op = (r.get? op).or (kept.find? fun i => i.opcode = op)

namespace Adds

theorem nil (r : Registry) : Adds r [] r where
  nodup := List.nodup_nil
  free := by simp
  get? := by simp

theorem cons (hfree : r.get? i.opcode = none)
    (hs : ∀ op, s.get? op = if op = i.opcode then some i else r.get? op) (h : Adds s kept t) :
    Adds r (i :: kept) t where
  nodup := by
    rw [List.map_cons, List.nodup_cons]
    refine ⟨fun hmem => ?_, h.nodup⟩
    obtain ⟨j, hj, hop⟩ := List.mem_map.1 hmem
    have htaken := h.free j hj
    rw [hs, if_pos hop] at htaken
    cases htaken
  free := by
    rw [List.forall_mem_cons]
    refine ⟨hfree, fun j hj => ?_⟩
    have hj' := h.free j hj
    rw [hs] at hj'
    split at hj'
    · cases hj'
    · exact hj'
  get? op := by
    rw [h.get?, hs, List.find?_cons]
    by_cases hop : op = i.opcode
    · simp [hop, hfree]
    · simp [hop, Ne.symm hop]

/-- A row of the list is found under its opcode. -/
theorem get?_of_mem (h : Adds r kept t) (hi : i ∈ kept) : t.get? i.opcode = some i := by
  rw [h.get?, h.free i hi, Option.none_or, find?_of_nodup h.nodup hi]

theorem mem_of_get? (h : Adds {} kept t) (hi : t.get? op = some i) :
    i ∈ kept ∧ i.opcode = op := by
  rw [h.get?, get?_empty, Option.none_or] at hi
  exact ⟨List.mem_of_find?_eq_some hi, by simpa using List.find?_some hi⟩

end Adds

/-- Registration goes on up to the first opcode that is taken, and keeps what came before it. -/
theorem registerAll_cases (is : List Instruction) (r : Registry) :
    ∃ kept rest t, is = kept ++ rest ∧ Adds r kept t ∧
      (rest = [] ∧ r.registerAll is = (t, none) ∨
        ∃ i after old, rest = i :: after ∧ t.get? i.opcode = some old ∧
          r.registerAll is = (t, some (.duplicate i.opcode old.mnemonic))) := by
  induction is generalizing r with
  | nil => exact ⟨[], [], r, rfl, Adds.nil r, Or.inl ⟨rfl, rfl⟩⟩
  | cons i rest ih =>
    cases hslot : r.get? i.opcode with
    | some old =>
      refine ⟨[], i :: rest, r, rfl, Adds.nil r, Or.inr ⟨i, rest, old, rfl, hslot, ?_⟩⟩
      rw [registerAll, register_of_taken hslot]
    | none =>
      obtain ⟨s, hregister, hs⟩ := register_of_free hslot
      obtain ⟨kept, rest', t, rfl, hadds, houtcome⟩ := ih s
      refine ⟨i :: kept, rest', t, rfl, hadds.cons hslot hs, ?_⟩
      simpa [registerAll, hregister] using houtcome

end Registration

section Tables

theorem exists_opcode {n : Nat} (h : n < 256) : ∃ op : UInt8, op.toNat = n :=
  ⟨UInt8.ofNat n, by rw [UInt8.toNat_ofNat']; omega⟩

/-- The numbers of the slots that are empty. -/
def gaps (r : Registry) : Set Nat := {n | r.slots[n]? = some none}

/-- A table comes out of full slots, and otherwise the first empty slot is named. -/
theorem freeze_cases (r : Registry) :
    (∃ gap, IsLeast r.gaps gap ∧ r.freeze = .error (.incomplete gap)) ∨
      ∃ table, r.slots.toList = table.map some ∧ r.freeze = .ok table := by
  cases hgap : r.slots.toList.findIdx? Option.isNone with
  | some gap =>
    obtain ⟨hlt, hnone, hbefore⟩ := List.findIdx?_eq_some_iff_getElem.1 hgap
    refine Or.inl ⟨gap, ⟨?_, ?_⟩, by rw [freeze, hgap]⟩
    · rw [Option.isNone_iff_eq_none] at hnone
      simp only [gaps, Set.mem_ofPred_eq, ← Vector.getElem?_toList, List.getElem?_eq_getElem hlt,
        hnone]
    · intro n hn
      by_contra hless
      rw [Nat.not_le] at hless
      have hslot : r.slots.toList[n]? = some none := Vector.getElem?_toList.trans hn
      rw [List.getElem?_eq_getElem (hless.trans hlt), Option.some.injEq] at hslot
      exact hbefore n hless (by rw [hslot]; rfl)
  | none =>
    refine Or.inr ⟨_, ?_, by rw [freeze, hgap]⟩
    have hfull : ∀ slot ∈ r.slots.toList, (id slot).map some = some slot := by
      intro slot hslot
      have hsome := List.findIdx?_eq_none_iff.1 hgap slot hslot
      cases slot with
      | none => cases hsome
      | some i => rfl
    rw [List.map_filterMap, List.filterMap_congr hfull, List.filterMap_some]

/-- The opcodes that no instruction of the list has. -/
def missing (is : List Instruction) : Set Nat := {n | n < 256 ∧ ∀ i ∈ is, i.opcode.toNat ≠ n}

theorem Adds.gaps_eq (h : Adds {} is t) : t.gaps = missing is := by
  ext n
  simp only [gaps, missing, Set.mem_ofPred_eq]
  constructor
  · intro hgap
    have hlt : n < 256 := by
      by_contra hge
      rw [Vector.getElem?_eq_none (by omega)] at hgap
      cases hgap
    refine ⟨hlt, ?_⟩
    rintro i hi rfl
    rw [getElem?_slots, h.get?_of_mem hi] at hgap
    cases hgap
  · rintro ⟨hlt, hnone⟩
    obtain ⟨op, rfl⟩ := exists_opcode hlt
    rw [getElem?_slots]
    cases hrow : t.get? op with
    | none => rfl
    | some i =>
      obtain ⟨hi, hop⟩ := h.mem_of_get? hrow
      exact absurd (congrArg UInt8.toNat hop) (hnone i hi)

/-- Row `op` of the table is the only instruction of the list with that opcode. -/
structure IsTable (is table : List Instruction) : Prop where
  length : table.length = 256
  row : ∀ op : UInt8, ∃ i, table[op.toNat]? = some i ∧ (is.filter fun j => j.opcode = op) = [i]

theorem Adds.isTable (h : Adds {} is t) (hslots : t.slots.toList = table.map some) :
    IsTable is table := by
  constructor
  · have hlength := congrArg List.length hslots
    rw [List.length_map, Vector.length_toList] at hlength
    exact hlength.symm
  · intro op
    have hrow := getElem?_slots t op
    rw [← Vector.getElem?_toList, hslots, List.getElem?_map, Option.map_eq_some_iff] at hrow
    obtain ⟨i, hi, hget⟩ := hrow
    obtain ⟨hmem, rfl⟩ := h.mem_of_get? hget.symm
    exact ⟨i, hi, filter_of_nodup h.nodup hmem⟩

/-- The order of the list does not matter. -/
theorem IsTable.eq_of_perm {other table' : List Instruction} (h : IsTable is table)
    (h' : IsTable other table') (hperm : other.Perm is) : table' = table := by
  apply List.ext_getElem?
  intro n
  by_cases hlt : n < 256
  · obtain ⟨op, rfl⟩ := exists_opcode hlt
    obtain ⟨i, hi, hfilter⟩ := h.row op
    obtain ⟨j, hj, hfilter'⟩ := h'.row op
    have hsame := hperm.filter fun j => j.opcode = op
    rw [hfilter, hfilter', List.perm_singleton, List.singleton_inj] at hsame
    rw [hi, hj, hsame]
  · rw [List.getElem?_eq_none (by rw [h'.length]; omega),
      List.getElem?_eq_none (by rw [h.length]; omega)]

/-- The first instruction whose opcode occurred before, and the one that has it. -/
def FirstRepeat (is : List Instruction) (old i : Instruction) : Prop :=
  ∃ before after, is = before ++ i :: after ∧ (before.map (·.opcode)).Nodup ∧
    old ∈ before ∧ old.opcode = i.opcode

theorem FirstRepeat.not_nodup (h : FirstRepeat is old i) : ¬ (is.map (·.opcode)).Nodup := by
  obtain ⟨before, after, rfl, -, hold, hop⟩ := h
  intro hnodup
  rw [List.map_append, List.map_cons, List.nodup_append] at hnodup
  exact hnodup.2.2 _ (List.mem_map_of_mem hold) _ List.mem_cons_self hop

/-- A beginning that repeats nothing ends where the first repetition stands. -/
theorem FirstRepeat.more_eq_nil {before more after tail : List Instruction} (hold : old ∈ before)
    (hop : old.opcode = i.opcode) (hnodup : ((before ++ more).map (·.opcode)).Nodup)
    (hmore : i :: after = more ++ tail) : more = [] := by
  cases more with
  | nil => rfl
  | cons j rest =>
    obtain ⟨rfl, -⟩ := List.cons.inj hmore
    have hbefore := hnodup
    rw [List.map_append, List.nodup_append] at hbefore
    exact absurd hnodup (FirstRepeat.not_nodup ⟨before, rest, rfl, hbefore.1, hold, hop⟩)

theorem FirstRepeat.unique {old' i' : Instruction} (h : FirstRepeat is old i)
    (h' : FirstRepeat is old' i') : old = old' ∧ i = i' := by
  obtain ⟨before, after, rfl, hnodup, hold, hop⟩ := h
  obtain ⟨before', after', hsplit, hnodup', hold', hop'⟩ := h'
  have hbefore : before = before' := by
    obtain ⟨more, rfl, hmore⟩ | ⟨more, rfl, hmore⟩ := List.append_eq_append_iff.1 hsplit
    · rw [more_eq_nil hold hop hnodup' hmore, List.append_nil]
    · rw [more_eq_nil hold' hop' hnodup hmore, List.append_nil]
  subst hbefore
  obtain ⟨rfl, -⟩ := List.cons.inj (List.append_cancel_left hsplit)
  exact ⟨List.inj_on_of_nodup_map hnodup hold hold' (hop.trans hop'.symm), rfl⟩

/-- What becomes of a list: a table, or a complaint about a repeated or a missing opcode. -/
theorem build_cases (is : List Instruction) :
    (∃ table, (is.map (·.opcode)).Nodup ∧ IsTable is table ∧ build is = .ok table) ∨
    (∃ old i, FirstRepeat is old i ∧ build is = .error (.duplicate i.opcode old.mnemonic)) ∨
    ∃ gap, (is.map (·.opcode)).Nodup ∧ IsLeast (missing is) gap ∧
      build is = .error (.incomplete gap) := by
  obtain ⟨kept, rest, t, rfl, hadds, ⟨rfl, hrun⟩ | ⟨i, after, old, rfl, hold, hrun⟩⟩ :=
    registerAll_cases is {}
  · rw [List.append_nil] at hrun ⊢
    have hbuild : build kept = t.freeze := by rw [build, hrun]
    rcases freeze_cases t with ⟨gap, hleast, hfreeze⟩ | ⟨table, hslots, hfreeze⟩
    · rw [hadds.gaps_eq] at hleast
      exact Or.inr (Or.inr ⟨gap, hadds.nodup, hleast, hbuild.trans hfreeze⟩)
    · exact Or.inl ⟨table, hadds.nodup, hadds.isTable hslots, hbuild.trans hfreeze⟩
  · obtain ⟨hmem, hop⟩ := hadds.mem_of_get? hold
    exact Or.inr (Or.inl ⟨old, i, ⟨kept, after, rfl, hadds.nodup, hmem, hop⟩, by rw [build, hrun]⟩)

/-- Every opcode occurs once exactly if none is repeated and none is missing. -/
theorem perm_range_iff : (is.map (·.opcode.toNat)).Perm (List.range 256) ↔
    (is.map (·.opcode)).Nodup ∧ missing is = ∅ := by
  have hnodup : (is.map (·.opcode.toNat)).Nodup ↔ (is.map (·.opcode)).Nodup := by
    have hmap : is.map (·.opcode.toNat) = (is.map (·.opcode)).map UInt8.toNat := by simp
    rw [hmap]
    exact List.nodup_map_iff fun _ _ => UInt8.toNat_inj.1
  constructor
  · intro hperm
    refine ⟨hnodup.1 (hperm.nodup_iff.2 List.nodup_range), Set.eq_empty_iff_forall_notMem.2 ?_⟩
    rintro n ⟨hlt, hnone⟩
    obtain ⟨i, hi, hop⟩ := List.mem_map.1 (hperm.mem_iff.2 (List.mem_range.2 hlt))
    exact hnone i hi hop
  · rintro ⟨hdistinct, hnone⟩
    rw [List.perm_ext_iff_of_nodup (hnodup.2 hdistinct) List.nodup_range]
    intro n
    rw [List.mem_map, List.mem_range]
    constructor
    · rintro ⟨i, -, rfl⟩
      exact i.opcode.toNat_lt
    · intro hlt
      by_contra habsent
      have hmissing : n ∈ missing is := ⟨hlt, fun i hi hop => habsent ⟨i, hi, hop⟩⟩
      simp [hnone] at hmissing

theorem IsTable.missing_eq (h : IsTable is table) : missing is = ∅ := by
  refine Set.eq_empty_iff_forall_notMem.2 ?_
  rintro n ⟨hlt, hnone⟩
  obtain ⟨op, rfl⟩ := exists_opcode hlt
  obtain ⟨i, -, hfilter⟩ := h.row op
  have hmem : i ∈ is.filter fun j => j.opcode = op := by simp [hfilter]
  simp only [List.mem_filter, decide_eq_true_eq] at hmem
  exact hnone i hmem.1 (congrArg UInt8.toNat hmem.2)

theorem nodup_isTable_of_build (h : build is = .ok table) :
    (is.map (·.opcode)).Nodup ∧ IsTable is table := by
  obtain ⟨found, hnodup, htable, hbuild⟩ | ⟨old, i, -, hbuild⟩ | ⟨gap, -, -, hbuild⟩ :=
    build_cases is
  · obtain rfl := Except.ok.inj (hbuild.symm.trans h)
    exact ⟨hnodup, htable⟩
  · cases hbuild.symm.trans h
  · cases hbuild.symm.trans h

theorem build_ok_iff : (∃ table, build is = .ok table) ↔
    (is.map (·.opcode.toNat)).Perm (List.range 256) := by
  rw [perm_range_iff]
  constructor
  · rintro ⟨table, h⟩
    obtain ⟨hnodup, htable⟩ := nodup_isTable_of_build h
    exact ⟨hnodup, htable.missing_eq⟩
  · rintro ⟨hnodup, hnone⟩
    obtain ⟨table, -, -, hbuild⟩ | ⟨old, i, hrepeat, -⟩ | ⟨gap, -, hleast, -⟩ := build_cases is
    · exact ⟨table, hbuild⟩
    · exact absurd hnodup hrepeat.not_nodup
    · have hgap := hleast.1
      simp [hnone] at hgap

theorem build_eq_duplicate_iff {name : String} : build is = .error (.duplicate op name) ↔
    ∃ old i, FirstRepeat is old i ∧ i.opcode = op ∧ old.mnemonic = name := by
  constructor
  · intro h
    obtain ⟨table, -, -, hbuild⟩ | ⟨old, i, hrepeat, hbuild⟩ | ⟨gap, -, -, hbuild⟩ :=
      build_cases is
    · cases hbuild.symm.trans h
    · obtain ⟨hop, hname⟩ := RegistryFault.duplicate.inj (Except.error.inj (hbuild.symm.trans h))
      exact ⟨old, i, hrepeat, hop, hname⟩
    · cases hbuild.symm.trans h
  · rintro ⟨old', i', hrepeat', rfl, rfl⟩
    obtain ⟨table, hnodup, -⟩ | ⟨old, i, hrepeat, hbuild⟩ | ⟨gap, hnodup, -⟩ := build_cases is
    · exact absurd hnodup hrepeat'.not_nodup
    · obtain ⟨rfl, rfl⟩ := hrepeat.unique hrepeat'
      exact hbuild
    · exact absurd hnodup hrepeat'.not_nodup

theorem build_eq_incomplete_iff {gap : Nat} : build is = .error (.incomplete gap) ↔
    (is.map (·.opcode)).Nodup ∧ IsLeast (missing is) gap := by
  constructor
  · intro h
    obtain ⟨table, -, -, hbuild⟩ | ⟨old, i, -, hbuild⟩ | ⟨found, hnodup, hleast, hbuild⟩ :=
      build_cases is
    · cases hbuild.symm.trans h
    · cases hbuild.symm.trans h
    · obtain rfl := RegistryFault.incomplete.inj (Except.error.inj (hbuild.symm.trans h))
      exact ⟨hnodup, hleast⟩
  · rintro ⟨hnodup, hgap⟩
    obtain ⟨table, -, htable, -⟩ | ⟨old, i, hrepeat, -⟩ | ⟨found, -, hleast, hbuild⟩ :=
      build_cases is
    · have hmissing := hgap.1
      simp [htable.missing_eq] at hmissing
    · exact absurd hnodup hrepeat.not_nodup
    · rwa [hgap.unique hleast]

/--
A list makes a table exactly if its opcodes are all the bytes, each once. Row `op` is then the only
instruction for `op`, and a list in another order makes the same table. Otherwise the first
instruction that repeats an opcode is refused, naming the one that has it; or if none does, the
least opcode is named that is missing. A registration is refused if its opcode is taken; it leaves
the table as it was, and a list leaves the rows of the instructions before the first that is
refused.
-/
theorem build_tabulates (is : List Instruction) :
    ((∃ table, build is = .ok table) ↔ (is.map (·.opcode.toNat)).Perm (List.range 256)) ∧
    (∀ table, build is = .ok table → IsTable is table ∧
      ∀ other : List Instruction, other.Perm is → build other = .ok table) ∧
    (∀ op name, build is = .error (.duplicate op name) ↔
      ∃ old i, FirstRepeat is old i ∧ i.opcode = op ∧ old.mnemonic = name) ∧
    (∀ gap, build is = .error (.incomplete gap) ↔
      (is.map (·.opcode)).Nodup ∧ IsLeast (missing is) gap) ∧
    (∀ (r t : Registry) i e, r.register i = (t, some e) ↔
      t = r ∧ ∃ old, r.get? i.opcode = some old ∧ e = .duplicate i.opcode old.mnemonic) ∧
    (∀ (r t : Registry) i e, r.register i = (t, some e) → ∀ rest,
      r.registerAll (i :: rest) = (r, some e)) ∧
    ∀ r : Registry, ∃ kept rest t, is = kept ++ rest ∧ Adds r kept t ∧
      (rest = [] ∧ r.registerAll is = (t, none) ∨
        ∃ i after old, rest = i :: after ∧ t.get? i.opcode = some old ∧
          r.registerAll is = (t, some (.duplicate i.opcode old.mnemonic))) := by
  refine ⟨build_ok_iff, fun table h => ?_, fun op name => build_eq_duplicate_iff,
    fun gap => build_eq_incomplete_iff, fun r t i e => register_eq_some_iff,
    fun r t i e => registerAll_of_refused, registerAll_cases is⟩
  have htable := (nodup_isTable_of_build h).2
  refine ⟨htable, fun other hperm => ?_⟩
  obtain ⟨table', h'⟩ := build_ok_iff.2 ((hperm.map _).trans (build_ok_iff.1 ⟨table, h⟩))
  rw [h', htable.eq_of_perm (nodup_isTable_of_build h').2 hperm]

/-- The instruction set from its last opcode to its first; a list that repeats an opcode and lacks
others; and a registration that fails. -/
theorem build_tabulates_reversed :
    let nop : Instruction := ⟨0xEA, "NOP", .implied⟩
    let rts : Instruction := ⟨0x60, "RTS", .implied⟩
    let other : Instruction := ⟨0xEA, "STP", .implied⟩
    (∃ table, build standardInstructions = .ok table ∧ IsTable standardInstructions table ∧
      build standardInstructions.reverse = .ok table) ∧
    build [nop, rts, other] = .error (.duplicate 0xEA "NOP") ∧
    build [rts, nop] = .error (.incomplete 0) ∧
    ∃ r, register nop {} = (r, none) ∧ r.register other = (r, some (.duplicate 0xEA "NOP")) ∧
      r.get? 0xEA = some nop ∧ r.registerAll [rts, other] =
        ((r.register rts).1, some (.duplicate 0xEA "NOP")) := by
  intro nop rts other
  have hall : standardInstructions.map (·.opcode.toNat) = List.range 256 := by decide +kernel
  obtain ⟨table, hbuild⟩ := (build_tabulates standardInstructions).1.2 (by rw [hall])
  obtain ⟨htable, horder⟩ := (build_tabulates standardInstructions).2.1 table hbuild
  refine ⟨⟨table, hbuild, htable, horder _ (List.reverse_perm _)⟩, ?_, ?_, ?_⟩
  · rw [(build_tabulates _).2.2.1]
    exact ⟨nop, other, ⟨[nop, rts], [], rfl, by decide, List.mem_cons_self, rfl⟩, rfl, rfl⟩
  · rw [(build_tabulates _).2.2.2.1]
    refine ⟨by decide, ⟨by decide, by decide⟩, fun n _ => Nat.zero_le n⟩
  · obtain ⟨r, hregister, hr⟩ := register_of_free (get?_empty nop.opcode)
    have htaken : r.get? other.opcode = some nop := by rw [hr, if_pos rfl]
    have hrefused : r.register other = (r, some (.duplicate 0xEA "NOP")) :=
      ((build_tabulates []).2.2.2.2.1 r r other _).2 ⟨rfl, nop, htaken, rfl⟩
    obtain ⟨t, hnext, ht⟩ := register_of_free (show r.get? rts.opcode = none by
      rw [hr, if_neg (by decide), get?_empty])
    have hkept : t.get? other.opcode = some nop := by rw [ht, if_neg (by decide), htaken]
    refine ⟨r, hregister, hrefused, htaken, ?_⟩
    simp only [registerAll, hnext, register_of_taken hkept]
    rfl

end Tables

end Registry

end Disassembly

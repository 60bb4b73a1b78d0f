import Disassembly.Proofs.Analysis.Repair
import Disassembly.Proofs.Analysis.Vectors
import Disassembly.Proofs.Project.Listing

/-!
How analyses fail. An operation at an offset reads the opcode there before it changes anything, and
inside the image nothing that follows can fail: operands that are cut off are not read, targets are
followed only into the image, and a walk or a sweep that leaves the image ends. So a bad start is
the only cause of a failure, and the failure leaves no trace.
-/
namespace Disassembly

namespace Store

variable {s : Store} {o : Int}

theorem modeAt_outside (ho : ¬ s.Contains o) : s.modeAt o = .error (.outside 1 o s.size) := by
  unfold modeAt
  rw [byteAt_outside ho]
  rfl

theorem operandAddress_outside (ho : ¬ s.Contains o) (resolve : Bool) :
    s.operandAddress o resolve = .error (.outside 1 o s.size) := by
  unfold operandAddress
  rw [modeAt_outside ho]
  rfl

theorem instructionAt_outside (ho : ¬ s.Contains o) :
    s.instructionAt o = .error (.outside 1 o s.size) := by
  unfold instructionAt
  rw [modeAt_outside ho]
  rfl

theorem listingLine_outside (ho : ¬ s.Contains o) :
    s.listingLine o = .error (.outside 1 o s.size) := by
  unfold listingLine lengthAt
  rw [modeAt_outside ho]
  rfl

end Store

/-- A sweep does not begin before the image. -/
theorem StoreM.sweep_outside {s : Store} {start behind : Int} (h0 : start < 0)
    (hlt : start < min behind s.size) :
    sweep start behind s = .error (.outside 1 start s.size) s := by
  have hout : ¬ s.Contains start := fun h => absurd h.1 (by omega)
  obtain ⟨n, hn⟩ : ∃ n, (min behind s.size - start).toNat = n + 1 :=
    Nat.exists_eq_add_one.2 (by omega)
  change Sweep.run (min behind s.size) (min behind s.size - start).toNat _ s = _
  rw [hn, Sweep.run, if_pos hlt]
  exact bind_of_error (bind_of_error (decode_outside hout false true (start - 1)))

/-- A walk does not begin outside the image. -/
theorem StoreM.walk_outside {s : Store} {start limit : Int} (hlimit : 1 ≤ limit)
    (ho : ¬ s.Contains start) : walk start limit s = .error (.outside 1 start s.size) s := by
  obtain ⟨n, hn⟩ : ∃ n, limit.toNat = n + 1 := Nat.exists_eq_add_one.2 (by omega)
  have hnew : ¬ (Walk.start start).seen.contains (Walk.start start).offset = true :=
    Bool.false_ne_true
  rw [walk, hn, Walk.run, if_neg hnew]
  exact bind_of_error (Walk.advance_outside ho)

/-- A walk that may visit nothing does nothing. -/
theorem StoreM.walk_of_limit {limit : Int} (hlimit : limit < 1) (start : Int) (s : Store) :
    walk start limit s = .ok (Walk.start start) s := by
  have hzero : limit.toNat = 0 := by omega
  rw [walk, hzero]
  rfl

namespace ProjectM

variable {α β : Type} {p : Project} {o : Int}

/--
The operation fails exactly under the condition. The fault is a read outside the image and names
the offset, and nothing has changed then.
-/
def FailsIff (act : ProjectM α) (p : Project) (offset : Int) (bad : Prop) : Prop :=
  ∀ e q, act p = .error e q ↔ bad ∧ e = .outside 1 offset p.store.size ∧ q = p

def Succeeds (act : ProjectM α) (p : Project) : Prop := ∃ a q, act p = .ok a q

theorem FailsIff.intro {act : ProjectM α} {bad : Prop}
    (hbad : bad → act p = .error (.outside 1 o p.store.size) p)
    (hgood : ¬ bad → Succeeds act p) : FailsIff act p o bad := by
  intro e q
  constructor
  · intro h
    by_cases hb : bad
    · obtain ⟨rfl, rfl⟩ := EStateM.Result.error.inj (h.symm.trans (hbad hb))
      exact ⟨hb, rfl, rfl⟩
    · obtain ⟨a, r, hr⟩ := hgood hb
      exact absurd (h.symm.trans hr) (by simp)
  · rintro ⟨hb, rfl, rfl⟩
    exact hbad hb

section Stores

variable {act : StoreM α}

theorem onStore_of_error {e : Fault} (h : act p.store = .error e p.store) :
    onStore act p = .error e p := by
  obtain ⟨store, title, recorder, channels, log⟩ := p
  simp only at h
  simp only [onStore, h]

/-- Reports about what happened on the store change nothing about its failures. -/
theorem FailsIff.onStore {next : α → ProjectM β} {bad : Prop}
    (hbad : bad → act p.store = .error (.outside 1 o p.store.size) p.store)
    (hgood : ¬ bad → ∃ a t, act p.store = .ok a t) (hnext : ∀ a q, Succeeds (next a) q) :
    FailsIff (ProjectM.onStore act >>= next) p o bad := by
  apply FailsIff.intro
  · intro hb
    exact bind_of_error (onStore_of_error (hbad hb))
  · intro hb
    obtain ⟨a, t, h⟩ := hgood hb
    obtain ⟨b, q, hq⟩ := hnext a { p with store := t }
    exact ⟨b, q, (bind_of_ok (onStore_of_ok h)).trans hq⟩

/-- A query reads the store and reports nothing. -/
theorem FailsIff.query {query : Store → Except Fault α}
    (hbad : ¬ p.store.Contains o → query p.store = .error (.outside 1 o p.store.size))
    (hgood : p.store.Contains o → ∃ a, query p.store = .ok a) :
    FailsIff (ProjectM.onStore (StoreM.read query)) p o (¬ p.store.Contains o) := by
  apply FailsIff.intro
  · intro ho
    exact onStore_of_error (StoreM.read_of_error (hbad ho))
  · intro ho
    obtain ⟨a, ha⟩ := hgood (not_not.1 ho)
    exact ⟨a, _, onStore_of_ok (StoreM.read_of_ok ha)⟩

end Stores

section Operations

variable (hs : p.store.Valid)

include hs

theorem step_failsIff (o : Int) (branch force : Bool) (prev : Int) :
    FailsIff (step o branch force prev) p o (¬ p.store.Contains o) := by
  apply FailsIff.onStore
  · intro ho
    exact StoreM.decode_outside ho branch force prev
  · intro ho
    exact ⟨_, _, StoreM.decode_of_contains hs (not_not.1 ho) branch force prev⟩
  · exact fun decoded q => ⟨_, _, rfl⟩

theorem walk_failsIff (start limit : Int) :
    FailsIff (walk start limit) p start (1 ≤ limit ∧ ¬ p.store.Contains start) := by
  apply FailsIff.onStore
  · rintro ⟨hlimit, ho⟩
    exact StoreM.walk_outside hlimit ho
  · intro hgood
    by_cases ho : p.store.Contains start
    · obtain ⟨w, t, hwalk, -⟩ := StoreM.walk_frame hs ho limit
      exact ⟨w, t, hwalk⟩
    · have hlimit : ¬ 1 ≤ limit := fun hlimit => hgood ⟨hlimit, ho⟩
      exact ⟨_, _, StoreM.walk_of_limit (by omega) start p.store⟩
  · exact fun w q => ⟨_, _, rfl⟩

theorem sweep_failsIff (start behind : Int) :
    FailsIff (sweep start behind) p start (start < 0 ∧ start < min behind p.store.size) := by
  apply FailsIff.onStore
  · rintro ⟨h0, hlt⟩
    exact StoreM.sweep_outside h0 hlt
  · intro hgood
    by_cases hlt : start < min behind p.store.size
    · obtain ⟨heads, w, t, hsweep, -⟩ := StoreM.sweep_of_contains hs (by omega) hlt
      exact ⟨w, t, hsweep⟩
    · exact ⟨_, _, Sweep.run_end _ (Int.not_lt.1 hlt)⟩
  · exact fun w q => ⟨_, _, rfl⟩

theorem rescan_succeeds : Succeeds rescan p := by
  obtain ⟨flows, h⟩ := StoreM.rescan_of_valid hs
  exact ⟨_, _, (bind_of_ok (onStore_of_ok h)).trans rfl⟩

theorem repair_succeeds : Succeeds repair p := by
  obtain ⟨count, t, h, -⟩ := StoreM.repairFrom_repairs p.store.size 0 hs (Int.le_refl 0) (by omega)
    (Store.alignedBelow_zero p.store)
  exact ⟨_, _, (bind_of_ok (onStore_of_ok h)).trans rfl⟩

theorem seedVectors_succeeds (label : Bool) : Succeeds (seedVectors label) p := by
  obtain ⟨q, h, -⟩ := seedVectors_of_valid hs label
  exact ⟨_, q, h⟩

theorem analyzeVectors_succeeds (limit : Int) : Succeeds (analyzeVectors limit) p := by
  obtain ⟨q, hseed, hseeded⟩ := seedVectors_of_valid hs true
  obtain ⟨visits, r, hwalked, -⟩ := walked_of_contains hseeded.valid
    (fun e he => hseeded.contains.2 (Store.contains_of_mem_vectorEntries he)) limit
  exact ⟨_, r, (bind_of_ok hseed).trans (bind_of_ok hwalked.walkAll)⟩

end Operations

theorem markFlow_failsIff (p : Project) (o : Int) :
    FailsIff (markFlow o) p o (¬ p.store.Contains o) := by
  apply FailsIff.onStore
  · exact StoreM.markFlow_outside
  · intro ho
    exact ⟨_, _, StoreM.markFlow_of_contains (not_not.1 ho)⟩
  · exact fun flow q => ⟨_, _, rfl⟩

theorem readVectors_succeeds (p : Project) : Succeeds readVectors p :=
  ⟨_, _, (bind_of_ok (onStore_of_ok
    (StoreM.read_of_ok (Store.readVectorsOf_eq p.store vectorTable)))).trans rfl⟩

/-- Analyses and queries fail at a bad start only, and then nothing has changed. -/
structure FailsAtStartOnly (p : Project) : Prop where
  step : ∀ o branch force prev,
    FailsIff (step o branch force prev) p o (¬ p.store.Contains o)
  operandAddress : ∀ o resolve,
    FailsIff (onStore (StoreM.read (·.operandAddress o resolve))) p o (¬ p.store.Contains o)
  markFlow : ∀ o, FailsIff (markFlow o) p o (¬ p.store.Contains o)
  instructionAt : ∀ o,
    FailsIff (onStore (StoreM.read (·.instructionAt o))) p o (¬ p.store.Contains o)
  listingLine : ∀ o,
    FailsIff (onStore (StoreM.read (·.listingLine o))) p o (¬ p.store.Contains o)
  walk : ∀ start amount limit,
    FailsIff (analyze start false amount limit) p start (1 ≤ limit ∧ ¬ p.store.Contains start)
  sweep : ∀ start behind,
    FailsIff (sweep start behind) p start (start < 0 ∧ start < min behind p.store.size)
  linear : ∀ start amount limit, FailsIff (analyze start true amount limit) p start
    (start < 0 ∧ start < min (start + amount) p.store.size)
  rescan : Succeeds rescan p
  repair : Succeeds repair p
  readVectors : Succeeds readVectors p
  seedVectors : ∀ label, Succeeds (seedVectors label) p
  analyzeVectors : ∀ limit, Succeeds (analyzeVectors limit) p

/-- In every store that arises from an image, a bad start is all that an analysis fails at. -/
theorem fails_at_start_only (hp : p.store.Reachable) : FailsAtStartOnly p where
  step := step_failsIff hp.valid
  operandAddress o resolve := .query (Store.operandAddress_outside · resolve)
    fun ho => ⟨_, Store.operandAddress_of_contains ho resolve⟩
  markFlow := markFlow_failsIff p
  instructionAt o := .query Store.instructionAt_outside Store.instructionAt_succeeds
  listingLine o := by
    refine .query Store.listingLine_outside fun ho => ?_
    obtain ⟨length, rest, -, -, hline⟩ := Store.showsBytes_of_contains ho
    exact ⟨_, hline⟩
  walk start amount limit := walk_failsIff hp.valid start limit
  sweep := sweep_failsIff hp.valid
  linear start amount limit := sweep_failsIff hp.valid start (start + amount)
  rescan := rescan_succeeds hp.valid
  repair := repair_succeeds hp.valid
  readVectors := readVectors_succeeds p
  seedVectors := seedVectors_succeeds hp.valid
  analyzeVectors := analyzeVectors_succeeds hp.valid

/-- An image of one opcode whose operand is cut off. -/
theorem fails_at_start_only_truncated :
    let p : Project := { store := ⟨#[0xAD], .loRom, .slow, Array.replicate 1 {}, {}, {}⟩ }
    p.store.Reachable ∧ (∀ e q, step 0 true false (-1) p ≠ .error e q) ∧
      sweep (-1) 1 p = .error (.outside 1 (-1) 1) p ∧
      analyze 1 false 0 1 p = .error (.outside 1 1 1) p ∧
      ∀ e q, analyze 1 false 0 0 p ≠ .error e q := by
  intro p
  have hcreate : Store.create #[0xAD] .loRom .slow = .ok p.store := rfl
  have hp : p.store.Reachable := .create hcreate
  have hfirst : p.store.Contains 0 := by decide
  have hbehind : ¬ p.store.Contains 1 := by decide
  have h := fails_at_start_only hp
  refine ⟨hp, ?_, ?_, ?_, ?_⟩
  · intro e q hfail
    exact ((h.step 0 true false (-1) e q).1 hfail).1 hfirst
  · exact (h.sweep (-1) 1 _ _).2 ⟨by decide, rfl, rfl⟩
  · exact (h.walk 1 0 1 _ _).2 ⟨⟨by decide, hbehind⟩, rfl, rfl⟩
  · intro e q hfail
    exact absurd ((h.walk 1 0 0 e q).1 hfail).1.1 (by decide)

end ProjectM

end Disassembly

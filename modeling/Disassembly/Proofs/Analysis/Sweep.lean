import Disassembly.Project.Analysis
import Disassembly.Proofs.Analysis.Tiling

/-!
What a sweep does. It lays its region out in instructions from the first byte on: where each of
them begins depends on the contexts of all before it, and the store that a sweep reads is the one
that it writes. A second sweep comes to the same instructions and finds them as they are.
-/
namespace Disassembly

namespace Sweep

variable {s t : Store} {w w' : Sweep} {behind : Int} {heads : List Int}

/-- The visit of the instruction that a sweep has come to. -/
def visit (w : Sweep) (s : Store) : Visit :=
  ⟨w.offset, s.peek w.offset, s.decodingContext w.offset w.prev,
    w.offset + s.lengthUnder w.offset (s.decodingContext w.offset w.prev),
    [s.decoding w.offset false true w.prev]⟩

/-- The sweep behind that instruction. -/
def successor (w : Sweep) (s : Store) : Sweep :=
  { offset := (w.visit s).next, prev := w.offset, visits := w.visit s :: w.visits }

/-- Inside the image a step succeeds, and goes on behind the instruction whatever it is. -/
theorem advance_of_contains (hs : s.Valid) (ho : s.Contains w.offset) :
    w.advance s = .ok (w.successor s) (s.decoded w.offset w.prev) := by
  unfold advance
  refine (bind_of_ok (StoreM.decode_of_contains hs ho false true w.prev)).trans ?_
  exact (bind_of_ok (StoreM.read_of_ok (Store.contextAt_decoded hs ho w.prev))).trans rfl

theorem run_end (n : Nat) (h : behind ≤ w.offset) : run behind n w s = .ok w s := by
  cases n with
  | zero => rfl
  | succ n =>
    unfold run
    rw [if_neg (by omega)]
    rfl

theorem run_step (n : Nat) (hs : s.Valid) (ho : s.Contains w.offset) (hlt : w.offset < behind) :
    run behind (n + 1) w s = run behind n (w.successor s) (s.decoded w.offset w.prev) := by
  rw [run, if_pos hlt, bind_of_ok (advance_of_contains hs ho)]

/-- What a sweep has done on its way from `w` to `w'`, where it has reached the end of its region:
it has come to the instructions at `heads`. -/
structure Swept (behind : Int) (w : Sweep) (s : Store) (heads : List Int) (w' : Sweep)
    (t : Store) : Prop where
  valid : t.Valid
  agrees : s.Agrees t
  marks : s.KeepsMarks t
  reaches : behind ≤ w'.offset ∧ w'.offset ≤ behind + 3
  tiled : t.Tiled (s.inherited w.offset w.prev) w.offset heads w'.offset
  begins : ∀ o ∈ heads, o < behind
  recorded : ∀ o ∈ heads, t.Recorded o
  kept : ∀ i, s.Contains i → i < w.offset ∨ w'.offset ≤ i →
    (t.cell i).flag = (s.cell i).flag ∧ (t.cell i).context = (s.cell i).context

namespace Swept

/-- At the end of its region a sweep does nothing. -/
theorem nil (hs : s.Valid) (hends : behind ≤ w.offset) (hle : w.offset ≤ behind + 3) :
    Swept behind w s [] w s where
  valid := hs
  agrees := Store.Agrees.refl s
  marks := Store.KeepsMarks.refl s
  reaches := ⟨hends, hle⟩
  tiled := Store.Tiled.nil
  begins := by simp
  recorded := by simp
  kept _ _ _ := ⟨rfl, rfl⟩

section Step

variable (hs : s.Valid) (ho : s.Contains w.offset)
  (h : Swept behind (w.successor s) (s.decoded w.offset w.prev) heads w' t)

include hs ho h

/-- Later steps leave the instruction alone. -/
theorem tile_first : t.Tile w.offset (w.successor s).offset := by
  refine (Store.tile_decoded hs ho w.prev).of_agrees h.agrees ?_
  intro i hi _ hlt
  exact h.kept i hi (Or.inl hlt)

theorem context_first : (t.cell w.offset).context = s.decodingContext w.offset w.prev := by
  have hod := (Store.agrees_decoded s w.offset w.prev).contains.2 ho
  rw [(h.kept w.offset hod (Or.inl (h.tile_first hs ho).lt_next)).2]
  exact Store.context_decoded_self hs ho

/-- One step before the others. -/
theorem cons (hlt : w.offset < behind) : Swept behind w s (w.offset :: heads) w' t := by
  have hdecoded := Store.agrees_decoded s w.offset w.prev
  have hagree := hdecoded.trans h.agrees
  have hod := hdecoded.contains.2 ho
  have htile := h.tile_first hs ho
  have hcontext := h.context_first hs ho
  have hself : ((s.decoded w.offset w.prev).cell w.offset).context =
      s.decodingContext w.offset w.prev := Store.context_decoded_self hs ho
  constructor
  · exact h.valid
  · exact hagree
  · exact (Store.keepsMarks_decoded hs ho w.prev).trans hdecoded h.marks
  · exact h.reaches
  · apply Store.Tiled.cons htile
    · rw [hagree.takesOver, hcontext]
      exact s.takesOver_statusContext w.offset _
    · -- What comes next takes the context over from the opcode byte that was just written.
      have hnext := h.tiled
      rwa [show (w.successor s).prev = w.offset from rfl,
        Store.inherited_of_opcode hod (Store.flag_decoded_self hs ho), hself, ← hcontext] at hnext
  · simpa using ⟨hlt, h.begins⟩
  · have hrecorded := (Store.recorded_decoded hs ho w.prev).of_agrees h.agrees h.marks hod
      (hcontext.trans hself.symm)
    simpa using ⟨hrecorded, h.recorded⟩
  · intro i hi houtside
    have hle := h.tiled.le
    have hnext := htile.lt_next
    have hbefore : i < w.offset ∨ (w.successor s).offset ≤ i := by omega
    obtain ⟨hflag, hcell⟩ := h.kept i (hdecoded.contains.2 hi) (by omega)
    rw [hflag, hcell]
    exact ⟨Store.flag_decoded_outside hs ho hi hbefore,
      Store.context_decoded_outside hs ho hi hbefore⟩

end Step

/-- Behind a sweep its first instruction would take over the context that it has: either that of
an instruction before the region, which has not changed, or its own. -/
theorem decodingContext_first (h : Swept behind w s heads w' t) (hprev : w.prev < w.offset)
    (hheads : heads ≠ []) :
    t.decodingContext w.offset w.prev = (t.cell w.offset).context := by
  have hcontext := h.tiled.context_first hheads
  have hkept : ∀ i, s.Contains i → i ≤ w.prev →
      (t.cell i).flag = (s.cell i).flag ∧ (t.cell i).context = (s.cell i).context := by
    intro i hi hle
    exact h.kept i hi (Or.inl (by omega))
  unfold Store.decodingContext
  rcases h.agrees.inherited_or w.offset hkept with hsame | hown
  · rw [hsame, hcontext]
  · rw [hown, hcontext, Store.statusContext_statusContext]

end Swept

/-- A sweep with a step left for each byte of its region gets to the end of it. -/
theorem run_sweeps (n : Nat) (hs : s.Valid) (h0 : 0 ≤ w.offset) (hsize : behind ≤ s.size)
    (hn : behind ≤ w.offset + n) (hle : w.offset ≤ behind + 3) :
    ∃ heads w' t, run behind n w s = .ok w' t ∧ Swept behind w s heads w' t := by
  induction n generalizing s w with
  | zero => exact ⟨[], w, s, rfl, Swept.nil hs (by omega) hle⟩
  | succ n ih =>
    by_cases hlt : w.offset < behind
    · have ho : s.Contains w.offset := ⟨h0, by omega⟩
      have hagree := Store.agrees_decoded s w.offset w.prev
      have hsize' := hagree.size
      have hpos : 1 ≤ s.lengthUnder w.offset (s.decodingContext w.offset w.prev) :=
        Mode.length_pos _
      have hfour : s.lengthUnder w.offset (s.decodingContext w.offset w.prev) ≤ 4 :=
        Mode.length_le _
      have hnext : (w.successor s).offset =
          w.offset + s.lengthUnder w.offset (s.decodingContext w.offset w.prev) := rfl
      obtain ⟨heads, w', t, hrun, hswept⟩ := ih (hs.decoded w.offset w.prev)
        (w := w.successor s) (by omega) (by omega) (by omega) (by omega)
      rw [run_step n hs ho hlt]
      exact ⟨w.offset :: heads, w', t, hrun, hswept.cons hs ho hlt⟩
    · exact ⟨[], w, s, run_end _ (by omega), Swept.nil hs (by omega) hle⟩

/-- A sweep over instructions that are in place and recorded comes to each of them and changes
nothing. -/
theorem run_of_tiled {c : Context} {r : Int} (n : Nat) (hs : s.Valid)
    (htiled : s.Tiled c w.offset heads r) (hbegins : ∀ o ∈ heads, o < behind)
    (hrecorded : ∀ o ∈ heads, s.Recorded o) (hr : behind ≤ r) (hn : behind ≤ w.offset + n)
    (hcontext : heads ≠ [] → s.decodingContext w.offset w.prev = (s.cell w.offset).context) :
    ∃ w', run behind n w s = .ok w' s ∧ w'.offset = r := by
  induction n generalizing w c heads with
  | zero =>
    cases htiled with
    | nil => exact ⟨w, rfl, rfl⟩
    | cons htile _ _ =>
      have hlt := hbegins w.offset (by simp)
      omega
  | succ n ih =>
    cases htiled with
    | nil => exact ⟨w, run_end _ hr, rfl⟩
    | @cons _ _ next _ rest htile _ hrest =>
      have ho := htile.instruction
      have hown := hcontext (by simp)
      have hdecoded := htile.decoded_eq_self hs (hrecorded w.offset (by simp)) hown
      have hoffset : (w.successor s).offset = next := by
        rw [htile.next_eq]
        change w.offset + s.lengthUnder w.offset (s.decodingContext w.offset w.prev) = _
        rw [hown]
        rfl
      have hlt := htile.lt_next
      have hrest' : s.Tiled (s.cell w.offset).context (w.successor s).offset rest r := by
        rwa [hoffset]
      rw [run_step n hs ho.1 (hbegins w.offset (by simp)), hdecoded]
      apply ih hrest'
      · intro o hmem
        exact hbegins o (List.mem_cons_of_mem _ hmem)
      · intro o hmem
        exact hrecorded o (List.mem_cons_of_mem _ hmem)
      · rw [hoffset]
        omega
      · intro hmore
        rw [hrest'.context_first hmore, Store.decodingContext]
        exact congrArg _ (Store.inherited_of_opcode ho.1 ho.2)

end Sweep

section Sweeps

variable {s : Store} {start behind : Int}

/-- A sweep that starts inside the image and before its end succeeds. -/
theorem StoreM.sweep_of_contains (hs : s.Valid) (h0 : 0 ≤ start)
    (hlt : start < min behind s.size) :
    ∃ heads w t, sweep start behind s = .ok w t ∧
      Sweep.Swept (min behind s.size) { offset := start, prev := start - 1 } s heads w t := by
  have hrun := Sweep.run_sweeps (w := { offset := start, prev := start - 1 })
    (min behind s.size - start).toNat hs h0 (Int.min_le_right behind s.size)
    (by dsimp only; omega) (by dsimp only; omega)
  exact hrun

theorem StoreM.sweep_again {heads : List Int} {w : Sweep} {t : Store}
    (hlt : start < min behind s.size)
    (h : Sweep.Swept (min behind s.size) { offset := start, prev := start - 1 } s heads w t) :
    ∃ w', sweep start behind t = .ok w' t ∧ w'.offset = w.offset := by
  have hagain := Sweep.run_of_tiled (w := { offset := start, prev := start - 1 })
    (min behind s.size - start).toNat h.valid h.tiled h.begins h.recorded h.reaches.1
    (by dsimp only; omega) (h.decodingContext_first (by dsimp only; omega))
  rw [← h.agrees.size] at hagain
  exact hagain

theorem ProjectM.sweep_of_ok {p : Project} {w : Sweep} {t : Store}
    (h : StoreM.sweep start behind p.store = .ok w t) :
    ∃ q : Project, sweep start behind p = .ok w.offset q ∧ q.store = t :=
  ⟨_, sweep_of_run h, Project.store_follow _ _⟩

/--
A sweep lays its region out in instructions. It ends at the first instruction boundary that is not
before the end of the region or of the image. The first instruction takes over the context found
before the sweep, each later one that of its predecessor. Roles and contexts outside stay, and a
second sweep ends at the same offset with the same store.
-/
theorem ProjectM.sweep_tiles {p : Project} (hs : p.store.Reachable) (h0 : 0 ≤ start)
    (hlt : start < min behind p.store.size) :
    ∃ r q c heads, sweep start behind p = .ok r q ∧
      min behind p.store.size ≤ r ∧ r ≤ min behind p.store.size + 3 ∧
      p.store.inheritedContext start (start - 1) = .ok c ∧ q.store.Tiled c start heads r ∧
      p.store.Agrees q.store ∧
      (∀ i, p.store.Contains i → i < start ∨ r ≤ i →
        (q.store.cell i).flag = (p.store.cell i).flag ∧
          (q.store.cell i).context = (p.store.cell i).context) ∧
      ∃ q', sweep start behind q = .ok r q' ∧ q'.store = q.store := by
  obtain ⟨heads, w, t, hsweep, hswept⟩ := StoreM.sweep_of_contains hs.valid h0 hlt
  obtain ⟨w', hagain, hend⟩ := StoreM.sweep_again hlt hswept
  obtain ⟨q, hrun, rfl⟩ := sweep_of_ok hsweep
  obtain ⟨q', hrun', hstore⟩ := sweep_of_ok hagain
  rw [hend] at hrun'
  have hstart : p.store.Contains start := ⟨h0, by omega⟩
  exact ⟨w.offset, q, _, heads, hrun, hswept.reaches.1, hswept.reaches.2,
    Store.inheritedContext_of_contains hstart, hswept.tiled, hswept.agrees, hswept.kept, q', hrun',
    hstore⟩

/-- A narrow load behind SEP whose operand was taken for an opcode before, a wide load behind REP,
and a load that runs past the end of the image. -/
theorem ProjectM.sweep_tiles_truncated :
    let rom : Array UInt8 := #[0xE2, 0x30, 0xA9, 0x12, 0xC2, 0x20, 0xA9, 0x34, 0x12, 0xAD, 0x00]
    let fresh : Store := ⟨rom, .loRom, .slow, Array.replicate 11 {}, {}, {}⟩
    let p : Project := Project.apply { store := fresh } (.setFlag 3 .opcode)
    let narrow : Context := { xFlag := true, mFlag := true }
    let mixed : Context := { xFlag := true, mFlag := false }
    p.store.Reachable ∧ 0 < min 100 (p.store.size : Int) ∧
      ∃ q heads, sweep 0 100 p = .ok 12 q ∧ q.store.Tiled {} 0 heads 12 ∧
        heads = [0, 2, 4, 6, 9] ∧
        heads.map (fun o => (q.store.cell o).context) = [narrow, narrow, mixed, mixed, mixed] ∧
        ∃ q', sweep 0 100 q = .ok 12 q' ∧ q'.store = q.store := by
  intro rom fresh p narrow mixed
  have hcreate : Store.create rom .loRom .slow = .ok fresh := rfl
  have hs : p.store.Reachable := .apply { store := fresh } _ (.create hcreate)
  have hlt : 0 < min 100 (p.store.size : Int) := by decide +kernel
  have hfirst : (p.store.inheritedContext 0 (0 - 1)).toOption = some {} := by decide +kernel
  have hend : (match sweep 0 100 p with
      | .ok r q => (r, q.store.opcodeOffsets 0 (some r),
          [0, 2, 4, 6, 9].map fun o : Int => (q.store.cell o).context)
      | .error _ _ => (0, [], [])) =
      (12, [0, 2, 4, 6, 9], [narrow, narrow, mixed, mixed, mixed]) := by decide +kernel
  obtain ⟨r, q, c, heads, hrun, -, -, hc, htiled, -, -, hagain⟩ :=
    sweep_tiles hs (Int.le_refl 0) hlt
  simp only [hrun, Prod.mk.injEq] at hend
  obtain ⟨rfl, hoffsets, hcontexts⟩ := hend
  rw [hc] at hfirst
  obtain rfl := Option.some.inj hfirst
  have hheads : heads = [0, 2, 4, 6, 9] := by
    rw [htiled.heads_eq, hoffsets]
    rfl
  exact ⟨hs, hlt, q, heads, hrun, htiled, hheads, by rw [hheads]; exact hcontexts, hagain⟩

end Sweeps

end Disassembly

import Disassembly.Proofs.Decode.Repeat

/-!
A step of decoding in full: what becomes of every byte of the image, which marks are added, and
where decoding goes on. The target is that of the instruction as it stands after the step, so it
depends on the context that the step has recorded.
-/
namespace Disassembly

/-- A step goes on at the target of every jump, and on demand at that of a branch or a call. -/
theorem Opcode.followsTarget_iff {op : UInt8} {branch force : Bool} :
    followsTarget op branch force ↔
      force = false ∧ (op ∈ jumps ∨ branch = true ∧ (op ∈ branches ∨ op ∈ calls)) := by
  simp [followsTarget]

theorem marksAt_eq_empty {i : Int} {marks : List (Int × Marks)} (h : ∀ p ∈ marks, p.1 ≠ i) :
    marksAt i marks = {} := by
  induction marks with
  | nil => rfl
  | cons p rest ih =>
    rw [List.forall_mem_cons] at h
    rw [marksAt, if_neg h.1, ih h.2]

namespace Store

variable {s : Store} {o prev i : Int}

/--
What a step at `o` makes of the store `s`: it takes `length` bytes from `o` on, as far as the image
goes, for an instruction under `context` that leads to `target`.
-/
structure Stepped (s t : Store) (o : Int) (context : Context) (length : Nat)
    (target : Option Int) : Prop where
  agrees : s.Agrees t
  opcode : (t.cell o).flag = .opcode ∧ (t.cell o).context = context
  operand : ∀ i, o + 1 ≤ i → i < min (o + length) s.size →
    (t.cell i).flag = .operand ∧ (t.cell i).context = context
  kept : ∀ i, s.Contains i → ¬ (o ≤ i ∧ i < o + length) →
    (t.cell i).flag = (s.cell i).flag ∧ (t.cell i).context = (s.cell i).context
  marks : ∀ i, s.Contains i → (t.cell i).marks =
    (s.cell i).marks.union (marksAt i (Opcode.marks (s.peek o) o target))
  keepsMarks : s.KeepsMarks t
  marks_elsewhere : ∀ i, s.Contains i → i ≠ o → target ≠ some i →
    (t.cell i).marks = (s.cell i).marks

section Decoded

variable (hs : s.Valid) (ho : s.Contains o)

include hs ho

theorem marks_decoded (hi : s.Contains i) : ((s.decoded o prev).cell i).marks =
    (s.cell i).marks.union
      (marksAt i (Opcode.marks (s.peek o) o ((s.decoded o prev).target? o))) := by
  rw [target?_decoded hs ho, decoded, (hs.own o _).cell_marked ho hi, Cell.addMarks,
    hs.marks_own ho hi]
  rfl

theorem stepped_decoded (prev : Int) :
    s.Stepped (s.decoded o prev) o (s.decodingContext o prev)
      (s.lengthUnder o (s.decodingContext o prev)) ((s.decoded o prev).target? o) where
  agrees := agrees_decoded s o prev
  opcode := ⟨flag_decoded_self hs ho, context_decoded_self hs ho⟩
  operand i hlo hhi := by
    have h0 := ho.1
    have hi : s.Contains i := ⟨by omega, by omega⟩
    have hin : o < i ∧ i < o + s.lengthUnder o (s.decodingContext o prev) := by omega
    exact ⟨flag_decoded_operand hs ho hi hin, context_decoded_operand hs ho hi hin⟩
  kept i hi hout := by
    have hout : i < o ∨ o + s.lengthUnder o (s.decodingContext o prev) ≤ i := by omega
    exact ⟨flag_decoded_outside hs ho hi hout, context_decoded_outside hs ho hi hout⟩
  marks i hi := marks_decoded hs ho hi
  keepsMarks := keepsMarks_decoded hs ho prev
  marks_elsewhere i hi hself htarget := by
    rw [marks_decoded hs ho hi, marksAt_eq_empty, Marks.union_empty]
    rintro p hp rfl
    rcases Opcode.mem_marks_offset hp with h | h
    · exact hself h
    · exact htarget h.symm

theorem next_decoding (branch force : Bool) (prev : Int) :
    (s.decoding o branch force prev).next =
      if force = false ∧ (s.peek o ∈ Opcode.jumps ∨
          branch = true ∧ (s.peek o ∈ Opcode.branches ∨ s.peek o ∈ Opcode.calls)) then
        ((s.decoded o prev).target? o).getD (o + s.lengthUnder o (s.decodingContext o prev))
      else o + s.lengthUnder o (s.decodingContext o prev) := by
  rw [target?_decoded hs ho]
  simp only [decoding, Opcode.followsTarget_iff]

end Decoded

end Store

/--
The complete effect of a step at an offset of the image, from wherever it comes and with whatever
flags. Its context is the inherited one under the mask of a status change, and decides its length;
everything that the step does to the store follows from the two, and so does the offset where
decoding goes on.
-/
theorem StoreM.decode_complete {s : Store} (hs : s.Reachable) {o : Int} (ho : s.Contains o)
    (branch force : Bool) (prev : Int) :
    ∃ inherited context length target step t,
      s.inheritedContext o prev = .ok inherited ∧
      s.TakesOver o inherited context ∧ length = Opcode.lengthUnder (s.peek o) context ∧
      decode o branch force prev s = .ok step t ∧ t.targetAt o = .ok target ∧
      s.Stepped t o context length target ∧
      step.next =
        if force = false ∧ (s.peek o ∈ Opcode.jumps ∨
            branch = true ∧ (s.peek o ∈ Opcode.branches ∨ s.peek o ∈ Opcode.calls)) then
          target.getD (o + length)
        else o + length := by
  have hv := hs.valid
  have ht : (s.decoded o prev).Contains o := (Store.agrees_decoded s o prev).contains.2 ho
  exact ⟨s.inherited o prev, s.decodingContext o prev, s.lengthUnder o (s.decodingContext o prev),
    (s.decoded o prev).target? o, s.decoding o branch force prev, s.decoded o prev,
    Store.inheritedContext_of_contains ho, s.takesOver_statusContext o _, s.length_modeUnder o _,
    decode_of_contains hv ho branch force prev, Store.targetAt_of_contains ht,
    Store.stepped_decoded hv ho prev, Store.next_decoding hv ho branch force prev⟩

/-- A change of both widths, a load that takes over the narrow accumulator and is one byte shorter
for it, and a jump to itself at the end of the image; each is decoded from a byte of the one
before. -/
theorem StoreM.decode_complete_self_jump :
    let fresh : Store := ⟨#[0xE2, 0x30, 0xA9, 0x12, 0x80, 0xFE], .loRom, .slow,
      Array.replicate 6 {}, {}, {}⟩
    let steps : List Action := [.step 0 false false (-1), .step 2 false false 1]
    let s : Store := (Project.applyAll { store := fresh } (steps.take 1)).store
    let t : Store := (Project.applyAll { store := fresh } steps).store
    let narrow : Context := { xFlag := true, mFlag := true }
    (fresh.Reachable ∧ fresh.Contains 0 ∧ fresh.TakesOver 0 {} narrow ∧
      ∃ step u, decode 0 false false (-1) fresh = .ok step u ∧
        fresh.Stepped u 0 narrow 2 none ∧ step.next = 2) ∧
    (s.Reachable ∧ s.Contains 2 ∧ Opcode.lengthUnder (s.peek 2) {} = 3 ∧
      ∃ step u, decode 2 false false 1 s = .ok step u ∧
        s.Stepped u 2 narrow 2 none ∧ step.next = 4) ∧
    t.Reachable ∧ t.Contains 4 ∧
      ∃ step u, decode 4 false false 3 t = .ok step u ∧
        t.Stepped u 4 narrow 2 (some 4) ∧ step.next = 4 := by
  intro fresh steps s t narrow
  have hcreate : Store.create #[0xE2, 0x30, 0xA9, 0x12, 0x80, 0xFE] .loRom .slow = .ok fresh := rfl
  have hfresh : fresh.Reachable := .create hcreate
  have hs : s.Reachable := Store.Reachable.applyAll hfresh _
  have ht : t.Reachable := Store.Reachable.applyAll hfresh _
  have hdecoded (r : Store) (hr : r.Reachable) (o prev : Int) (ho : r.Contains o) (c d : Context)
      (n : Nat) (target : Option Int) (next : Int)
      (hc : (r.inheritedContext o prev).toOption = some c)
      (hd : r.statusContext o (r.peek o) c = d) (hn : Opcode.lengthUnder (r.peek o) d = n)
      (hrun : (match decode o false false prev r with
        | .ok step u => (step.next, (u.targetAt o).toOption)
        | .error _ _ => (-1, none)) = (next, some target)) :
      r.TakesOver o c d ∧ ∃ step u, decode o false false prev r = .ok step u ∧
        r.Stepped u o d n target ∧ step.next = next := by
    obtain ⟨inherited, context, length, found, step, u, hinherited, hcontext, hlength, hdecode,
      htarget, hstepped, -⟩ := decode_complete hr ho false false prev
    rw [hinherited] at hc
    obtain rfl := Option.some.inj hc
    obtain rfl := (Store.takesOver_iff.1 hcontext).trans hd
    obtain rfl := hlength.trans hn
    simp only [hdecode, htarget, Prod.mk.injEq] at hrun
    obtain rfl := Option.some.inj hrun.2
    exact ⟨hcontext, step, u, hdecode, hstepped, hrun.1⟩
  obtain ⟨hmask, hsep⟩ := hdecoded fresh hfresh 0 (-1) (by decide +kernel) {} narrow 2 none 2
    (by decide +kernel) (by decide +kernel) (by decide +kernel) (by decide +kernel)
  obtain ⟨-, hload⟩ := hdecoded s hs 2 1 (by decide +kernel) narrow narrow 2 none 4
    (by decide +kernel) (by decide +kernel) (by decide +kernel) (by decide +kernel)
  obtain ⟨-, hjump⟩ := hdecoded t ht 4 3 (by decide +kernel) narrow narrow 2 (some 4) 4
    (by decide +kernel) (by decide +kernel) (by decide +kernel) (by decide +kernel)
  exact ⟨⟨hfresh, by decide +kernel, hmask, hsep⟩,
    ⟨hs, by decide +kernel, by decide +kernel, hload⟩, ht, by decide +kernel, hjump⟩

end Disassembly

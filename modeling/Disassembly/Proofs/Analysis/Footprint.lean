import Disassembly.Proofs.Analysis.Walk

/-!
What a walk leaves alone. An instruction that is visited makes the bytes up to the next one its own;
every other byte keeps its role and its context, however far the walk goes. Marks are left aside:
they may be added at any target.
-/
namespace Disassembly

namespace Visit

/-- The offset behind a visited instruction. -/
def behind (v : Visit) : Int :=
  v.offset + ((Opcode.mode v.opcode).resolve v.context.xFlag v.context.mFlag).length

theorem offset_lt_behind (v : Visit) : v.offset < v.behind := by
  have hpos := Mode.length_pos ((Opcode.mode v.opcode).resolve v.context.xFlag v.context.mFlag)
  unfold behind
  omega

/-- The offset is that of a byte of the visited instruction. -/
def Covers (v : Visit) (i : Int) : Prop := v.offset ≤ i ∧ i < v.behind

instance (v : Visit) (i : Int) : Decidable (v.Covers i) := inferInstanceAs (Decidable (_ ∧ _))

end Visit

namespace Store

/-- The second store differs from the first in its cells at most; cells that no visit covers have
the same role and context in both. -/
structure Frame (visits : List Visit) (s t : Store) : Prop where
  agrees : s.Agrees t
  kept : ∀ i, s.Contains i → (∀ v ∈ visits, ¬ v.Covers i) →
    (t.cell i).flag = (s.cell i).flag ∧ (t.cell i).context = (s.cell i).context

namespace Frame

variable {s t u : Store} {visits more : List Visit}

theorem refl (s : Store) : Frame [] s s := ⟨Agrees.refl s, fun _ _ _ => ⟨rfl, rfl⟩⟩

theorem trans (h : Frame visits s t) (k : Frame more t u) : Frame (more ++ visits) s u where
  agrees := h.agrees.trans k.agrees
  kept i hi hfree := by
    obtain ⟨hflag, hcontext⟩ := h.kept i hi fun v hv => hfree v (List.mem_append_right _ hv)
    obtain ⟨kflag, kcontext⟩ := k.kept i (h.agrees.contains.2 hi) fun v hv =>
      hfree v (List.mem_append_left _ hv)
    exact ⟨kflag.trans hflag, kcontext.trans hcontext⟩

end Frame

end Store

namespace Walk

variable {s : Store} {w : Walk}

theorem covers_visit (w : Walk) (s : Store) (i : Int) : (w.visit s).Covers i ↔
    w.offset ≤ i ∧
      i < w.offset + s.lengthUnder w.offset (s.decodingContext w.offset w.prev) := Iff.rfl

/-- A restore changes the record of its own byte only. -/
theorem cell_restored_of_ne (hs : s.Valid) (ho : 0 ≤ w.offset) (op : UInt8) {i : Int}
    (hi : s.Contains i) (hne : i ≠ w.offset) : (w.restored op s).cell i = s.cell i := by
  unfold restored
  split
  · split
    · rfl
    · rw [hs.cell_editRun _ _ ho hi, if_neg (by omega)]
  · rfl

theorem frame_storeAfter (hs : s.Valid) (ho : s.Contains w.offset) :
    Store.Frame [w.visit s] s (w.storeAfter s) := by
  refine ⟨agrees_storeAfter w s, fun i hi hfree => ?_⟩
  have hfree := hfree _ List.mem_cons_self
  rw [covers_visit] at hfree
  have hpos : 1 ≤ s.lengthUnder w.offset (s.decodingContext w.offset w.prev) := Mode.length_pos _
  have houtside : i < w.offset ∨
      w.offset + s.lengthUnder w.offset (s.decodingContext w.offset w.prev) ≤ i := by omega
  have hsame : (w.storeAfter s).cell i = (s.decoded w.offset w.prev).cell i :=
    cell_restored_of_ne (hs.decoded _ _) ho.1 _
      ((Store.agrees_decoded s w.offset w.prev).contains.2 hi) (by omega)
  rw [hsame]
  exact ⟨Store.flag_decoded_outside hs ho hi houtside,
    Store.context_decoded_outside hs ho hi houtside⟩

end Walk

/-- A walk from any offset of the image succeeds, and leaves alone what its visits do not cover. -/
theorem StoreM.walk_frame {s : Store} {start : Int} (hs : s.Valid) (hstart : s.Contains start)
    (limit : Int) :
    ∃ w t, walk start limit s = .ok w t ∧ t.Valid ∧ Store.Frame w.visits s t := by
  refine Walk.run_keeps ?_ ?_ limit.toNat hs hstart rfl ⟨hs, Store.Frame.refl s⟩
  · rintro w t ht ho - ⟨-, hframe⟩
    rw [Walk.visits_successor]
    exact ⟨Walk.valid_storeAfter ht, hframe.trans (Walk.frame_storeAfter ht ho)⟩
  · rintro w t - h
    exact h

end Disassembly

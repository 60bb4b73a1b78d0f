import Disassembly.Proofs.Analysis.Rescan
import Disassembly.Proofs.Decode.Inheritance
import Disassembly.Proofs.Decode.Recorded

/-!
Bytes that are laid out in instructions, one right behind the other. Each instruction has its
operand under its own context, and takes its context over from the one before it. Decoding such an
instruction again finds everything in place.
-/
namespace Disassembly.Store

variable {s t : Store} {o next prev : Int}

/-- The bytes from `o` up to `next`, as far as the image goes, are one instruction. -/
structure Tile (s : Store) (o next : Int) : Prop where
  instruction : s.IsInstruction o
  length : ∃ length, s.lengthAt o = .ok length ∧
    length = Opcode.lengthUnder (s.peek o) (s.cell o).context ∧ next = o + length
  operand : ∀ i, s.Contains i → o < i → i < next →
    (s.cell i).flag = .operand ∧ (s.cell i).context = (s.cell o).context

/--
From `o` on there are instructions at `heads`, the last of which ends before `behind`. The first
takes over the context `c`, each later one that of the instruction before it, and changes it by its
own status mask only.
-/
inductive Tiled (s : Store) : (c : Context) → (o : Int) → (heads : List Int) → (behind : Int) → Prop
  | nil {c : Context} {o : Int} : Tiled s c o [] o
  | cons {c : Context} {o next behind : Int} {rest : List Int} :
    s.Tile o next → s.TakesOver o c (s.cell o).context →
    Tiled s (s.cell o).context next rest behind → Tiled s c o (o :: rest) behind

theorem Tile.next_eq (h : s.Tile o next) : next = o + s.length o := by
  obtain ⟨length, hlength, -, hnext⟩ := h.length
  rw [lengthAt_of_contains h.instruction.1, Except.ok.injEq] at hlength
  rw [hnext, hlength]

theorem Tile.lt_next (h : s.Tile o next) : o < next := by
  have hpos := s.length_pos o
  have hnext := h.next_eq
  omega

/-- An instruction stays one while its bytes keep their roles and contexts. -/
theorem Tile.of_agrees (h : s.Tile o next) (hagree : s.Agrees t)
    (hkept : ∀ i, s.Contains i → o ≤ i → i < next →
      (t.cell i).flag = (s.cell i).flag ∧ (t.cell i).context = (s.cell i).context) :
    t.Tile o next := by
  have ho := h.instruction.1
  obtain ⟨hflag, hcontext⟩ := hkept o ho (Int.le_refl o) h.lt_next
  constructor
  · exact ⟨hagree.contains.2 ho, hflag.trans h.instruction.2⟩
  · refine ⟨_, lengthAt_of_contains (hagree.contains.2 ho), t.length_eq o, ?_⟩
    rw [hagree.length hcontext]
    exact h.next_eq
  · intro i hi hlt hle
    have hi := hagree.contains.1 hi
    obtain ⟨iflag, icontext⟩ := hkept i hi (Int.le_of_lt hlt) hle
    rw [iflag, icontext, hcontext]
    exact h.operand i hi hlt hle

section Region

variable {c : Context} {behind : Int} {heads : List Int}

theorem Tiled.le (h : s.Tiled c o heads behind) : o ≤ behind := by
  induction h with
  | nil => exact Int.le_refl _
  | cons htile _ _ ih =>
    have hlt := htile.lt_next
    omega

theorem Tiled.context_first (h : s.Tiled c o heads behind) (hheads : heads ≠ []) :
    (s.cell o).context = s.statusContext o (s.peek o) c := by
  cases h with
  | nil => contradiction
  | cons _ hcontext _ => exact takesOver_iff.1 hcontext

theorem Tiled.contains (h : s.Tiled c o heads behind) : ∀ p ∈ heads, s.Contains p := by
  induction h with
  | nil => simp
  | cons htile _ _ ih => simpa using ⟨htile.instruction.1, ih⟩

end Region

section Offsets

variable {c : Context} {r : Int} {heads : List Int}

theorem offsetsIn_append (s : Store) (flag : Flag) {first mid behind : Nat} (h : first ≤ mid)
    (h' : mid ≤ behind) :
    s.offsetsIn flag first mid ++ s.offsetsIn flag mid behind = s.offsetsIn flag first behind := by
  have hlength : behind - first = (mid - first) + (behind - mid) := by omega
  have hmid : first + (mid - first) = mid := by omega
  rw [offsetsIn_eq, offsetsIn_eq, offsetsIn_eq, ← List.filter_append, hlength,
    ← List.range'_append_1, hmid]

theorem offsetsIn_empty (s : Store) (flag : Flag) {first behind : Nat} (h : behind ≤ first) :
    s.offsetsIn flag first behind = [] := by
  simp [offsetsIn_eq, Nat.sub_eq_zero_of_le h]

/-- Of the bytes of an instruction only the first is an opcode. -/
theorem Tile.offsetsIn_opcode (h : s.Tile o next) :
    s.offsetsIn .opcode o.toNat (min next.toNat s.size) = [o.toNat] := by
  obtain ⟨⟨h0, hsize⟩, hflag⟩ := h.instruction
  have hlt := h.lt_next
  obtain ⟨n, hn⟩ : ∃ n, min next.toNat s.size - o.toNat = n + 1 :=
    Nat.exists_eq_add_one.2 (by omega)
  have hself : ((o.toNat : Nat) : Int) = o := Int.toNat_of_nonneg h0
  have hoperands : (List.range' (o.toNat + 1) n).filter
      (fun i : Nat => (s.cell i).flag == .opcode) = [] := by
    rw [List.filter_eq_nil_iff]
    intro i hi
    rw [List.mem_range'_1] at hi
    have hoperand := (h.operand i ⟨by omega, by omega⟩ (by omega) (by omega)).1
    simp [hoperand]
  rw [offsetsIn_eq, hn, List.range'_succ, List.filter_cons, hself, hflag, hoperands]
  rfl

theorem opcodeOffsets_some (s : Store) (o r : Int) :
    s.opcodeOffsets o (some r) = s.offsetsIn .opcode o.toNat (min r.toNat s.size) := rfl

/-- The opcodes of a region of consecutive instructions are the first bytes of these. -/
theorem Tiled.opcodeOffsets_eq (h : s.Tiled c o heads r) :
    s.opcodeOffsets o (some r) = heads.map Int.toNat := by
  induction h with
  | nil => exact offsetsIn_empty s .opcode (Nat.min_le_left _ _)
  | @cons _ o next r rest htile _ hrest ih =>
    obtain ⟨h0, hsize⟩ := htile.instruction.1
    have hlt := htile.lt_next
    have hle := hrest.le
    -- Behind the image there is nothing to find, so the last instruction may run past it.
    have hrest' : s.offsetsIn .opcode (min next.toNat s.size) (min r.toNat s.size) =
        rest.map Int.toNat := by
      rw [← ih, opcodeOffsets_some]
      by_cases hfits : next.toNat ≤ s.size
      · rw [Nat.min_eq_left hfits]
      · rw [offsetsIn_empty s .opcode (by omega), offsetsIn_empty s .opcode (by omega)]
    rw [opcodeOffsets_some]
    calc s.offsetsIn .opcode o.toNat (min r.toNat s.size)
        = s.offsetsIn .opcode o.toNat (min next.toNat s.size) ++
            s.offsetsIn .opcode (min next.toNat s.size) (min r.toNat s.size) :=
          (offsetsIn_append s .opcode (by omega) (by omega)).symm
      _ = (o :: rest).map Int.toNat := by rw [htile.offsetsIn_opcode, hrest']; rfl

theorem Tiled.heads_eq (h : s.Tiled c o heads r) :
    heads = (s.opcodeOffsets o (some r)).map Int.ofNat := by
  have hself : ∀ p ∈ heads, (Int.ofNat ∘ Int.toNat) p = id p := fun p hp =>
    Int.toNat_of_nonneg (h.contains p hp).1
  rw [h.opcodeOffsets_eq, List.map_map, List.map_congr_left hself, List.map_id]

end Offsets

section Decoding

variable (hs : s.Valid)

include hs

/-- Decoding makes an instruction of its bytes. -/
theorem tile_decoded (ho : s.Contains o) (prev : Int) :
    (s.decoded o prev).Tile o (o + s.lengthUnder o (s.decodingContext o prev)) := by
  have hagree := agrees_decoded s o prev
  constructor
  · exact ⟨hagree.contains.2 ho, flag_decoded_self hs ho⟩
  · refine ⟨_, lengthAt_of_contains (hagree.contains.2 ho), length_eq _ o, ?_⟩
    rw [length_decoded hs ho]
  · intro i hi hlt hle
    have hi := hagree.contains.1 hi
    refine ⟨flag_decoded_operand hs ho hi ⟨hlt, hle⟩, ?_⟩
    rw [context_decoded_operand hs ho hi ⟨hlt, hle⟩, context_decoded_self hs ho]

/-- An instruction that is recorded and is decoded under its own context stays as it is. -/
theorem Tile.decoded_eq_self (h : s.Tile o next) (hrecorded : s.Recorded o)
    (hcontext : s.decodingContext o prev = (s.cell o).context) : s.decoded o prev = s := by
  obtain ⟨ho, hflag⟩ := h.instruction
  have hown : s.own o (s.cell o).context = s := by
    refine hs.own_eq_self ho hflag ?_
    intro i hi hlt hle
    exact h.operand i hi hlt (by rw [h.next_eq]; exact hle)
  calc s.decoded o prev = (s.own o (s.cell o).context).marked o := by rw [decoded, hcontext]
    _ = s.marked o := by rw [hown]
    _ = s := marked_of_recorded hs ho hrecorded

end Decoding

end Disassembly.Store

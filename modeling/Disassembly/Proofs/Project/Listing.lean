import Disassembly.Project.Listing
import Disassembly.Proofs.Analysis.Sweep
import Disassembly.Proofs.Decode.Render
import Disassembly.Proofs.Text.Hex
import Mathlib.Data.List.Forall2

/-!
Listings of laid out bytes. Every instruction of the image has a line, which shows its bytes; where
instructions lie one right behind the other, their lines show each byte exactly once.
-/
namespace Disassembly

namespace Store

variable {s : Store} {o next r : Int} {c : Context} {heads : List Int}

/-- What stands before the bytes on the line of an instruction: its label and its address. -/
def lineHead (s : Store) (o : Int) : String :=
  let label := s.labels.textAt (s.busAddress? o)
  (if label = "" then "" else label ++ ":\n") ++
    Text.upperHex 6 ((s.busAddress? o).getD (-1) % 0x1000000) ++ "  "

/-- The line of the instruction at `o` shows the bytes `column`: those of the instruction, as many
as the image has. -/
def ShowsBytes (s : Store) (o : Int) (column : List UInt8) : Prop :=
  ∃ length rest, s.lengthAt o = .ok length ∧ column = s.bytesFrom o length ∧
    s.listingLine o =
      .ok (s.lineHead o ++ Text.byteColumn column ++ "  " ++ rest)

theorem showsBytes_of_contains (h : s.Contains o) :
    s.ShowsBytes o (s.bytesFrom o (s.length o)) := by
  obtain ⟨instruction, hinstruction⟩ := instructionAt_succeeds h
  let comment := s.comments.textAt (s.busAddress? o)
  refine ⟨s.length o, instruction ++ (if comment = "" then "" else "  ; " ++ comment),
    lengthAt_of_contains h, rfl, ?_⟩
  unfold listingLine
  rw [lengthAt_of_contains h, hinstruction, ok_bind]
  simp only [ok_bind, lineHead, String.append_assoc]
  rfl

section Bytes

theorem bytesFrom_eq (s : Store) (o : Int) (n : Nat) :
    s.bytesFrom o n = (s.rom.toList.drop o.toNat).take n := by
  simp [bytesFrom, List.extract_eq_take_drop]

theorem bytesFrom_append (h0 : 0 ≤ o) (m n : Nat) :
    s.bytesFrom o m ++ s.bytesFrom (o + m) n = s.bytesFrom o (m + n) := by
  have hoffset : (o + m).toNat = o.toNat + m := by omega
  simp only [bytesFrom_eq, hoffset, List.take_add, List.drop_drop]

/-- There are no bytes behind the image. -/
theorem bytesFrom_cut (ho : s.Contains o) (h : o ≤ r) :
    s.bytesFrom o (min r s.size - o).toNat = s.bytesFrom o (r - o).toNat := by
  have hsize : s.rom.toList.length = s.size := Array.length_toList
  have h0 := ho.1
  rw [bytesFrom_eq, bytesFrom_eq, List.take_eq_take_iff, List.length_drop, hsize]
  omega

/-- The bytes of consecutive instructions make up the bytes of their region. -/
theorem Tiled.flatten_bytes (h : s.Tiled c o heads r) (h0 : 0 ≤ o) :
    (heads.map fun o => s.bytesFrom o (s.length o)).flatten = s.bytesFrom o (r - o).toNat := by
  induction h with
  | nil => simp [bytesFrom_eq]
  | cons htile _ hrest ih =>
    have hnext := htile.next_eq
    have hle := hrest.le
    rw [List.map_cons, List.flatten_cons, ih (by omega), hnext, bytesFrom_append h0]
    congr 1
    omega

end Bytes

end Store

/--
The lines of a region that was swept show its bytes, each once and in order, and the bytes can be
read off the printed columns. The same sweep is what a linear analysis of as many bytes does.
-/
theorem ProjectM.sweep_listing_lossless {p : Project} (hs : p.store.Valid) {start behind : Int}
    (hstart : p.store.Contains start) (hlt : start < behind) :
    ∃ r q columns, sweep start behind p = .ok r q ∧
      (∀ limit, analyze start true (behind - start) limit p = .ok r q) ∧
      List.Forall₂ (fun (o : Nat) column => q.store.ShowsBytes o column)
        (q.store.opcodeOffsets start (some r)) columns ∧
      columns.flatten = p.store.bytesFrom start (min r p.store.size - start).toNat ∧
      ∀ others : List (List UInt8),
        others.map Text.byteColumn = columns.map Text.byteColumn → others = columns := by
  have hsize := hstart.2
  obtain ⟨heads, w, t, hsweep, hswept⟩ :=
    StoreM.sweep_of_contains hs hstart.1 (show start < min behind p.store.size by omega)
  obtain ⟨q, hrun, rfl⟩ := sweep_of_ok hsweep
  have htiled := hswept.tiled
  refine ⟨w.offset, q, heads.map fun o => q.store.bytesFrom o (q.store.length o), hrun,
    ?_, ?_, ?_, ?_⟩
  · intro limit
    rw [analyze, if_pos rfl, show start + (behind - start) = behind by omega]
    exact hrun
  · rw [htiled.opcodeOffsets_eq, List.forall₂_map_left_iff, List.forall₂_map_right_iff,
      List.forall₂_same]
    intro o ho
    have hin := htiled.contains o ho
    rw [Int.toNat_of_nonneg hin.1]
    exact Store.showsBytes_of_contains hin
  · rw [htiled.flatten_bytes hstart.1, Store.bytesFrom_cut hstart htiled.le, Store.bytesFrom,
      hswept.agrees.rom]
    rfl
  · intro others hprinted
    exact (List.map_inj_right fun _ _ => Text.byteColumn_inj).1 hprinted

/-- A narrow load behind SEP whose operand was taken for an opcode before, a wide load behind REP,
and a load of which the image has two bytes. -/
theorem ProjectM.sweep_listing_lossless_truncated :
    let rom : Array UInt8 := #[0xE2, 0x30, 0xA9, 0x12, 0xC2, 0x20, 0xA9, 0x34, 0x12, 0xAD, 0x00]
    let fresh : Store := ⟨rom, .loRom, .slow, Array.replicate 11 {}, {}, {}⟩
    let p : Project := Project.apply { store := fresh } (.setFlag 3 .opcode)
    p.store.Valid ∧ p.store.Contains 0 ∧ ∃ q columns, sweep 0 100 p = .ok 12 q ∧
      List.Forall₂ (fun (o : Nat) column => q.store.ShowsBytes o column)
        (q.store.opcodeOffsets 0 (some 12)) columns ∧
      columns.flatten = rom.toList ∧
      (∀ others : List (List UInt8),
        others.map Text.byteColumn = columns.map Text.byteColumn → others = columns) ∧
      (q.store.listing 0 (some 12)).toOption = some ["008000  E2 30        SEP #$30",
        "008002  A9 12        LDA.B #$12", "008004  C2 20        REP #$20",
        "008006  A9 34 12     LDA.W #$1234", "008009  AD 00        LDA.W"] := by
  intro rom fresh p
  have hcreate : Store.create rom .loRom .slow = .ok fresh := rfl
  have hs : p.store.Valid :=
    Store.Reachable.valid (.apply { store := fresh } _ (.create hcreate))
  have hstart : p.store.Contains 0 := by decide +kernel
  have hend : (match sweep 0 100 p with
      | .ok r q => (r, (q.store.listing 0 (some r)).toOption)
      | .error _ _ => (0, none)) = (12, some ["008000  E2 30        SEP #$30",
        "008002  A9 12        LDA.B #$12", "008004  C2 20        REP #$20",
        "008006  A9 34 12     LDA.W #$1234", "008009  AD 00        LDA.W"]) := by decide +kernel
  have hbytes : p.store.bytesFrom 0 (min 12 (p.store.size : Int) - 0).toNat = rom.toList := by
    decide +kernel
  obtain ⟨r, q, columns, hrun, -, hshown, hflatten, hprinted⟩ := sweep_listing_lossless hs hstart
    (show (0 : Int) < 100 by decide)
  simp only [hrun, Prod.mk.injEq] at hend
  obtain ⟨rfl, hlines⟩ := hend
  exact ⟨hs, hstart, q, columns, hrun, hshown, hflatten.trans hbytes, hprinted, hlines⟩

end Disassembly

import Disassembly.Proofs.Decode.Inheritance
import Disassembly.Proofs.Decode.Recorded
import Disassembly.Proofs.Store.Reachable

/-!
Decoding an instruction a second time. It takes over the context that it left itself, so its bytes
and marks are there already and the store stays as it is.
-/
namespace Disassembly

namespace Store

variable {s : Store} {offset prev : Int}

/-- The bytes of a decoded instruction are its own. -/
theorem own_decoded (hs : s.Valid) (ho : s.Contains offset) :
    (s.decoded offset prev).own offset (s.decodingContext offset prev) =
      s.decoded offset prev := by
  have hagree := agrees_decoded s offset prev
  have hcontext : ((s.decoded offset prev).cell offset).context = s.decodingContext offset prev :=
    context_decoded_self hs ho
  rw [← hcontext]
  refine (hs.decoded offset prev).own_eq_self (hagree.contains.2 ho) (flag_decoded_self hs ho) ?_
  intro i hi hlt hle
  have hi := hagree.contains.1 hi
  rw [length_decoded hs ho] at hle
  exact ⟨flag_decoded_operand hs ho hi ⟨hlt, hle⟩,
    (context_decoded_operand hs ho hi ⟨hlt, hle⟩).trans hcontext.symm⟩

theorem target?_decoded (hs : s.Valid) (ho : s.Contains offset) (prev : Int) :
    (s.decoded offset prev).target? offset =
      (s.own offset (s.decodingContext offset prev)).target? offset :=
  (hs.own offset _).target?_marked ho

theorem decoded_decoded (hs : s.Valid) (ho : s.Contains offset) (prev : Int) :
    (s.decoded offset prev).decoded offset prev = s.decoded offset prev := by
  calc (s.decoded offset prev).decoded offset prev
      = ((s.decoded offset prev).own offset (s.decodingContext offset prev)).marked offset := by
        rw [decoded, decodingContext_decoded hs ho]
    _ = (s.decoded offset prev).marked offset := by rw [own_decoded hs ho]
    _ = s.decoded offset prev :=
        marked_of_recorded (hs.decoded offset prev)
          ((agrees_decoded s offset prev).contains.2 ho) (recorded_decoded hs ho prev)

theorem decoding_decoded (hs : s.Valid) (ho : s.Contains offset) (branch force : Bool)
    (prev : Int) : (s.decoded offset prev).decoding offset branch force prev =
      s.decoding offset branch force prev := by
  have hagree := agrees_decoded s offset prev
  have hlength : (s.decoded offset prev).lengthUnder offset (s.decodingContext offset prev) =
      s.lengthUnder offset (s.decodingContext offset prev) :=
    congrArg Mode.length (hagree.modeUnder offset _)
  unfold decoding
  simp only [decodingContext_decoded hs ho, own_decoded hs ho, target?_decoded hs ho,
    hagree.peek, hlength]

end Store

theorem StoreM.decode_decoded {s : Store} {offset : Int} (hs : s.Valid) (ho : s.Contains offset)
    (branch force : Bool) (prev : Int) : decode offset branch force prev (s.decoded offset prev) =
      .ok (s.decoding offset branch force prev) (s.decoded offset prev) := by
  have hod := (Store.agrees_decoded s offset prev).contains.2 ho
  rw [decode_of_contains (hs.decoded offset prev) hod, Store.decoded_decoded hs ho,
    Store.decoding_decoded hs ho]

/--
Decoding an instruction again from the same byte changes nothing, whatever the flags and wherever
that byte lies, and reports what it would have reported the first time.
-/
theorem StoreM.decode_again {s : Store} (hs : s.Reachable) {offset : Int}
    (ho : s.Contains offset) (prev : Int) (branch force branch' force' : Bool) :
    ∃ first second t, decode offset branch force prev s = .ok first t ∧
      decode offset branch' force' prev t = .ok second t ∧
      decode offset branch' force' prev s = .ok second t := by
  have hv := hs.valid
  exact ⟨_, _, _, decode_of_contains hv ho branch force prev,
    decode_decoded hv ho branch' force' prev, decode_of_contains hv ho branch' force' prev⟩

/-- A status change that is decoded from its own operand byte. -/
theorem StoreM.decode_again_status :
    let s : Store := ⟨#[0xE2, 0x30, 0xA9], .loRom, .slow, Array.replicate 3 {}, {}, {}⟩
    s.Reachable ∧ s.Contains 0 ∧ ∃ first second t, decode 0 false false 1 s = .ok first t ∧
      decode 0 true false 1 t = .ok second t ∧ decode 0 true false 1 s = .ok second t := by
  intro s
  have hcreate : Store.create #[0xE2, 0x30, 0xA9] .loRom .slow = .ok s := rfl
  have ho : s.Contains 0 := by decide
  exact ⟨.create hcreate, ho, decode_again (.create hcreate) ho 1 false false true false⟩

end Disassembly

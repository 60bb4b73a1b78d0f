import Disassembly.Proofs.Decode.Effect

/-!
Which context an instruction takes over. The owner of a byte is found by going back over operand
bytes; after an instruction was decoded, the search either ends as it did before or finds the
context of that instruction.
-/
namespace Disassembly

theorem Context.withStatus_withStatus (c : Context) (mask : Int) (value : Bool) :
    (c.withStatus mask value).withStatus mask value = c.withStatus mask value := by
  simp only [withStatus, mk.injEq, true_and]
  constructor
  · split <;> rfl
  · split <;> rfl

namespace Store

variable {s t : Store} {offset prev i : Int} {op : UInt8} {context : Context}

section Status

theorem statusContext_statusContext (s : Store) (offset : Int) (op : UInt8) (context : Context) :
    s.statusContext offset op (s.statusContext offset op context) =
      s.statusContext offset op context := by
  unfold statusContext
  split
  · exact Context.withStatus_withStatus _ _ _
  · rfl

theorem masked_statusContext (s : Store) (offset : Int) (op : UInt8) (context : Context) :
    (s.statusContext offset op context).masked =
      s.statusContext offset op context.masked := by
  unfold statusContext
  split
  · rfl
  · rfl

theorem statusContext_of_ne (hrep : op ≠ Opcode.rep) (hsep : op ≠ Opcode.sep) :
    s.statusContext offset op context = context :=
  if_neg fun h => h.1.elim hrep hsep

theorem statusContext_of_rom (h : t.rom = s.rom) (offset : Int) (op : UInt8) (context : Context) :
    t.statusContext offset op context = s.statusContext offset op context := by
  simp only [statusContext, contains_of_rom h, peek_of_rom h]

/-- The instruction at `o` is REP or SEP, and its mask byte is in the image and has the bit. -/
def Masks (s : Store) (o : Int) (bit : Nat) : Prop :=
  (s.peek o = Opcode.rep ∨ s.peek o = Opcode.sep) ∧ s.Contains (o + 1) ∧
    (s.peek (o + 1)).toNat.testBit bit

instance (s : Store) (o : Int) (bit : Nat) : Decidable (s.Masks o bit) :=
  inferInstanceAs (Decidable (_ ∧ _ ∧ _))

/--
What the instruction at `o` makes of the context `c` that it takes over. SEP sets and REP clears the
index flag if bit 4 of the mask selects it, and the accumulator flag if bit 5 does. All else stays.
-/
structure TakesOver (s : Store) (o : Int) (c d : Context) : Prop where
  directPage : d.directPage = c.directPage
  dataBank : d.dataBank = c.dataBank
  xFlag : d.xFlag = if s.Masks o 4 then decide (s.peek o = Opcode.sep) else c.xFlag
  mFlag : d.mFlag = if s.Masks o 5 then decide (s.peek o = Opcode.sep) else c.mFlag

theorem takesOver_statusContext (s : Store) (o : Int) (c : Context) :
    s.TakesOver o c (s.statusContext o (s.peek o) c) := by
  by_cases hmask : (s.peek o = Opcode.rep ∨ s.peek o = Opcode.sep) ∧ s.Contains (o + 1)
  · have hbit (bit : Nat) : s.Masks o bit ↔ (s.peek (o + 1)).toNat.testBit bit := by
      simp [Masks, hmask]
    rw [statusContext, if_pos hmask, Context.withStatus_natCast]
    constructor <;> simp [hbit]
  · have hbit (bit : Nat) : ¬ s.Masks o bit := fun h => hmask ⟨h.1, h.2.1⟩
    rw [statusContext, if_neg hmask]
    constructor <;> simp [hbit]

theorem takesOver_iff {o : Int} {c d : Context} :
    s.TakesOver o c d ↔ d = s.statusContext o (s.peek o) c := by
  constructor
  · intro h
    have hown := s.takesOver_statusContext o c
    apply Context.ext
    · rw [h.directPage, hown.directPage]
    · rw [h.dataBank, hown.dataBank]
    · rw [h.xFlag, hown.xFlag]
    · rw [h.mFlag, hown.mFlag]
  · rintro rfl
    exact s.takesOver_statusContext o c

theorem Agrees.statusContext (h : s.Agrees t) (offset : Int) (op : UInt8) (context : Context) :
    t.statusContext offset op context = s.statusContext offset op context :=
  statusContext_of_rom h.rom offset op context

theorem Agrees.takesOver (h : s.Agrees t) {o : Int} {c d : Context} :
    t.TakesOver o c d ↔ s.TakesOver o c d := by
  rw [takesOver_iff, takesOver_iff, h.peek, h.statusContext]

end Status

section Owner

/-- The search stays in the image, goes back at most `n` bytes, and passes operands only. -/
theorem owner_spec (s : Store) (n : Nat) {p : Int} (hp : 0 ≤ p) :
    0 ≤ s.owner n p ∧ s.owner n p ≤ p ∧ p ≤ s.owner n p + n ∧
      ∀ i, s.owner n p < i → i ≤ p → (s.cell i).flag = .operand := by
  induction n generalizing p with
  | zero =>
    refine ⟨hp, Int.le_refl p, ?_, ?_⟩
    · simp [owner]
    · intro i hlt hle
      exact absurd hlt (Int.not_lt.2 hle)
  | succ n ih =>
    unfold owner
    split
    · next hback =>
      obtain ⟨hlo, hhi, hn, hall⟩ := ih (show 0 ≤ p - 1 by omega)
      refine ⟨hlo, by omega, by omega, ?_⟩
      intro i hlt hle
      by_cases hi : i = p
      · rw [hi]
        exact hback.2
      · exact hall i hlt (by omega)
    · refine ⟨hp, Int.le_refl p, by omega, ?_⟩
      intro i hlt hle
      exact absurd hlt (Int.not_lt.2 hle)

/-- The nearest byte that is no operand is found if it is near enough. -/
theorem owner_eq {n : Nat} {p w : Int} (hw : 0 ≤ w) (hle : w ≤ p) (hn : p ≤ w + n)
    (hflag : (s.cell w).flag ≠ .operand)
    (hall : ∀ i, w < i → i ≤ p → (s.cell i).flag = .operand) : s.owner n p = w := by
  induction n generalizing p with
  | zero =>
    have hpw : p = w := by omega
    exact hpw
  | succ n ih =>
    unfold owner
    by_cases hpw : p = w
    · rw [if_neg (by rw [hpw]; exact fun h => hflag h.2), hpw]
    · rw [if_pos ⟨by omega, hall p (by omega) (Int.le_refl p)⟩]
      exact ih (by omega) (by omega) fun i h1 h2 => hall i h1 (by omega)

/-- The search sees only the roles at or before its start. -/
theorem owner_congr (n : Nat) {p : Int}
    (h : ∀ i, 0 < i → i ≤ p → (t.cell i).flag = (s.cell i).flag) : t.owner n p = s.owner n p := by
  induction n generalizing p with
  | zero => rfl
  | succ n ih =>
    unfold owner
    by_cases hp : 0 < p
    · rw [h p hp (Int.le_refl p), ih fun i hi hle => h i hi (by omega)]
    · simp [hp]

theorem owner_self (hp : s.Contains prev) (hflag : (s.cell prev).flag ≠ .operand) (n : Nat) :
    s.owner n prev = prev :=
  owner_eq hp.1 (Int.le_refl prev) (by omega) hflag fun _ hlt hle =>
    absurd hlt (Int.not_lt.2 hle)

/-- Behind an opcode byte its own context is taken over. -/
theorem inherited_of_opcode (hp : s.Contains prev) (hflag : (s.cell prev).flag = .opcode) :
    s.inherited offset prev = (s.cell prev).context := by
  have howner := owner_self hp (by rw [hflag]; exact Flag.noConfusion) 3
  unfold inherited
  rw [howner, if_pos ⟨hp, hflag⟩]

/-- Behind a byte that nothing has reached an instruction begins with its own record. -/
theorem inherited_of_unreached (h : s.Contains prev → (s.cell prev).flag = .unreached) :
    s.inherited offset prev = (s.cell offset).context := by
  refine if_neg ?_
  rintro ⟨hprev, hopcode⟩
  have howner := owner_self hprev (by rw [h hprev]; exact Flag.noConfusion) 3
  rw [howner, h hprev] at hopcode
  cases hopcode

/-- As long as the bytes up to `prev` stay, an instruction takes over the same context or the one
that it has itself. -/
theorem Agrees.inherited_or (h : s.Agrees t) (offset : Int)
    (hkept : ∀ i, s.Contains i → i ≤ prev →
      (t.cell i).flag = (s.cell i).flag ∧ (t.cell i).context = (s.cell i).context) :
    t.inherited offset prev = s.inherited offset prev ∨
      t.inherited offset prev = (t.cell offset).context := by
  by_cases hfound : t.Contains prev ∧ (t.cell (t.owner 3 prev)).flag = .opcode
  · obtain ⟨hprev, hflag⟩ := hfound
    have hprev := h.contains.1 hprev
    have hsize := hprev.2
    have howner : t.owner 3 prev = s.owner 3 prev := by
      refine owner_congr 3 fun i hi hle => ?_
      exact (hkept i ⟨by omega, by omega⟩ hle).1
    obtain ⟨hlo, hhi, -, -⟩ := owner_spec s 3 hprev.1
    obtain ⟨kflag, kcontext⟩ := hkept (s.owner 3 prev) ⟨hlo, by omega⟩ hhi
    left
    unfold inherited
    rw [howner] at hflag ⊢
    rw [if_pos ⟨h.contains.2 hprev, hflag⟩, if_pos ⟨hprev, kflag.symm.trans hflag⟩, kcontext]
  · exact Or.inr (if_neg hfound)

end Owner

section Decoded

theorem masked_inherited (hs : s.Valid) (offset prev : Int) :
    (s.inherited offset prev).masked = s.inherited offset prev := by
  unfold inherited
  split
  · exact hs.masked _
  · exact hs.masked _

theorem masked_decodingContext (hs : s.Valid) (offset prev : Int) :
    (s.decodingContext offset prev).masked = s.decodingContext offset prev := by
  unfold decodingContext
  rw [masked_statusContext, masked_inherited hs]

variable (hs : s.Valid) (ho : s.Contains offset)

include hs ho

/-- Decoding leaves the instruction's own bytes under its context. -/
theorem context_decoded_self :
    ((s.decoded offset prev).cell offset).context = s.decodingContext offset prev := by
  rw [hs.context_decoded ho ho, hs.cell_own_self ho]
  exact masked_decodingContext hs offset prev

theorem contextAt_decoded (prev : Int) :
    (s.decoded offset prev).contextAt offset = .ok (s.decodingContext offset prev) := by
  rw [contextAt_of_contains ((agrees_decoded s offset prev).contains.2 ho),
    context_decoded_self hs ho]

theorem flag_decoded_self : ((s.decoded offset prev).cell offset).flag = .opcode := by
  rw [hs.flag_decoded ho ho, hs.cell_own_self ho]

theorem flag_decoded_operand (hi : s.Contains i)
    (h : offset < i ∧ i < offset + s.lengthUnder offset (s.decodingContext offset prev)) :
    ((s.decoded offset prev).cell i).flag = .operand := by
  rw [hs.flag_decoded ho hi, hs.cell_own_operand ho hi h]

theorem context_decoded_operand (hi : s.Contains i)
    (h : offset < i ∧ i < offset + s.lengthUnder offset (s.decodingContext offset prev)) :
    ((s.decoded offset prev).cell i).context = s.decodingContext offset prev := by
  rw [hs.context_decoded ho hi, hs.cell_own_operand ho hi h]
  exact masked_decodingContext hs offset prev

theorem length_decoded (prev : Int) :
    (s.decoded offset prev).length offset =
      s.lengthUnder offset (s.decodingContext offset prev) := by
  unfold length mode
  rw [context_decoded_self hs ho, (agrees_decoded s offset prev).modeUnder]
  rfl

theorem flag_decoded_outside (hi : s.Contains i)
    (h : i < offset ∨ offset + s.lengthUnder offset (s.decodingContext offset prev) ≤ i) :
    ((s.decoded offset prev).cell i).flag = (s.cell i).flag := by
  rw [hs.flag_decoded ho hi, hs.cell_own_outside ho hi h]

theorem context_decoded_outside (hi : s.Contains i)
    (h : i < offset ∨ offset + s.lengthUnder offset (s.decodingContext offset prev) ≤ i) :
    ((s.decoded offset prev).cell i).context = (s.cell i).context := by
  rw [hs.context_decoded ho hi, hs.cell_own_outside ho hi h]

/-- An opcode apart from the decoded one that a search finds is found by it before as well. -/
theorem owner_of_owner_decoded {start : Int} (hstart : s.Contains start)
    (hother : (s.decoded offset prev).owner 3 start ≠ offset)
    (hflag : ((s.decoded offset prev).cell ((s.decoded offset prev).owner 3 start)).flag =
      .opcode) :
    s.owner 3 start = (s.decoded offset prev).owner 3 start ∧
      ((s.decoded offset prev).owner 3 start < offset ∨
        offset + s.lengthUnder offset (s.decodingContext offset prev) ≤
          (s.decoded offset prev).owner 3 start) := by
  obtain ⟨hlo, hhi, hnear, hpassed⟩ := owner_spec (s.decoded offset prev) 3 hstart.1
  generalize (s.decoded offset prev).owner 3 start = w at *
  have hsize := hstart.2
  have hw : s.Contains w := ⟨hlo, by omega⟩
  have hbehind : ¬ (offset < w ∧ w < offset + s.lengthUnder offset
      (s.decodingContext offset prev)) := by
    intro h
    rw [flag_decoded_operand hs ho hw h] at hflag
    cases hflag
  have hnot : ¬ (w < offset ∧ offset ≤ start) := by
    intro h
    have hself := hpassed offset h.1 h.2
    rw [flag_decoded_self hs ho] at hself
    cases hself
  -- So the bytes that were passed lie all before the instruction or all behind it.
  have hside : start < offset ∨ offset + s.lengthUnder offset
      (s.decodingContext offset prev) ≤ w := by omega
  rw [flag_decoded_outside hs ho hw (by omega)] at hflag
  refine ⟨owner_eq hlo hhi hnear (by rw [hflag]; exact Flag.noConfusion) ?_, by omega⟩
  intro i hlt hle
  have hpass := hpassed i hlt hle
  rwa [flag_decoded_outside hs ho ⟨by omega, by omega⟩ (by omega)] at hpass

/-- A search after the decoding ends as it did before, or at the context of the instruction. -/
theorem inherited_decoded (start : Int) :
    (s.decoded offset prev).inherited offset start = s.decodingContext offset prev ∨
      (s.decoded offset prev).inherited offset start = s.inherited offset start := by
  have hagree := agrees_decoded s offset prev
  by_cases hfound : (s.decoded offset prev).Contains start ∧
      ((s.decoded offset prev).cell ((s.decoded offset prev).owner 3 start)).flag = .opcode
  · have hfinds : (s.decoded offset prev).inherited offset start =
        ((s.decoded offset prev).cell ((s.decoded offset prev).owner 3 start)).context :=
      if_pos hfound
    obtain ⟨hstart, hflag⟩ := hfound
    rw [hagree.contains] at hstart
    rw [hfinds]
    by_cases hself : (s.decoded offset prev).owner 3 start = offset
    · rw [hself]
      exact Or.inl (context_decoded_self hs ho)
    · obtain ⟨howner, houtside⟩ := owner_of_owner_decoded hs ho hstart hself hflag
      obtain ⟨hlo, hhi, -, -⟩ := owner_spec s 3 hstart.1
      have hsize := hstart.2
      rw [← howner] at houtside hflag ⊢
      have hin : s.Contains (s.owner 3 start) := ⟨hlo, by omega⟩
      rw [flag_decoded_outside hs ho hin houtside] at hflag
      rw [context_decoded_outside hs ho hin houtside]
      exact Or.inr (if_pos ⟨hstart, hflag⟩).symm
  · exact Or.inl ((if_neg hfound).trans (context_decoded_self hs ho))

/-- Decoding an instruction again, it takes over the same context. -/
theorem decodingContext_decoded (prev : Int) :
    (s.decoded offset prev).decodingContext offset prev = s.decodingContext offset prev := by
  have hagree := agrees_decoded s offset prev
  have hop := hagree.peek offset
  unfold decodingContext
  rw [hop, hagree.statusContext]
  rcases inherited_decoded hs ho prev with h | h
  · rw [h]
    exact statusContext_statusContext _ _ _ _
  · rw [h]

end Decoded

end Store

end Disassembly

import Disassembly.Proofs.Decode.Step

/-!
Whose context is taken over. A byte belongs to the opcode that going back over operand bytes leads
to; instructions have at most three of these, and the search passes no more. So from every byte of
an instruction just decoded the search comes to its opcode, and in any store it comes to the nearest
byte that is no operand, if that is near enough.
-/
namespace Disassembly.Store

variable {s t : Store} {o i p w : Int}

/-- Going back from `p` over at most three operand bytes leads to `w`, the first that is none. -/
structure LeadsBack (s : Store) (p w : Int) : Prop where
  contains : s.Contains w
  le : w ≤ p
  near : p ≤ w + 3
  stops : (s.cell w).flag ≠ .operand
  passes : ∀ i, w < i → i ≤ p → (s.cell i).flag = .operand

section Search

theorem LeadsBack.owner_eq (h : s.LeadsBack p w) : s.owner 3 p = w :=
  Store.owner_eq h.contains.1 h.le h.near h.stops h.passes

theorem leadsBack_owner (hp : s.Contains p) (hstops : (s.cell (s.owner 3 p)).flag ≠ .operand) :
    s.LeadsBack p (s.owner 3 p) := by
  obtain ⟨hlo, hle, hnear, hpassed⟩ := owner_spec s 3 hp.1
  have hsize := hp.2
  exact ⟨⟨hlo, by omega⟩, hle, hnear, hstops, hpassed⟩

theorem LeadsBack.inheritedContext_eq (h : s.LeadsBack p w) (hp : s.Contains p)
    (hop : (s.cell w).flag = .opcode) (n : Int) :
    s.inheritedContext n p = .ok (s.cell w).context := by
  unfold inheritedContext
  rw [h.owner_eq]
  exact if_pos ⟨hp, hop⟩

/-- Where the search comes to no opcode, an instruction has only its own record. -/
theorem inheritedContext_of_no_opcode {n : Int} (hp : s.Contains p) (hn : s.Contains n)
    (h : ¬ ∃ w, s.LeadsBack p w ∧ (s.cell w).flag = .opcode) :
    s.inheritedContext n p = .ok (s.cell n).context := by
  have hnone : ¬ (s.Contains p ∧ (s.cell (s.owner 3 p)).flag = .opcode) := by
    rintro ⟨-, hop⟩
    refine h ⟨s.owner 3 p, leadsBack_owner hp ?_, hop⟩
    rw [hop]
    exact Flag.noConfusion
  rw [← contextAt_of_contains hn]
  exact if_neg hnone

end Search

/-- All bytes of a decoded instruction lead back to its opcode. -/
theorem Stepped.leadsBack {context : Context} {length : Nat} {target : Option Int}
    (h : s.Stepped t o context length target) (ho : s.Contains o) (hlength : length ≤ 4)
    (hle : o ≤ i) (hlt : i < min (o + length) s.size) : t.LeadsBack i o where
  contains := h.agrees.contains.2 ho
  le := hle
  near := by omega
  stops := by
    rw [h.opcode.1]
    exact Flag.noConfusion
  passes j hafter hbefore := (h.operand j (by omega) (by omega)).1

/--
The context that an instruction takes over is that of the opcode which the given byte belongs to.
After a step it is found from every byte of the instruction that was decoded. In every store it is
the one at the nearest byte that is no operand, if this is at most three bytes back and an opcode,
and the instruction's own one otherwise.
-/
theorem inheritedContext_finds_owner (hs : s.Reachable) :
    (∀ o, s.Contains o → ∀ branch force prev, ∃ step t context length,
      StoreM.decode o branch force prev s = .ok step t ∧ t.contextAt o = .ok context ∧
      t.lengthAt o = .ok length ∧ ∀ i, o ≤ i → i < min (o + length) s.size →
        ∀ n, t.inheritedContext n i = .ok context) ∧
    ∀ p, s.Contains p → ∀ n,
      (∀ w, s.LeadsBack p w → (s.cell w).flag = .opcode →
        s.inheritedContext n p = .ok (s.cell w).context) ∧
      (s.Contains n → (¬ ∃ w, s.LeadsBack p w ∧ (s.cell w).flag = .opcode) →
        s.inheritedContext n p = .ok (s.cell n).context) := by
  refine ⟨fun o ho branch force prev => ?_, fun p hp n => ⟨fun w hw hop => ?_, fun hn hnone => ?_⟩⟩
  · have hstepped := stepped_decoded hs.valid ho prev
    have hagree := hstepped.agrees
    have hin : (s.decoded o prev).Contains o := hagree.contains.2 ho
    refine ⟨_, _, _, _, StoreM.decode_of_contains hs.valid ho branch force prev,
      contextAt_of_contains hin, lengthAt_of_contains hin, fun i hle hlt n => ?_⟩
    rw [length_decoded hs.valid ho] at hlt
    have hi : s.Contains i := ⟨by have := ho.1; omega, by omega⟩
    exact (hstepped.leadsBack ho (Mode.length_le _) hle hlt).inheritedContext_eq
      (hagree.contains.2 hi) hstepped.opcode.1 n
  · exact hw.inheritedContext_eq hp hop n
  · exact inheritedContext_of_no_opcode hp hn hnone

/-- A status change and a run of operand bytes behind it: the third byte behind the opcode finds it,
the fourth does not. Decoded as a long load, the last byte of the run finds that load. -/
theorem inheritedContext_finds_owner_long :
    let fresh : Store := ⟨#[0xE2, 0x30, 0xAF, 0x00, 0x80, 0x7E], .loRom, .slow,
      Array.replicate 6 {}, {}, {}⟩
    let s := (Project.applyAll { store := fresh }
      [.step 0 false false (-1), .fillFlag 2 .operand 4]).store
    s.Reachable ∧ s.inheritedContext 5 3 = .ok { xFlag := true, mFlag := true } ∧
      s.inheritedContext 5 4 = .ok {} ∧ ∃ step t, StoreM.decode 2 false false 1 s = .ok step t ∧
        t.inheritedContext 0 5 = .ok { xFlag := true, mFlag := true } := by
  intro fresh s
  have hcreate : Store.create #[0xE2, 0x30, 0xAF, 0x00, 0x80, 0x7E] .loRom .slow = .ok fresh := rfl
  have hs : s.Reachable := Reachable.applyAll (.create hcreate) _
  have hoperands : ∀ i ∈ [1, 2, 3, 4, 5], (s.cell i).flag = .operand := by decide +kernel
  have hback : s.LeadsBack 3 0 := by
    refine ⟨by decide +kernel, by decide, by decide, by decide +kernel, fun i hlt hle => ?_⟩
    refine hoperands i ?_
    simp only [List.mem_cons]
    omega
  have hfar : ¬ ∃ w, s.LeadsBack 4 w ∧ (s.cell w).flag = .opcode := by
    rintro ⟨w, hw, -⟩
    refine hw.stops (hoperands w ?_)
    have hle := hw.le
    have hnear := hw.near
    simp only [List.mem_cons]
    omega
  have hload : (match StoreM.decode 2 false false 1 s with
      | .ok _ t => (t.contextAt 2).toOption
      | .error _ _ => none) = some { xFlag := true, mFlag := true } := by decide +kernel
  have hfour : (match StoreM.decode 2 false false 1 s with
      | .ok _ t => (t.lengthAt 2).toOption
      | .error _ _ => none) = some 4 := by decide +kernel
  obtain ⟨hdecoded, hfound⟩ := inheritedContext_finds_owner hs
  obtain ⟨step, t, context, length, hstep, hcontext, hlength, hbytes⟩ :=
    hdecoded 2 (by decide +kernel) false false 1
  simp only [hstep, hcontext] at hload
  simp only [hstep, hlength] at hfour
  obtain rfl := Option.some.inj hload
  obtain rfl := Option.some.inj hfour
  have hrecord : (s.cell 0).context = { xFlag := true, mFlag := true } := by decide +kernel
  have hown : (s.cell 5).context = {} := by decide +kernel
  refine ⟨hs, ?_, ?_, step, t, hstep, hbytes 5 (by decide) (by decide +kernel) 0⟩
  · rw [← hrecord]
    exact (hfound 3 (by decide +kernel) 5).1 0 hback (by decide +kernel)
  · rw [← hown]
    exact (hfound 4 (by decide +kernel) 5).2 (by decide +kernel) hfar

end Disassembly.Store

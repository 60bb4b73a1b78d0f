import Disassembly.Layout.Address

/-!
Canonical addresses read back the offset they belong to. A layout first finds an address at a
place of the image; mirrors only matter for places behind the end of the image, so an offset of
the image is read back as soon as its canonical address is placed there. In the two layouts of whole
banks this fails for the last two banks of an image that is not fast: their canonical addresses are
those of work memory.
-/
namespace Disassembly.Layout

/--
A bus address outside the system area that the layout places at `offset`, before mirrors are
taken into account.
-/
def Places (layout : Layout) (address offset : Int) : Prop :=
  0 ≤ address ∧ address ≤ 0xFFFFFF ∧ ¬ IsSystem address ∧
    ∃ p, layout.place? address = some p ∧ 0 ≤ p.base ∧ p.base + p.inside = offset

/-- Images that reach behind the place read the address there. -/
theorem Places.fileOffset?_eq {layout : Layout} {address offset size : Int}
    (h : layout.Places address offset) (h0 : 0 ≤ offset) (hs : offset < size) :
    layout.fileOffset? size address = some offset := by
  obtain ⟨hlo, hhi, hsystem, p, hp, hbase, hsum⟩ := h
  have hin : p.inside < size := by omega
  refine fileOffset?_eq_some_iff.2 ⟨⟨hlo, hhi⟩, by omega, hsystem, p, hp, ?_⟩
  rw [unmirror_of_lt hin, hsum]

section UpperHalf

variable {offset bank : Int}

theorem not_inLowerHalf_upperHalfAddress (offset bank : Int) :
    ¬ InLowerHalf (upperHalfAddress offset + bank * 0x10000) := by
  unfold InLowerHalf upperHalfAddress
  omega

/-- An upper half belongs to the system area in the two banks of work memory only. -/
theorem not_isSystem_upperHalfAddress
    (h : offset / 0x8000 % 0x80 + bank < 0x7E ∨ 0x80 ≤ offset / 0x8000 % 0x80 + bank) :
    ¬ IsSystem (upperHalfAddress offset + bank * 0x10000) := by
  rintro (hwork | hlower)
  · unfold upperHalfAddress at hwork
    omega
  · exact not_inLowerHalf_upperHalfAddress offset bank hlower.2

theorem not_isSaveMemory_upperHalfAddress (offset bank : Int) :
    ¬ IsSaveMemory (upperHalfAddress offset + bank * 0x10000) :=
  fun h => not_inLowerHalf_upperHalfAddress offset bank h.2

/-- Banks count half banks of the image, in a window of 128 of them. -/
theorem upperHalfOffset_upperHalfAddress (offset bank : Int) :
    upperHalfOffset (upperHalfAddress offset + bank * 0x10000) =
      (offset / 0x8000 + bank) % 0x80 * 0x8000 + offset % 0x8000 := by
  unfold upperHalfOffset upperHalfAddress
  omega

theorem upperHalfOffset_upperHalfAddress_of_lt (h0 : 0 ≤ offset) (h : offset < 0x400000) :
    upperHalfOffset (upperHalfAddress offset) = offset := by
  unfold upperHalfOffset upperHalfAddress
  omega

/-- The image may stand in every upper half but those of the two banks of work memory. -/
theorem places_upperHalfAddress {layout : Layout} {base inside place : Int}
    (hlo : 0 ≤ offset / 0x8000 % 0x80 + bank) (hhi : offset / 0x8000 % 0x80 + bank < 0x100)
    (hwork : offset / 0x8000 % 0x80 + bank < 0x7E ∨ 0x80 ≤ offset / 0x8000 % 0x80 + bank)
    (hp : layout.place? (upperHalfAddress offset + bank * 0x10000) = some ⟨base, inside⟩)
    (hbase : 0 ≤ base) (hsum : base + inside = place) :
    layout.Places (upperHalfAddress offset + bank * 0x10000) place := by
  refine ⟨?_, ?_, not_isSystem_upperHalfAddress hwork, ⟨base, inside⟩, hp, hbase, hsum⟩
  · unfold upperHalfAddress
    omega
  · unfold upperHalfAddress
    omega

end UpperHalf

/-- The image may stand in every whole bank with bit 22 set but the two of work memory. -/
theorem places_wholeBank {layout : Layout} {address base inside place : Int}
    (hlo : 0 ≤ address) (hhi : address ≤ 0xFFFFFF) (hbit : address / 0x400000 % 2 = 1)
    (hwork : address < 0x7E0000 ∨ 0x800000 ≤ address)
    (hp : layout.place? address = some ⟨base, inside⟩) (hbase : 0 ≤ base)
    (hsum : base + inside = place) : layout.Places address place := by
  refine ⟨hlo, hhi, ?_, ⟨base, inside⟩, hp, hbase, hsum⟩
  rintro (h | h)
  · omega
  · omega

section Windows

variable {speed : Speed} {offset address : Int}

/-- Slow images keep clear of work memory by moving their last two banks up. -/
theorem loRom_places (h0 : 0 ≤ offset) (h : loRom.canonical? speed offset = some address) :
    loRom.Places address offset := by
  have hplace (bank : Int) : loRom.place? (upperHalfAddress offset + bank * 0x10000) =
      some ⟨0, upperHalfOffset (upperHalfAddress offset + bank * 0x10000)⟩ :=
    if_neg (not_isSaveMemory_upperHalfAddress offset bank)
  simp only [upperHalfOffset_upperHalfAddress] at hplace
  simp only [canonical?, Option.ite_none_right_eq_some, Option.some.injEq] at h
  obtain ⟨hlt, rfl⟩ := h
  split
  · exact places_upperHalfAddress (by omega) (by omega) (by omega) (hplace 0x80) (by omega)
      (by omega)
  · next hslow =>
    have hbank : upperHalfAddress offset < 0x7E0000 := by
      exact Int.not_le.mp fun hle => hslow (Or.inr hle)
    have hlast : offset / 0x8000 < 0x7E := by
      unfold upperHalfAddress at hbank
      omega
    rw [← Int.add_zero (upperHalfAddress offset)]
    exact places_upperHalfAddress (by omega) (by omega) (by omega) (hplace 0) (by omega)
      (by omega)

theorem exHiRom_places (h0 : 0 ≤ offset) (h : exHiRom.canonical? speed offset = some address) :
    exHiRom.Places address offset := by
  have hplace (a : Int) : exHiRom.place? a =
      some ⟨0, (1 - a / 0x800000) * 0x400000 + a % 0x400000⟩ := rfl
  simp only [canonical?] at h
  split at h
  · obtain rfl := Option.some.inj h
    exact places_wholeBank (by omega) (by omega) (by omega) (by omega) (hplace _) (by omega)
      (by omega)
  · simp only [Option.ite_none_right_eq_some, Option.some.injEq] at h
    obtain ⟨hlt, rfl⟩ := h
    exact places_wholeBank (by omega) (by omega) (by omega) (by omega) (hplace _) (by omega)
      (by omega)

/-- The first half of the image stands above the second. -/
theorem exLoRom_places (h0 : 0 ≤ offset) (h : exLoRom.canonical? speed offset = some address) :
    exLoRom.Places address offset := by
  have hplace (o bank : Int) : exLoRom.place? (upperHalfAddress o + bank * 0x10000) =
      some ⟨0, (o / 0x8000 % 0x80 + bank + 0x80) % 0x100 * 0x8000 + o % 0x8000⟩ := by
    simp only [place?, if_neg (not_isSaveMemory_upperHalfAddress o bank)]
    congr 2
    unfold upperHalfAddress
    omega
  simp only [canonical?] at h
  split at h
  · obtain rfl := Option.some.inj h
    exact places_upperHalfAddress (by omega) (by omega) (by omega) (hplace offset 0x80)
      (by omega) (by omega)
  · simp only [Option.ite_none_right_eq_some, Option.some.injEq] at h
    obtain ⟨hlt, rfl⟩ := h
    rw [← Int.add_zero (upperHalfAddress _)]
    exact places_upperHalfAddress (by omega) (by omega) (by omega) (hplace (offset - 0x400000) 0)
      (by omega) (by omega)

/-- Below the whole banks both layouts read the upper halves around the save memory. -/
theorem place?_sa1_upperHalf {layout : Layout} (hl : layout = sa1 ∨ layout = exSa1)
    (hwhole : address < 0xC00000) (hupper : ¬ InLowerHalf address)
    (hsave : address < 0x400000 ∨ 0x800000 ≤ address) :
    layout.place? address =
      some ⟨0, upperHalfOffset (if 0x800000 ≤ address then address - 0x400000 else address)⟩ := by
  rcases hl with rfl | rfl
  all_goals
    simp only [place?]
    rw [if_neg (by omega), if_neg hupper]
    split
    · rfl
    · rw [if_neg (by omega)]

theorem sa1_upperHalf_places {layout : Layout} (hl : layout = sa1 ∨ layout = exSa1)
    (h0 : 0 ≤ offset) (bank : Int)
    (hbank : offset < 0x200000 ∧ bank = 0 ∨
      0x200000 ≤ offset ∧ offset < 0x400000 ∧ bank = 0x40) :
    layout.Places (upperHalfAddress offset + bank * 0x10000) offset := by
  have hread : upperHalfOffset (upperHalfAddress offset) = offset :=
    upperHalfOffset_upperHalfAddress_of_lt h0 (by omega)
  have heq : upperHalfAddress offset = offset / 0x8000 * 0x10000 + 0x8000 + offset % 0x8000 := by
    unfold upperHalfAddress
    omega
  have hplace := place?_sa1_upperHalf hl (by omega)
    (not_inLowerHalf_upperHalfAddress offset bank) (by omega)
  have hback : (if 0x800000 ≤ upperHalfAddress offset + bank * 0x10000 then
      upperHalfAddress offset + bank * 0x10000 - 0x400000
      else upperHalfAddress offset + bank * 0x10000) = upperHalfAddress offset := by
    split
    · omega
    · omega
  rw [hback, hread] at hplace
  exact places_upperHalfAddress (by omega) (by omega) (by omega) hplace (by omega) (by omega)

theorem sa1_places (h0 : 0 ≤ offset) (h : sa1.canonical? speed offset = some address) :
    sa1.Places address offset := by
  simp only [canonical?] at h
  split at h
  · obtain rfl := Option.some.inj h
    rw [← Int.add_zero (upperHalfAddress _)]
    exact sa1_upperHalf_places (Or.inl rfl) h0 0 (by omega)
  · simp only [Option.ite_none_right_eq_some, Option.some.injEq] at h
    obtain ⟨hlt, rfl⟩ := h
    exact sa1_upperHalf_places (Or.inl rfl) h0 0x40 (by omega)

/-- Behind four megabytes the image goes on in whole banks at the top. -/
theorem exSa1_places (h0 : 0 ≤ offset) (h : exSa1.canonical? speed offset = some address) :
    exSa1.Places address offset := by
  simp only [canonical?] at h
  split at h
  · obtain rfl := Option.some.inj h
    rw [← Int.add_zero (upperHalfAddress _)]
    exact sa1_upperHalf_places (Or.inr rfl) h0 0 (by omega)
  · split at h
    · obtain rfl := Option.some.inj h
      exact sa1_upperHalf_places (Or.inr rfl) h0 0x40 (by omega)
    · simp only [Option.ite_none_right_eq_some, Option.some.injEq] at h
      obtain ⟨hlt, rfl⟩ := h
      have hplace : exSa1.place? (offset + 0x800000) = some ⟨0, (offset + 0x800000) % 0x800000⟩ :=
        if_pos (by omega)
      exact places_wholeBank (by omega) (by omega) (by omega) (by omega) hplace (by omega)
        (by omega)

/-- Each of the three windows has a base of its own. -/
theorem superFx_places (h0 : 0 ≤ offset) (h : superFx.canonical? speed offset = some address) :
    superFx.Places address offset := by
  simp only [canonical?] at h
  split at h
  · obtain rfl := Option.some.inj h
    have hread := upperHalfOffset_upperHalfAddress_of_lt h0 (by omega)
    have hplace : superFx.place? (upperHalfAddress offset + 0 * 0x10000) = some ⟨0, offset⟩ := by
      simp only [place?, Int.zero_mul, Int.add_zero, hread]
      unfold upperHalfAddress
      rw [if_neg (by omega), if_neg (by omega), if_neg (by omega), if_neg (by omega)]
    rw [← Int.add_zero (upperHalfAddress _)]
    exact places_upperHalfAddress (by omega) (by omega) (by omega) hplace (by omega) (by omega)
  · split at h
    · obtain rfl := Option.some.inj h
      have hread := upperHalfOffset_upperHalfAddress (offset - 0x200000) 0x80
      have hplace : superFx.place? (upperHalfAddress (offset - 0x200000) + 0x80 * 0x10000) =
          some ⟨0x200000, offset - 0x200000⟩ := by
        simp only [place?, hread]
        unfold upperHalfAddress
        rw [if_neg (by omega), if_pos (by omega)]
        congr 2
        omega
      exact places_upperHalfAddress (by omega) (by omega) (by omega) hplace (by omega) (by omega)
    · simp only [Option.ite_none_right_eq_some, Option.some.injEq] at h
      obtain ⟨hlt, rfl⟩ := h
      have hplace : superFx.place? (offset - 0x400000 + 0xC00000) =
          some ⟨0x400000, (offset - 0x400000 + 0xC00000) % 0x400000⟩ := if_pos (by omega)
      exact places_wholeBank (by omega) (by omega) (by omega) (by omega) hplace (by omega)
        (by omega)

end Windows

/--
Outside the two layouts whose windows run into work memory, the canonical address of an offset of
the image is a bus address and reads that offset.
-/
theorem fileOffset?_busAddress? {layout : Layout} {speed : Speed} {size offset address : Int}
    (hlayout : layout ≠ hiRom ∧ layout ≠ superMmc) (h0 : 0 ≤ offset) (hs : offset < size)
    (h : layout.busAddress? speed offset = some address) :
    (0 ≤ address ∧ address < 0x1000000) ∧ layout.fileOffset? size address = some offset := by
  have hcanonical : layout.canonical? speed offset = some address := by
    rwa [busAddress?, if_neg (by omega)] at h
  have hplaces : layout.Places address offset := by
    cases layout with
    | loRom => exact loRom_places h0 hcanonical
    | hiRom => exact absurd rfl hlayout.1
    | exHiRom => exact exHiRom_places h0 hcanonical
    | exLoRom => exact exLoRom_places h0 hcanonical
    | superFx => exact superFx_places h0 hcanonical
    | sa1 => exact sa1_places h0 hcanonical
    | exSa1 => exact exSa1_places h0 hcanonical
    | superMmc => exact absurd rfl hlayout.2
  exact ⟨⟨hplaces.1, Int.lt_add_one_of_le hplaces.2.1⟩, hplaces.fileOffset?_eq h0 hs⟩

/-- The last bank of a slow image of four megabytes, which would stand in work memory. -/
theorem fileOffset?_busAddress?_last_bank :
    loRom.busAddress? .slow 0x3F9234 = some 0xFF9234 ∧
      loRom.fileOffset? 0x400000 0xFF9234 = some 0x3F9234 := by
  have h : loRom.busAddress? .slow 0x3F9234 = some 0xFF9234 := by decide
  exact ⟨h, (fileOffset?_busAddress? ⟨by decide, by decide⟩ (by decide) (by decide) h).2⟩

section WholeBanks

variable {layout : Layout} {speed : Speed} {offset : Int}

/-- In the two layouts of whole banks all of the first four megabytes have an address. -/
theorem busAddress?_wholeBanks (hlayout : layout = hiRom ∨ layout = superMmc) (h0 : 0 ≤ offset)
    (hlt : offset < 0x400000) : layout.busAddress? speed offset =
      some (if speed = .fast then offset + 0xC00000 else offset + 0x400000) := by
  rw [busAddress?, if_neg (by omega)]
  rcases hlayout with rfl | rfl
  · exact if_pos hlt
  · exact if_pos hlt

/-- The image may stand at the top, and below work memory up to its last two banks. -/
theorem wholeBanks_places (hlayout : layout = hiRom ∨ layout = superMmc) (h0 : 0 ≤ offset)
    (hlt : offset < 0x400000) {address : Int}
    (haddress : address = offset + 0xC00000 ∨ address = offset + 0x400000 ∧ offset < 0x3E0000) :
    layout.Places address offset := by
  have hplace : layout.place? address = some ⟨0, address % 0x400000⟩ := by
    rcases hlayout with rfl | rfl
    · rfl
    · rfl
  exact places_wholeBank (by omega) (by omega) (by omega) (by omega) hplace (by omega) (by omega)

/-- Work memory is no part of the image. -/
theorem fileOffset?_workMemory (layout : Layout) (size : Int) {address : Int}
    (hlo : 0x7E0000 ≤ address) (hhi : address < 0x800000) :
    layout.fileOffset? size address = none := by
  have hsystem : IsSystem address := Or.inl (by omega)
  exact if_pos (Or.inr (Or.inr (Or.inr hsystem)))

end WholeBanks

/--
In the two layouts of whole banks, canonical addresses read back their offset if the image is fast.
Those of other images run into work memory with their last two banks and read nothing there.
-/
theorem fileOffset?_busAddress?_wholeBanks {layout : Layout} (speed : Speed) {size offset : Int}
    (hlayout : layout = hiRom ∨ layout = superMmc) (h0 : 0 ≤ offset) (hs : offset < size)
    (hlt : offset < 0x400000) :
    (layout.busAddress? speed offset).bind (layout.fileOffset? size) =
      if speed = .fast ∨ offset < 0x3E0000 then some offset else none := by
  rw [busAddress?_wholeBanks hlayout h0 hlt, Option.bind_some]
  by_cases hfast : speed = .fast
  · have hplaces := wholeBanks_places hlayout h0 hlt (Or.inl rfl)
    rw [if_pos hfast, if_pos (Or.inl hfast)]
    exact hplaces.fileOffset?_eq h0 hs
  · rw [if_neg hfast]
    by_cases hlow : offset < 0x3E0000
    · have hplaces := wholeBanks_places hlayout h0 hlt (Or.inr ⟨rfl, hlow⟩)
      rw [if_pos (Or.inr hlow)]
      exact hplaces.fileOffset?_eq h0 hs
    · have hslow : ¬ (speed = .fast ∨ offset < 0x3E0000) := by
        rintro (h | h)
        · exact hfast h
        · exact hlow h
      rw [if_neg hslow]
      exact fileOffset?_workMemory layout size (by omega) (by omega)

/-- The last byte of a fast image of four megabytes. -/
theorem fileOffset?_busAddress?_wholeBanks_fast :
    (superMmc.busAddress? .fast 0x3FFFFF).bind (superMmc.fileOffset? 0x400000) =
      some 0x3FFFFF := by
  rw [fileOffset?_busAddress?_wholeBanks .fast (Or.inr rfl) (by decide) (by decide) (by decide)]
  rfl

/-- The last two banks of a slow image of four megabytes are not read back. -/
theorem not_fileOffset?_busAddress?_workMemory :
    ¬ ∀ (layout : Layout) (speed : Speed) (size offset : Int),
      layout = hiRom ∨ layout = superMmc → 1 ≤ size → 0 ≤ offset → offset < size →
      offset < 0x400000 →
      (layout.busAddress? speed offset).bind (layout.fileOffset? size) = some offset := by
  intro h
  have hback := h hiRom .slow 0x400000 0x3E0000 (Or.inl rfl) (by decide) (by decide) (by decide)
    (by decide)
  revert hback
  decide

end Disassembly.Layout

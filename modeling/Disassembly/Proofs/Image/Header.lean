import Disassembly.Image
import Mathlib.Data.List.Basic

/-!
The internal header of an image. A header is made of the 64 bytes at its place: where they fit into
the data all reads succeed, and nothing else is read. Of the headers that fit, the one of greatest
score is found, the first of them if there are several, unless no score is above zero.
-/
namespace Disassembly.Header

variable {data other : Array UInt8} {offset : Nat} {layout : Layout} {c d : Header}

section Reading

/-- The header that 64 bytes make up. -/
def ofBytes (offset : Nat) (layout : Layout) (byte : Nat → UInt8) : Header where
  offset := offset
  layout := layout
  titleBytes := (List.range 21).map byte
  mapByte := (byte 0x15).toNat
  chipset := (byte 0x16).toNat
  complement := (byte 0x1C).toNat + (byte 0x1D).toNat * 0x100
  checksum := (byte 0x1E).toNat + (byte 0x1F).toNat * 0x100
  reset := (byte 0x3C).toNat + (byte 0x3D).toNat * 0x100

theorem bytes?_eq {byte : Nat → UInt8} {n : Nat} (h : ∀ i < n, data[offset + i]? = some (byte i)) :
    bytes? data offset n = some ((List.range n).map byte) := by
  induction n generalizing offset byte with
  | zero => rfl
  | succ n ih =>
    have hrest : ∀ i < n, data[offset + 1 + i]? = some (byte (i + 1)) := by
      intro i hi
      rw [Nat.add_assoc, Nat.add_comm 1 i]
      exact h (i + 1) (by omega)
    have hfirst : data[offset]? = some (byte 0) := h 0 (by omega)
    simp [bytes?, hfirst, ih hrest, List.range_succ_eq_map]

/-- A header is read from its 64 bytes, if the data has them, and from nothing else. -/
theorem read?_eq {byte : Nat → UInt8} (h : ∀ i < 0x40, data[offset + i]? = some (byte i))
    (layout : Layout) : read? data offset layout = some (ofBytes offset layout byte) := by
  have htitle : bytes? data offset 21 = _ := bytes?_eq fun i hi => h i (by omega)
  simp [read?, word?, htitle, h, Nat.add_assoc, ofBytes]

theorem getElem?_of_fits (h : offset + 0x40 ≤ data.size) :
    ∀ i < 0x40, data[offset + i]? = some (data.getD (offset + i) 0) := by
  intro i hi
  have hin : offset + i < data.size := by omega
  simp [hin]

/-- No read of a header that fits into the data falls outside it. -/
theorem read?_of_fits (h : offset + 0x40 ≤ data.size) (layout : Layout) :
    ∃ c, read? data offset layout = some c :=
  ⟨_, read?_eq (getElem?_of_fits h) layout⟩

/-- Data with the same 64 bytes at a place has the same header there. -/
theorem read?_congr (hfits : offset + 0x40 ≤ data.size)
    (h : ∀ i < 0x40, other[offset + i]? = data[offset + i]?) (layout : Layout) :
    read? other offset layout = read? data offset layout := by
  have hbytes := getElem?_of_fits hfits
  rw [read?_eq hbytes, read?_eq fun i hi => (h i hi).trans (hbytes i hi)]

theorem place_of_read? (h : read? data offset layout = some c) :
    c.offset = offset ∧ c.layout = layout := by
  simp only [read?, Option.bind_eq_bind, Option.bind_eq_some_iff, Option.pure_def,
    Option.some.injEq] at h
  obtain ⟨_, -, _, -, _, -, _, -, _, -, _, -, rfl⟩ := h
  exact ⟨rfl, rfl⟩

end Reading

section Choice

/-- A header at one of the places, all of it in the data. -/
structure Candidate (data : Array UInt8) (c : Header) : Prop where
  place : (c.offset, c.layout) ∈ places
  fits : c.offset + 0x40 ≤ data.size
  read : read? data c.offset c.layout = some c

/-- A greater score, or the same score at no later place. -/
def Precedes (c d : Header) : Prop :=
  d.score < c.score ∨ d.score = c.score ∧ c.offset ≤ d.offset

theorem layout_eq_of_places {a b : Layout} (ha : (offset, a) ∈ places) (hb : (offset, b) ∈ places) :
    a = b := by
  simp only [places, List.mem_cons, Prod.mk.injEq, List.not_mem_nil, or_false] at ha hb
  obtain ⟨rfl, rfl⟩ | ⟨rfl, rfl⟩ | ⟨rfl, rfl⟩ := ha <;> simpa [eq_comm] using hb

theorem Candidate.eq_of_offset (hc : Candidate data c) (hd : Candidate data d)
    (h : c.offset = d.offset) : c = d := by
  have hlayout : c.layout = d.layout := layout_eq_of_places (h ▸ hc.place) hd.place
  have hread := hc.read
  rw [h, hlayout, hd.read] at hread
  exact (Option.some.inj hread).symm

/-- The headers that fit into the data. -/
def candidates (data : Array UInt8) : List Header :=
  places.filterMap fun place => at? data place.1 place.2

theorem find?_eq (data : Array UInt8) :
    find? data = (best? (candidates data)).filter (0 < ·.score) := rfl

theorem mem_candidates : c ∈ candidates data ↔ Candidate data c := by
  constructor
  · intro h
    obtain ⟨place, hplace, hat⟩ := List.mem_filterMap.1 h
    unfold at? at hat
    split at hat
    · next hfits =>
      obtain ⟨hoffset, hlayout⟩ := place_of_read? hat
      rw [← hoffset, ← hlayout] at hat
      exact ⟨by rwa [hoffset, hlayout], by rwa [hoffset], hat⟩
    · cases hat
  · rintro ⟨hplace, hfits, hread⟩
    exact List.mem_filterMap.2 ⟨_, hplace, (if_pos hfits).trans hread⟩

/-- Candidates are listed from the start of the data on. -/
theorem pairwise_candidates (data : Array UInt8) :
    (candidates data).Pairwise fun c d => c.offset < d.offset := by
  have hplaces : places.Pairwise fun a b => a.1 < b.1 := by decide
  have hoffset {place : Nat × Layout} {c : Header} (h : at? data place.1 place.2 = some c) :
      c.offset = place.1 := by
    unfold at? at h
    split at h
    · exact (place_of_read? h).1
    · cases h
  refine hplaces.filterMap _ ?_
  intro a b hab c hc d hd
  rw [hoffset hc, hoffset hd]
  exact hab

theorem best?_eq_none_iff {hs : List Header} : best? hs = none ↔ hs = [] := by
  cases hs with
  | nil => simp [best?]
  | cons h rest =>
    simp only [best?, reduceCtorEq, iff_false]
    split
    · simp
    · split <;> simp

theorem best?_spec {hs : List Header} (hsorted : hs.Pairwise fun c d => c.offset < d.offset)
    (h : best? hs = some c) : c ∈ hs ∧ ∀ d ∈ hs, c.Precedes d := by
  induction hs generalizing c with
  | nil => cases h
  | cons first rest ih =>
    obtain ⟨hfirst, hrest⟩ := List.pairwise_cons.1 hsorted
    unfold best? at h
    cases hbest : best? rest with
    | none =>
      obtain rfl := best?_eq_none_iff.1 hbest
      simp [best?] at h
      subst h
      simp [Precedes]
    | some winner =>
      obtain ⟨hmem, hwins⟩ := ih hrest hbest
      simp only [hbest] at h
      split at h
      · next hless =>
        obtain rfl := Option.some.inj h
        refine ⟨List.mem_cons_of_mem _ hmem, ?_⟩
        simp only [List.forall_mem_cons]
        exact ⟨Or.inl hless, hwins⟩
      · next hnotless =>
        obtain rfl := Option.some.inj h
        refine ⟨List.mem_cons_self, ?_⟩
        simp only [List.forall_mem_cons]
        refine ⟨Or.inr ⟨rfl, Nat.le_refl _⟩, fun d hd => ?_⟩
        have hlater := hfirst d hd
        rcases hwins d hd with hscore | ⟨hscore, -⟩
        · exact Or.inl (by omega)
        · unfold Precedes
          omega

/-- If a header fits, then one of those that fit is the best. -/
theorem exists_best (hc : Candidate data c) : ∃ winner, best? (candidates data) = some winner ∧
    Candidate data winner ∧ ∀ d, Candidate data d → winner.Precedes d := by
  cases hbest : best? (candidates data) with
  | none =>
    rw [← mem_candidates, best?_eq_none_iff.1 hbest] at hc
    cases hc
  | some winner =>
    obtain ⟨hmem, hwins⟩ := best?_spec (pairwise_candidates data) hbest
    exact ⟨winner, rfl, mem_candidates.1 hmem, fun d hd => hwins d (mem_candidates.2 hd)⟩

/-- Of the headers that fit, the one found is the best, and it says something. -/
theorem find?_eq_some_iff : find? data = some c ↔
    Candidate data c ∧ 0 < c.score ∧ ∀ d, Candidate data d → c.Precedes d := by
  rw [find?_eq]
  constructor
  · intro h
    obtain ⟨hbest, hscore⟩ := Option.filter_eq_some_iff.1 h
    obtain ⟨hmem, hwins⟩ := best?_spec (pairwise_candidates data) hbest
    exact ⟨mem_candidates.1 hmem, of_decide_eq_true hscore,
      fun d hd => hwins d (mem_candidates.2 hd)⟩
  · rintro ⟨hc, hscore, hwins⟩
    obtain ⟨winner, hbest, hwinner, hmax⟩ := exists_best hc
    -- Each of the two is as good as the other, so that they stand at the same place.
    have hoffset : winner.offset = c.offset := by
      rcases hwins winner hwinner with h | ⟨h, hle⟩ <;>
        rcases hmax c hc with h' | ⟨h', hle'⟩ <;> omega
    obtain rfl := hwinner.eq_of_offset hc hoffset
    simp [hbest, hscore]

theorem find?_eq_none_iff : find? data = none ↔ ∀ c, Candidate data c → c.score = 0 := by
  constructor
  · intro h c hc
    obtain ⟨winner, hbest, -, hmax⟩ := exists_best hc
    have hscore : ¬ 0 < winner.score := by simpa [find?_eq, hbest] using h
    rcases hmax c hc with h | ⟨h, -⟩ <;> omega
  · intro h
    cases hfind : find? data with
    | none => rfl
    | some c =>
      obtain ⟨hc, hscore, -⟩ := find?_eq_some_iff.1 hfind
      have := h c hc
      omega

/-- Data of one size that agrees at the places has the same header. -/
theorem find?_congr (hsize : other.size = data.size)
    (h : ∀ place ∈ places, place.1 + 0x40 ≤ data.size →
      ∀ i < 0x40, other[place.1 + i]? = data[place.1 + i]?) : find? other = find? data := by
  have hat : ∀ place ∈ places, at? other place.1 place.2 = at? data place.1 place.2 := by
    intro place hplace
    unfold at?
    rw [hsize]
    split
    · next hfits => exact read?_congr hfits (h place hplace hfits) place.2
    · rfl
  have hcandidates : candidates other = candidates data := List.filterMap_congr hat
  rw [find?_eq, find?_eq, hcandidates]

end Choice

section Bank

/-- The bytes of a header for a fast cartridge whose title is made of one letter. -/
def fastBytes (i : Nat) : UInt8 :=
  if i < 0x15 then 0x41
  else if i = 0x15 then 0x31
  else if i = 0x1E ∨ i = 0x1F then 0xFF
  else if i = 0x3D then 0x80
  else 0

/-- A bank with that header at its end, zeros at the place before it and `fill` elsewhere. -/
def headedBank (fill : UInt8) : Array UInt8 :=
  Array.ofFn fun i : Fin 0x10000 =>
    if 0xFFC0 ≤ i.val then fastBytes (i - 0xFFC0)
    else if 0x7FC0 ≤ i.val ∧ i.val < 0x8000 then 0
    else fill

variable (fill : UInt8)

@[simp] theorem size_headedBank : (headedBank fill).size = 0x10000 := Array.size_ofFn

theorem getElem?_headedBank_low {i : Nat} (h : i < 0x40) :
    (headedBank fill)[0x7FC0 + i]? = some 0 := by
  have hlt : 0x7FC0 + i < 0x10000 := by omega
  have hhigh : ¬ 0xFFC0 ≤ 0x7FC0 + i := by omega
  have hlow : 0x7FC0 ≤ 0x7FC0 + i ∧ 0x7FC0 + i < 0x8000 := by omega
  simp only [headedBank, Array.getElem?_ofFn, hlt, dif_pos, if_neg hhigh, if_pos hlow]

theorem getElem?_headedBank_high {i : Nat} (h : i < 0x40) :
    (headedBank fill)[0xFFC0 + i]? = some (fastBytes i) := by
  have hlt : 0xFFC0 + i < 0x10000 := by omega
  simp only [headedBank, Array.getElem?_ofFn, hlt, dif_pos, Nat.le_add_right, if_pos,
    Nat.add_sub_cancel_left]

theorem find?_headedBank :
    find? (headedBank fill) = some (ofBytes 0xFFC0 .hiRom fastBytes) := by
  have hlow : at? (headedBank fill) 0x7FC0 .loRom = some (ofBytes 0x7FC0 .loRom fun _ => 0) := by
    rw [at?, if_pos (by simp), read?_eq fun _ => getElem?_headedBank_low fill]
  have hhigh : at? (headedBank fill) 0xFFC0 .hiRom = some (ofBytes 0xFFC0 .hiRom fastBytes) := by
    rw [at?, if_pos (by simp), read?_eq fun _ => getElem?_headedBank_high fill]
  have hnone : at? (headedBank fill) 0x40FFC0 .exHiRom = none := by
    rw [at?, if_neg (by simp)]
  have hcandidates : candidates (headedBank fill) =
      [ofBytes 0x7FC0 .loRom fun _ => 0, ofBytes 0xFFC0 .hiRom fastBytes] := by
    simp [candidates, places, hlow, hhigh, hnone]
  rw [find?_eq, hcandidates]
  decide

end Bank

end Disassembly.Header

import Disassembly.Proofs.Image.Header

/-!
Loading a file. A copier header leaves no trace but the note that it was there, and it is taken off
once: what is left never looks like a file with a header. The rest of an image comes from the best
of the internal headers that its data has room for, and from the size of the data.
-/
namespace Disassembly

section Body

variable {raw : Array UInt8}

/-- Copier headers are told by the size of the file alone. -/
def hasCopierHeader (raw : Array UInt8) : Bool := raw.size % 0x400 == copierHeaderSize

/-- The image in a file, without the copier header. -/
def imageBytes (raw : Array UInt8) : Array UInt8 :=
  if hasCopierHeader raw then raw.extract copierHeaderSize raw.size else raw

theorem hasCopierHeader_iff : hasCopierHeader raw = true ↔ raw.size % 0x400 = 0x200 := by
  simp [hasCopierHeader, copierHeaderSize]

theorem hasCopierHeader_eq_false (h : raw.size % 0x400 = 0) : hasCopierHeader raw = false := by
  simp [hasCopierHeader, copierHeaderSize, h]

theorem imageBytes_of_not (h : hasCopierHeader raw = false) : imageBytes raw = raw := by
  simp [imageBytes, h]

/-- What is left of a file has no copier header any more. -/
theorem hasCopierHeader_imageBytes (raw : Array UInt8) :
    hasCopierHeader (imageBytes raw) = false := by
  cases h : hasCopierHeader raw with
  | false => rwa [imageBytes_of_not h]
  | true =>
    have hsize := hasCopierHeader_iff.1 h
    apply hasCopierHeader_eq_false
    simp only [imageBytes, h, if_true, Array.size_extract, copierHeaderSize]
    omega

section Append

variable {header body : Array UInt8} (hheader : header.size = 0x200) (hbody : body.size % 0x400 = 0)

include hheader hbody

theorem hasCopierHeader_append : hasCopierHeader (header ++ body) = true := by
  rw [hasCopierHeader_iff, Array.size_append, hheader]
  omega

theorem imageBytes_append : imageBytes (header ++ body) = body := by
  have hstart : copierHeaderSize = header.size := hheader.symm
  simp [imageBytes, hasCopierHeader_append hheader hbody, hstart, Array.extract_append]

end Append

end Body

namespace Image

variable {raw : Array UInt8} {layout : Option Layout} {image : Image}

section Description

variable {data other : Array UInt8}

theorem describe_of_find? {c : Header} (h : Header.find? data = some c) :
    describe data = {
      data
      title := c.title
      layout := c.imageLayout data.size
      speed := c.imageSpeed
      header := some c.offset } := by
  rw [describe, h]

theorem describe_of_none (h : Header.find? data = none) : describe data = { data } := by
  rw [describe, h]

@[simp] theorem data_describe (data : Array UInt8) : (describe data).data = data := by
  unfold describe
  split <;> rfl

theorem header_describe (data : Array UInt8) :
    (describe data).header = (Header.find? data).map (·.offset) := by
  cases h : Header.find? data with
  | none => rw [describe_of_none h]; rfl
  | some c => rw [describe_of_find? h]; rfl

/-- Beside the data itself, an image shows the size of the data and its header. -/
theorem describe_congr (hsize : other.size = data.size)
    (h : Header.find? other = Header.find? data) :
    describe other = { describe data with data := other } := by
  cases hfind : Header.find? data with
  | none => rw [describe_of_none hfind, describe_of_none (h.trans hfind)]
  | some c => rw [describe_of_find? hfind, describe_of_find? (h.trans hfind), hsize]

end Description

/-- What is loaded from some data, with the note on a copier header and the layout given. -/
def loaded (data : Array UInt8) (copierHeader : Bool) (layout : Option Layout) : Image :=
  { describe data with copierHeader, layout := layout.getD (describe data).layout }

@[simp] theorem data_loaded (data : Array UInt8) (copierHeader : Bool) (layout : Option Layout) :
    (loaded data copierHeader layout).data = data :=
  data_describe data

theorem header_loaded (data : Array UInt8) (copierHeader : Bool) (layout : Option Layout) :
    (loaded data copierHeader layout).header = (Header.find? data).map (·.offset) :=
  header_describe data

theorem load_eq (raw : Array UInt8) (layout : Option Layout) :
    load raw layout =
      if raw.isEmpty then .error .empty
      else if (imageBytes raw).size < leastImageSize then .error (.tooSmall (imageBytes raw).size)
      else .ok (loaded (imageBytes raw) (hasCopierHeader raw) layout) := rfl

theorem load_of_size (h : leastImageSize ≤ (imageBytes raw).size) (layout : Option Layout) :
    load raw layout = .ok (loaded (imageBytes raw) (hasCopierHeader raw) layout) := by
  have hfull : raw.isEmpty = false := by
    rw [Array.isEmpty_eq_false_iff]
    rintro rfl
    exact absurd h (by decide)
  simp [load_eq, hfull, Nat.not_lt.2 h]

/-- A file is accepted by the size of its image, and the image tells the rest. -/
theorem load_eq_ok_iff : load raw layout = .ok image ↔
    leastImageSize ≤ (imageBytes raw).size ∧
      image = loaded (imageBytes raw) (hasCopierHeader raw) layout := by
  constructor
  · intro h
    by_cases hsize : leastImageSize ≤ (imageBytes raw).size
    · rw [load_of_size hsize] at h
      exact ⟨hsize, (Except.ok.inj h).symm⟩
    · rw [load_eq, if_pos (Nat.not_le.1 hsize)] at h
      split at h <;> cases h
  · rintro ⟨hsize, rfl⟩
    exact load_of_size hsize layout

/-- An image of whole kilobytes is what its header tells. -/
theorem load_of_find? {data : Array UInt8} {c : Header} (hsize : leastImageSize ≤ data.size)
    (hwhole : data.size % 0x400 = 0) (h : Header.find? data = some c) (layout : Option Layout) :
    ∃ image, load data layout = .ok image ∧ image.data = data ∧ image.title = c.title ∧
      image.layout = layout.getD (c.imageLayout data.size) ∧ image.speed = c.imageSpeed ∧
      image.header = some c.offset := by
  have hplain := imageBytes_of_not (hasCopierHeader_eq_false hwhole)
  have hload := @load_of_size data (by rwa [hplain]) layout
  rw [hplain, loaded, describe_of_find? h] at hload
  exact ⟨_, hload, rfl, rfl, rfl, rfl, rfl⟩

/-- What is loaded from the bank of a fast cartridge. -/
theorem load_headedBank (fill : UInt8) (layout : Option Layout) :
    ∃ image, load (Header.headedBank fill) layout = .ok image ∧
      image.data = Header.headedBank fill ∧ image.speed = .fast ∧ image.header = some 0xFFC0 := by
  have hsize := Header.size_headedBank fill
  obtain ⟨image, hload, hdata, -, -, hspeed, hheader⟩ := load_of_find? (by rw [hsize]; decide)
    (by rw [hsize]) (Header.find?_headedBank fill) layout
  exact ⟨image, hload, hdata, hspeed.trans (by decide), hheader⟩

/--
Copier headers make no difference. With 512 bytes of any kind in front of it, an image of whole
kilobytes fails as without them, or gives the same image up to the note on the header; and the data
of a loaded image, loaded again, gives that image without the note.
-/
theorem load_strips_once (layout : Option Layout) :
    (∀ header body : Array UInt8, header.size = 0x200 → body ≠ #[] → body.size % 0x400 = 0 →
      load (header ++ body) layout =
        (load body layout).map fun image => { image with copierHeader := true }) ∧
    ∀ raw image, load raw layout = .ok image →
      load image.data layout = .ok { image with copierHeader := false } := by
  constructor
  · intro header body hheader hfull hbody
    have hplain := hasCopierHeader_eq_false hbody
    have hraw : (header ++ body).isEmpty = false := by simp [hfull]
    rw [load_eq, load_eq, imageBytes_append hheader hbody, hasCopierHeader_append hheader hbody,
      imageBytes_of_not hplain, hplain, hraw, Array.isEmpty_eq_false_iff.2 hfull]
    by_cases hsmall : body.size < leastImageSize
    · simp [hsmall, Except.map]
    · simp [hsmall, Except.map, loaded]
  · intro raw image h
    obtain ⟨hsize, rfl⟩ := load_eq_ok_iff.1 h
    have hplain := hasCopierHeader_imageBytes raw
    have hagain : load (imageBytes raw) layout = _ :=
      load_of_size (by rwa [imageBytes_of_not hplain]) layout
    rw [imageBytes_of_not hplain, hplain] at hagain
    exact (congrArg (load · layout) (data_loaded _ _ _)).trans hagain

/-- The bank of a fast cartridge behind a copier header. -/
theorem load_strips_once_headedBank :
    let header : Array UInt8 := Array.replicate 0x200 0xEA
    let bank := Header.headedBank 0
    header.size = 0x200 ∧ bank ≠ #[] ∧ bank.size % 0x400 = 0 ∧
      ∃ image, load bank none = .ok image ∧ image.speed = .fast ∧
        load (header ++ bank) none = .ok { image with copierHeader := true } ∧
        load image.data none = .ok { image with copierHeader := false } := by
  intro header bank
  have hheader : header.size = 0x200 := Array.size_replicate
  have hsize : bank.size = 0x10000 := Header.size_headedBank 0
  have hfull : bank ≠ #[] := by
    intro h
    simp [h] at hsize
  have hwhole : bank.size % 0x400 = 0 := by rw [hsize]
  obtain ⟨image, hload, -, hspeed, -⟩ := load_headedBank 0 none
  have hwith : load (header ++ bank) none = .ok { image with copierHeader := true } := by
    rw [(load_strips_once none).1 header bank hheader hfull hwhole, hload]
    rfl
  have hagain : load image.data none = .ok { image with copierHeader := false } :=
    (load_strips_once none).2 (header ++ bank) { image with copierHeader := true } hwith
  exact ⟨hheader, hfull, hwhole, image, hload, hspeed, hwith, hagain⟩

/--
The header of an image is the best of those that fit. All reads are inside the data. There is no
header if every header that fits has score zero; otherwise it is the one of greatest score, the
first of them if there are several. Title, layout and speed depend on the size of the data and on
the bytes at the places that fit, and a layout that is given replaces the layout and nothing else.
-/
theorem load_picks_best_header (h : load raw layout = .ok image) :
    image.data = imageBytes raw ∧
    (∀ place ∈ Header.places, place.1 + 0x40 ≤ image.data.size →
      ∃ c, Header.read? image.data place.1 place.2 = some c) ∧
    (image.header = none ↔ ∀ c, Header.Candidate image.data c → c.score = 0) ∧
    (∀ offset, image.header = some offset ↔ ∃ c, Header.Candidate image.data c ∧
      c.offset = offset ∧ 0 < c.score ∧ ∀ d, Header.Candidate image.data d →
        d.score < c.score ∨ d.score = c.score ∧ c.offset ≤ d.offset) ∧
    (∀ raw' image', load raw' layout = .ok image' → image'.data.size = image.data.size →
      (∀ place ∈ Header.places, place.1 + 0x40 ≤ image.data.size →
        ∀ i < 0x40, image'.data[place.1 + i]? = image.data[place.1 + i]?) →
      image'.title = image.title ∧ image'.layout = image.layout ∧ image'.speed = image.speed ∧
        image'.header = image.header) ∧
    ∀ given, load raw (some given) = .ok { image with layout := given } := by
  obtain ⟨hsize, himage⟩ := load_eq_ok_iff.1 h
  have hdata : image.data = imageBytes raw := by rw [himage, data_loaded]
  have hheader : image.header = (Header.find? image.data).map (·.offset) := by
    rw [hdata, himage, header_loaded]
  refine ⟨hdata, fun place _ hfits => Header.read?_of_fits hfits _, ?_, ?_, ?_, ?_⟩
  · rw [hheader, Option.map_eq_none_iff, Header.find?_eq_none_iff]
  · intro offset
    simp only [hheader, Option.map_eq_some_iff, Header.find?_eq_some_iff]
    constructor
    · rintro ⟨c, ⟨hc, hscore, hwins⟩, hoffset⟩
      exact ⟨c, hc, hoffset, hscore, hwins⟩
    · rintro ⟨c, hc, hoffset, hscore, hwins⟩
      exact ⟨c, ⟨hc, hscore, hwins⟩, hoffset⟩
  · intro raw' image' h' hsame hplaces
    obtain ⟨-, himage'⟩ := load_eq_ok_iff.1 h'
    have hdata' : image'.data = imageBytes raw' := by rw [himage', data_loaded]
    have hdescribe := describe_congr hsame (Header.find?_congr hsame hplaces)
    rw [hdata, hdata'] at hdescribe
    rw [himage, himage', loaded, loaded, hdescribe]
    exact ⟨rfl, rfl, rfl, rfl⟩
  · intro given
    rw [himage]
    exact load_of_size hsize (some given)

/-- Two banks of fast cartridges that differ outside the places of their headers. The place that
comes first in them holds zeros. -/
theorem load_picks_best_header_headedBank :
    let bank := Header.headedBank 0
    let other := Header.headedBank 0xEA
    other[0]? ≠ bank[0]? ∧ ∃ image image', load bank none = .ok image ∧
      load other none = .ok image' ∧ image.header = some 0xFFC0 ∧
      (∃ c, Header.read? image.data 0x7FC0 .loRom = some c) ∧
      (∃ c, Header.Candidate image.data c ∧ c.offset = 0xFFC0 ∧ 0 < c.score ∧
        ∀ d, Header.Candidate image.data d →
          d.score < c.score ∨ d.score = c.score ∧ c.offset ≤ d.offset) ∧
      image'.title = image.title ∧ image'.layout = image.layout ∧ image'.speed = image.speed ∧
      image'.header = image.header ∧
      load bank (some .loRom) = .ok { image with layout := .loRom } := by
  intro bank other
  obtain ⟨image, hload, hdata, -, hheader⟩ := load_headedBank 0 none
  obtain ⟨image', hload', hdata', -⟩ := load_headedBank 0xEA none
  have hsize : image.data.size = 0x10000 := by rw [hdata, Header.size_headedBank]
  have hsize' : image'.data.size = 0x10000 := by rw [hdata', Header.size_headedBank]
  obtain ⟨-, hreads, -, hbest, htwo, hgiven⟩ := load_picks_best_header hload
  have hsame : ∀ place ∈ Header.places, place.1 + 0x40 ≤ image.data.size →
      ∀ i < 0x40, image'.data[place.1 + i]? = image.data[place.1 + i]? := by
    intro place hplace hfits i hi
    simp only [Header.places, List.mem_cons, List.not_mem_nil, or_false] at hplace
    rw [hdata, hdata']
    obtain rfl | rfl | rfl := hplace
    · rw [Header.getElem?_headedBank_low _ hi, Header.getElem?_headedBank_low _ hi]
    · rw [Header.getElem?_headedBank_high _ hi, Header.getElem?_headedBank_high _ hi]
    · simp [hsize] at hfits
  obtain ⟨htitle, hlayout, hspeed, hfound⟩ :=
    htwo _ _ hload' (hsize'.trans hsize.symm) hsame
  refine ⟨?_, image, image', hload, hload', hheader, ?_, (hbest _).1 hheader, htitle, hlayout,
    hspeed, hfound, hgiven .loRom⟩
  · simp [bank, other, Header.headedBank]
  · exact hreads (0x7FC0, .loRom) (by decide) (by rw [hsize]; decide)

end Image

end Disassembly

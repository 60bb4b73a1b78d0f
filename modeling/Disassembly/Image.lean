import Disassembly.Layout.Basic

/-!
Reading a cartridge file. A copier header in front is stripped, and of the places where the
internal header may stand the most plausible one tells title, layout and speed.
-/
namespace Disassembly

inductive ImageFault where
  | empty
  | tooSmall (size : Nat)
  deriving DecidableEq

def copierHeaderSize : Nat := 0x200

def leastImageSize : Nat := 0x8000

def ImageFault.message : ImageFault → String
  | empty => "ROM image is empty"
  | tooSmall size =>
    "ROM image too small: " ++ toString size ++ " bytes (minimum " ++ toString leastImageSize ++ ")"

structure Image where
  data : Array UInt8
  title : String := ""
  layout : Layout := .loRom
  speed : Speed := .unknown
  header : Option Nat := none
  copierHeader : Bool := false
  deriving DecidableEq

/-- What an internal header says, and the layout that uses its place. -/
structure Header where
  offset : Nat
  layout : Layout
  titleBytes : List UInt8
  mapByte : Nat
  chipset : Nat
  complement : Nat
  checksum : Nat
  reset : Nat
  deriving DecidableEq

namespace Header

/-- The places where an internal header may stand. -/
def places : List (Nat × Layout) :=
  [(0x7FC0, .loRom), (0xFFC0, .hiRom), (0x40FFC0, .exHiRom)]

/-- Two bytes of the data, the low one first; fails outside it. -/
def word? (data : Array UInt8) (i : Nat) : Option Nat := do
  return (← data[i]?).toNat + (← data[i + 1]?).toNat * 0x100

/-- The next `n` bytes of the data; fails outside it. -/
def bytes? (data : Array UInt8) (i : Nat) : (n : Nat) → Option (List UInt8)
  | 0 => some []
  | n + 1 => return (← data[i]?) :: (← bytes? data (i + 1) n)

/-- Reads each field of a header where it stands in the data; fails outside it. -/
def read? (data : Array UInt8) (offset : Nat) (layout : Layout) : Option Header := do
  let titleBytes ← bytes? data offset 21
  let mapByte ← data[offset + 0x15]?
  let chipset ← data[offset + 0x16]?
  let complement ← word? data (offset + 0x1C)
  let checksum ← word? data (offset + 0x1E)
  let reset ← word? data (offset + 0x3C)
  return {
    offset, layout, titleBytes, complement, checksum, reset
    mapByte := mapByte.toNat
    chipset := chipset.toNat }

/-- The header at a place whose 64 bytes are in the data. -/
def at? (data : Array UInt8) (offset : Nat) (layout : Layout) : Option Header :=
  if offset + 0x40 ≤ data.size then read? data offset layout else none

/-- Bytes outside ASCII become the replacement character; blanks and zeros at the end are cut. -/
def title (h : Header) : String :=
  let cs := h.titleBytes.map fun b => if b.toNat < 0x80 then Char.ofNat b.toNat else '�'
  String.ofList (cs.reverse.dropWhile fun c => c.toNat = 0x20 || c.toNat = 0).reverse

/-- The layout that the low half of the map byte names. -/
def statedLayout? (h : Header) : Option Layout :=
  match h.mapByte % 0x10 with
  | 0x0 => some .loRom
  | 0x1 => some .hiRom
  | 0x2 => some .exLoRom
  | 0x3 => some .sa1
  | 0x5 => some .exHiRom
  | 0xA => some .superMmc
  | _ => none

/-- A map byte that agrees with the place. Two other layouts have their header where LoROM does. -/
def fitsPlace (h : Header) : Bool :=
  h.statedLayout? == some h.layout ||
    (h.layout == .loRom && (h.statedLayout? == some .sa1 || h.statedLayout? == some .exLoRom))

/-- Plausibility: checksum and complement, map byte and layout, printable title, reset vector. -/
def score (h : Header) : Nat :=
  (if h.complement ^^^ h.checksum = 0xFFFF then 4 else 0) +
  (if h.mapByte / 0x20 = 1 then (if h.fitsPlace then 3 else 1) else 0) +
  (if h.titleBytes.all fun b => 0x20 ≤ b && b < 0x7F then 1 else 0) +
  (if 0x8000 ≤ h.reset then 1 else 0)

/-- The candidate of greatest score; the first one wins a tie. -/
def best? : List Header → Option Header
  | [] => none
  | h :: rest =>
    match best? rest with
    | none => some h
    | some other => if h.score < other.score then some other else some h

/-- The header of an image, if some candidate is plausible at all. -/
def find? (data : Array UInt8) : Option Header :=
  (best? (places.filterMap fun (offset, layout) => at? data offset layout)).filter (0 < ·.score)

/-- The layout of an image of `size` bytes. Chipset and size refine two of the stated layouts. -/
def imageLayout (h : Header) (size : Nat) : Layout :=
  match h.statedLayout?.getD h.layout with
  | .loRom => if 0x13 ≤ h.chipset ∧ h.chipset < 0x1B then .superFx else .loRom
  | .sa1 => if 0x400000 < size then .exSa1 else .sa1
  | layout => layout

def imageSpeed (h : Header) : Speed := if h.mapByte / 0x10 % 2 = 1 then .fast else .slow

end Header

namespace Image

/-- What the internal header tells about the data. -/
def describe (data : Array UInt8) : Image :=
  match Header.find? data with
  | none => { data }
  | some h =>
    { data
      title := h.title
      layout := h.imageLayout data.size
      speed := h.imageSpeed
      header := some h.offset }

/-- Loads a file; a given layout replaces the detected one. -/
def load (raw : Array UInt8) (layout : Option Layout) : Except ImageFault Image :=
  if raw.isEmpty then .error .empty
  else
    let copierHeader := raw.size % 0x400 == copierHeaderSize
    let data := if copierHeader then raw.extract copierHeaderSize raw.size else raw
    if data.size < leastImageSize then .error (.tooSmall data.size)
    else
      let image := describe data
      .ok { image with copierHeader, layout := layout.getD image.layout }

end Image

end Disassembly

import Disassembly.Layout.Address
import Disassembly.Store.Cell
import Disassembly.Text.Hex
import Std.Data.TreeMap

/-!
The store: an image, one cell per byte, and labels and comments by bus address. Reads are checked
against the image and fail outside it; `peek` and `cell` are the same views without the check.
-/
namespace Disassembly

inductive Fault where
  | emptyImage
  | negativeCount
  | outside (length : Nat) (offset : Int) (size : Nat)
  deriving DecidableEq

def Fault.message : Fault → String
  | emptyImage => "ROM image must not be empty"
  | negativeCount => "count must not be negative"
  | outside length offset size =>
    "read of " ++ toString length ++ " byte(s) at " ++ Text.markedHex 8 offset ++
      " outside ROM of " ++ Text.markedHex 0 size ++ " bytes"

/-- Texts by bus address. -/
abbrev Notes := Std.TreeMap Int String

/-- The text of an address, empty if it has none. -/
def Notes.text (notes : Notes) (address : Int) : String := notes.getD address ""

/-- An empty text removes the entry. -/
def Notes.put (notes : Notes) (address : Int) (text : String) : Notes :=
  if text = "" then notes.erase address else notes.insert address text

structure Store where
  rom : Array UInt8
  layout : Layout
  speed : Speed
  cells : Array Cell
  labels : Notes := {}
  comments : Notes := {}

namespace Store

def create (rom : Array UInt8) (layout : Layout) (speed : Speed) : Except Fault Store :=
  if rom.isEmpty then .error .emptyImage
  else .ok { rom, layout, speed, cells := Array.replicate rom.size {} }

def size (s : Store) : Nat := s.rom.size

def Contains (s : Store) (offset : Int) : Prop := 0 ≤ offset ∧ offset < s.size

instance (s : Store) (offset : Int) : Decidable (s.Contains offset) :=
  inferInstanceAs (Decidable (_ ∧ _))

def peek (s : Store) (offset : Int) : UInt8 := s.rom.getD offset.toNat 0

def cell (s : Store) (offset : Int) : Cell := s.cells.getD offset.toNat {}

/-- Fails unless `length` bytes from `offset` on lie in the image. -/
def check (s : Store) (length : Nat) (offset : Int) : Except Fault Unit :=
  if offset < 0 ∨ s.size < offset + length then .error (.outside length offset s.size) else .ok ()

@[simp] theorem check_eq_ok_iff {s : Store} {length : Nat} {offset : Int} :
    s.check length offset = .ok () ↔ 0 ≤ offset ∧ offset + length ≤ s.size := by
  unfold check
  split
  · simp
    omega
  · simp
    omega

theorem check_one {s : Store} {offset : Int} (h : s.Contains offset) :
    s.check 1 offset = .ok () :=
  check_eq_ok_iff.2 ⟨h.1, by have := h.2; omega⟩

def byteAt (s : Store) (offset : Int) : Except Fault UInt8 := do
  s.check 1 offset
  return s.peek offset

theorem byteAt_of_contains {s : Store} {offset : Int} (h : s.Contains offset) :
    s.byteAt offset = .ok (s.peek offset) := by
  unfold byteAt
  rw [check_one h]
  rfl

/-- Two bytes, the low one first. -/
def wordAt (s : Store) (offset : Int) : Except Fault Nat := do
  s.check 2 offset
  return (s.peek offset).toNat + (s.peek (offset + 1)).toNat * 0x100

/-- Three bytes, the low one first. -/
def longAt (s : Store) (offset : Int) : Except Fault Nat := do
  s.check 3 offset
  return (s.peek offset).toNat + (s.peek (offset + 1)).toNat * 0x100 +
    (s.peek (offset + 2)).toNat * 0x10000

def cellAt (s : Store) (offset : Int) : Except Fault Cell := do
  s.check 1 offset
  return s.cell offset

theorem cellAt_of_contains {s : Store} {offset : Int} (h : s.Contains offset) :
    s.cellAt offset = .ok (s.cell offset) := by
  unfold cellAt
  rw [check_one h]
  rfl

def flagAt (s : Store) (offset : Int) : Except Fault Flag := return (← s.cellAt offset).flag

def contextAt (s : Store) (offset : Int) : Except Fault Context :=
  return (← s.cellAt offset).context

/-- The bus address of a byte of the image. -/
def busAddress? (s : Store) (offset : Int) : Option Int :=
  if s.Contains offset then s.layout.busAddress? s.speed offset else none

/-- The byte of the image that a bus address reads. -/
def fileOffset? (s : Store) (address : Int) : Option Int :=
  (s.layout.fileOffset? s.size address).filter fun offset => s.Contains offset

end Store

/-- Operations on a store that may fail; changes made before a failure stay. -/
abbrev StoreM := EStateM Fault Store

namespace StoreM

def read {α : Type} (query : Store → Except Fault α) : StoreM α := fun s =>
  match query s with
  | .ok a => .ok a s
  | .error e => .error e s

end StoreM

end Disassembly

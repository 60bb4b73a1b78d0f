import Disassembly.Store.Basic

/-! Changes to the cells, labels and comments of a store. -/
namespace Disassembly

namespace Cell

def setFlag (flag : Flag) (c : Cell) : Cell := { c with flag }

def setContext (context : Context) (c : Cell) : Cell := { c with context := context.masked }

def setDirectPage (value : Int) (c : Cell) : Cell :=
  { c with context := { c.context with directPage := value % 0x10000 } }

def setDataBank (value : Int) (c : Cell) : Cell :=
  { c with context := { c.context with dataBank := value % 0x100 } }

def setXFlag (value : Bool) (c : Cell) : Cell :=
  { c with context := { c.context with xFlag := value } }

def setMFlag (value : Bool) (c : Cell) : Cell :=
  { c with context := { c.context with mFlag := value } }

def setWidths (bits : Int) (c : Cell) : Cell := { c with context := c.context.withWidths bits }

def addMarks (marks : Marks) (c : Cell) : Cell := { c with marks := c.marks.union marks }

def clearMarks (c : Cell) : Cell := if c.marks = {} then c else { c with marks := {} }

end Cell

/-- Changes `n` cells from index `i` on. -/
def editCells (f : Cell → Cell) : (n i : Nat) → Array Cell → Array Cell
  | 0, _, cells => cells
  | n + 1, i, cells => editCells f n (i + 1) (cells.modify i f)

@[simp] theorem size_editCells (f : Cell → Cell) (n i : Nat) (cells : Array Cell) :
    (editCells f n i cells).size = cells.size := by
  induction n generalizing i cells with
  | zero => rfl
  | succ n ih => rw [editCells, ih, Array.size_modify]

theorem getElem?_editCells (f : Cell → Cell) (n i j : Nat) (cells : Array Cell) :
    (editCells f n i cells)[j]? = if i ≤ j ∧ j < i + n then cells[j]?.map f else cells[j]? := by
  induction n generalizing i cells with
  | zero =>
    rw [editCells, if_neg (by omega)]
  | succ n ih =>
    rw [editCells, ih, Array.getElem?_modify]
    by_cases h : i = j
    · subst h
      rw [if_neg (by omega), if_pos rfl, if_pos (by omega)]
    · rw [if_neg h]
      by_cases hj : i + 1 ≤ j ∧ j < i + 1 + n
      · rw [if_pos hj, if_pos (by omega)]
      · rw [if_neg hj, if_neg (by omega)]

namespace Store

def editRun (s : Store) (offset : Int) (n : Nat) (f : Cell → Cell) : Store :=
  { s with cells := editCells f n offset.toNat s.cells }

@[simp] theorem size_editRun (s : Store) (offset : Int) (n : Nat) (f : Cell → Cell) :
    (s.editRun offset n f).size = s.size := rfl

@[simp] theorem peek_editRun (s : Store) (offset i : Int) (n : Nat) (f : Cell → Cell) :
    (s.editRun offset n f).peek i = s.peek i := rfl

/-- A run is edited inside and left alone outside. -/
theorem cell_editRun (s : Store) {offset i : Int} (n : Nat) (f : Cell → Cell)
    (ho : 0 ≤ offset) (hi : 0 ≤ i) (hs : i < s.cells.size) :
    (s.editRun offset n f).cell i =
      if offset ≤ i ∧ i < offset + n then f (s.cell i) else s.cell i := by
  have hlt : i.toNat < s.cells.size := by omega
  simp only [cell, editRun, Array.getD_eq_getD_getElem?, getElem?_editCells,
    Array.getElem?_eq_getElem hlt]
  by_cases h : offset ≤ i ∧ i < offset + n
  · rw [if_pos h, if_pos (by omega)]
    rfl
  · rw [if_neg h, if_neg (by omega)]

def clearMarks (s : Store) : Store := { s with cells := s.cells.map Cell.clearMarks }

def putLabel (s : Store) (address : Int) (name : String) : Store :=
  { s with labels := s.labels.put address name }

def putComment (s : Store) (address : Int) (text : String) : Store :=
  { s with comments := s.comments.put address text }

end Store

namespace StoreM

/-- Changes the cell of one byte of the image. -/
def edit (offset : Int) (f : Cell → Cell) : StoreM Unit := do
  read (·.check 1 offset)
  modify (·.editRun offset 1 f)

/--
Changes up to `count` cells from `offset` on, as far as the image goes, and returns the offset
behind them. A negative count is a fault before a bad offset is one.
-/
def editUpTo (offset count : Int) (f : Cell → Cell) : StoreM Int := do
  if count < 0 then throw .negativeCount
  read (·.check 1 offset)
  let size := (← get).size
  let behind := min (offset + count) size
  modify (·.editRun offset (behind - offset).toNat f)
  return behind

end StoreM

end Disassembly

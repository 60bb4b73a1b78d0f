import Disassembly.Store.Edit

/-! The interrupt vectors: words at fixed addresses that name the entry points of the code. -/
namespace Disassembly

/-- A vector whose target lies in the image. -/
structure VectorEntry where
  name : String
  address : Int
  target : Int
  offset : Int
  deriving DecidableEq

/-- What stands in a vector: an entry point, or an address outside the image. -/
inductive VectorReading where
  | inside (entry : VectorEntry)
  | outside (name : String) (target : Int)
  deriving DecidableEq

def VectorReading.entry? : VectorReading → Option VectorEntry
  | inside entry => some entry
  | outside _ _ => none

/-- Name and address of each vector, first those of native mode. -/
def vectorTable : List (String × Int) :=
  [ ("Native_COP", 0xFFE4), ("Native_BRK", 0xFFE6), ("Native_ABORT", 0xFFE8),
    ("Native_NMI", 0xFFEA), ("Native_IRQ", 0xFFEE), ("Emulation_COP", 0xFFF4),
    ("Emulation_ABORT", 0xFFF8), ("Emulation_NMI", 0xFFFA), ("Emulation_RESET", 0xFFFC),
    ("Emulation_IRQBRK", 0xFFFE) ]

def resetName : String := "Emulation_RESET"

namespace Store

/-- Reads one vector, if both bytes of its word are in the image. -/
def readVector (s : Store) (name : String) (address : Int) :
    Except Fault (Option VectorReading) := do
  match s.fileOffset? address with
  | none => return none
  | some place =>
    if ¬ s.Contains (place + 1) then return none
    let target ← s.wordAt place
    match s.fileOffset? target with
    | some offset => return some (.inside ⟨name, address, target, offset⟩)
    | none => return some (.outside name target)

def readVectorsOf (s : Store) : List (String × Int) → Except Fault (List VectorReading)
  | [] => return []
  | (name, address) :: rest => do
    let reading ← s.readVector name address
    return reading.toList ++ (← s.readVectorsOf rest)

def readVectors (s : Store) : Except Fault (List VectorReading) := s.readVectorsOf vectorTable

end Store

namespace StoreM

/-- The reset target gets the reset state; with `label` an unnamed target gets the vector's name. -/
def seedEntry (label : Bool) (entry : VectorEntry) : StoreM Unit := do
  if entry.name = resetName then edit entry.offset (·.setContext .emulation)
  modify fun s =>
    if label ∧ s.labels.text entry.target = "" then s.putLabel entry.target entry.name else s

def seedEntries (label : Bool) : List VectorEntry → StoreM Unit
  | [] => pure ()
  | entry :: rest => do
    seedEntry label entry
    seedEntries label rest

/-- Prepares the targets of the vectors as entry points. -/
def seedVectors (label : Bool) : StoreM (List VectorReading) := do
  let readings ← read (·.readVectors)
  seedEntries label (readings.filterMap VectorReading.entry?)
  return readings

end StoreM

end Disassembly

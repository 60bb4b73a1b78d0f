import Disassembly.Context
import Disassembly.Text.Hex

/-! A recorder that keeps the last entries of a trace, up to a fixed capacity. -/
namespace Disassembly

/-- One decoded instruction. A negative address means that there is none. -/
structure TraceEntry where
  offset : Int
  address : Int
  opcode : Option Int
  mnemonic : String
  context : Context
  next : Int
  note : String := ""
  deriving DecidableEq

namespace TraceEntry

/-- The entry as it is kept: one opcode byte, and the context as a store keeps it. -/
def masked (e : TraceEntry) : TraceEntry :=
  { e with opcode := e.opcode.map (· % 0x100), context := e.context.masked }

def line (e : TraceEntry) : String :=
  let opcode := match e.opcode with
    | some op => Text.upperHex 2 op
    | none => "--"
  let mnemonic := if e.mnemonic = "" then "?" else e.mnemonic
  let address := if e.address < 0 then "------" else Text.upperHex 6 e.address
  let widths := (if e.context.mFlag then "M" else "m") ++ (if e.context.xFlag then "X" else "x")
  let note := if e.note = "" then "" else " note=" ++ e.note
  "pc=" ++ Text.upperHex 6 e.offset ++ " snes=" ++ address ++ " opcode=" ++ opcode ++ " " ++
    Text.padRight 3 mnemonic ++ " D=" ++ Text.upperHex 4 e.context.directPage ++ " B=" ++
    Text.upperHex 2 e.context.dataBank ++ " " ++ widths ++ " next=" ++ Text.upperHex 6 e.next ++
    note

end TraceEntry

/--
A ring of slots. The next entry goes to slot `index`, and `size` of the slots before that, counted
backwards around the ring, hold the last entries.
-/
structure Recorder where
  capacity : Nat
  slots : Array (Option TraceEntry) := Array.replicate capacity none
  index : Nat := 0
  size : Nat := 0

/-- The refusal of a capacity that is not positive. -/
structure BadCapacity where
  capacity : Int
  deriving DecidableEq

def BadCapacity.message (_ : BadCapacity) : String := "capacity must be positive"

namespace Recorder

def defaultCapacity : Int := 256

def create (capacity : Int) : Except BadCapacity Recorder :=
  if capacity ≤ 0 then .error ⟨capacity⟩ else .ok { capacity := capacity.toNat }

def record (r : Recorder) (entry : TraceEntry) : Recorder :=
  { r with
    slots := r.slots.setIfInBounds r.index (some entry.masked)
    index := (r.index + 1) % r.capacity
    size := if r.size < r.capacity then r.size + 1 else r.size }

/-- What a slot holds; slots are numbered around the ring. -/
def slot (r : Recorder) (number : Int) : Option TraceEntry :=
  r.slots.getD (number % r.capacity).toNat none

/-- How many entries are shown. -/
def shown (r : Recorder) : Option Int → Nat
  | none => r.size
  | some limit => min r.size limit.toNat

/-- The last entries, at most `limit` of them, the oldest first. -/
def entries (r : Recorder) (limit : Option Int) : List TraceEntry :=
  (List.range (r.shown limit)).filterMap fun i : Nat => r.slot (r.index - r.shown limit + i)

/-- All entries, the oldest first. -/
def toList (r : Recorder) : List TraceEntry := r.entries none

def last? (r : Recorder) : Option TraceEntry :=
  if r.size = 0 then none else r.slot (r.index - 1)

def lines (r : Recorder) (limit : Option Int) : List String :=
  (r.entries limit).map TraceEntry.line

end Recorder

end Disassembly

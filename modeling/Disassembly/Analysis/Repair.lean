import Disassembly.Decode.Step
import Disassembly.Store.Survey

/-! Passes over the whole store: flow marks from scratch, operands back to their opcodes. -/
namespace Disassembly

/-- What a rescan did: the number of instructions, and the flows with the newest first. -/
structure Rescan where
  count : Nat
  flows : List Flow

/-- How many of `n` bytes from `offset` on are no operands. -/
def Store.strayCount (s : Store) (offset : Int) (n : Nat) : Nat :=
  (List.range n).countP fun i : Nat => (s.cell (offset + i)).flag != .operand

namespace StoreM

/-- Marks the flow of each instruction in the list; the newest flow comes first. -/
def markAll : List Nat → List Flow → StoreM (List Flow)
  | [], flows => pure flows
  | offset :: rest, flows => do
    let flow ← markFlow offset
    markAll rest (flow.toList ++ flows)

/-- Replaces all marks by those of the instructions decoded so far. -/
def rescan : StoreM Rescan := do
  modify (·.clearMarks)
  let offsets := (← get).offsetsWith .opcode
  return ⟨offsets.length, ← markAll offsets []⟩

/-- Gives the opcode at `offset` its operands; returns its length and the number of new ones. -/
def align (offset : Int) : StoreM (Nat × Nat) := do
  let length ← read (·.lengthAt offset)
  let context ← read (·.contextAt offset)
  let s ← get
  let strays := s.strayCount (offset + 1) (min (offset + length) s.size - (offset + 1)).toNat
  ownOperands offset length context
  return (length, strays)

/-- Repairs from `offset` on in at most `n` moves; `changed` counts the roles changed so far. -/
def repairFrom : (n : Nat) → (offset : Int) → (changed : Nat) → StoreM Nat
  | 0, _, changed => pure changed
  | n + 1, offset, changed => do
    if (← get).size ≤ offset then return changed
    match ← read (·.flagAt offset) with
    | .opcode =>
      let (length, strays) ← align offset
      repairFrom n (offset + length) (changed + strays)
    | .operand =>
      edit offset (·.setFlag .opcode)
      let (length, strays) ← align offset
      repairFrom n (offset + length) (changed + 1 + strays)
    | _ => repairFrom n (offset + 1) changed

/--
Makes every opcode own exactly the bytes of its operand. An operand without an opcode becomes one.
Returns how many bytes changed their role.
-/
def repair : StoreM Nat := do repairFrom (← get).size 0 0

end StoreM

end Disassembly

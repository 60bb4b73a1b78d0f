import Disassembly.Decode.Operand
import Disassembly.Store.Edit

/-!
Decoding one instruction: it takes over a context, makes its bytes its own, leaves flow marks and
tells where decoding goes on. The result says what was done, so that logs can be written from it.
-/
namespace Disassembly

/-- The marks that an instruction leaves at its own offset and at its target. -/
def Opcode.marks (op : UInt8) (offset : Int) (target : Option Int) : List (Int × Marks) :=
  (match target with
    | some t => if isReading op then [(t, Marks.read)] else []
    | none => []) ++
  (if ends.contains op then [(offset, Marks.stop)] else []) ++
  (match target with
    | some t => if flows.contains op then [(offset, Marks.exit), (t, Marks.entry)] else []
    | none => [])

/-- The target that an instruction may pass control to. -/
def Opcode.flowTarget (op : UInt8) (target : Option Int) : Option Int :=
  if flows.contains op then target else none

/-- A flow of control that was marked. -/
structure Flow where
  opcode : UInt8
  offset : Int
  target : Int
  deriving DecidableEq

/-- What decoding an instruction did. -/
structure Decoded where
  offset : Int
  opcode : UInt8
  context : Context
  flow : Option Flow
  next : Int
  deriving DecidableEq

/-- The context under the mask of REP or SEP, if the mask byte is in the image. -/
def Store.statusContext (s : Store) (offset : Int) (op : UInt8) (context : Context) : Context :=
  if (op = Opcode.rep ∨ op = Opcode.sep) ∧ s.Contains (offset + 1) then
    context.withStatus (s.peek (offset + 1)).toNat (op = Opcode.sep)
  else context

namespace StoreM

def addMarks : List (Int × Marks) → StoreM Unit
  | [] => pure ()
  | (offset, marks) :: rest => do
    edit offset (·.addMarks marks)
    addMarks rest

/-- Marks the flow of control and the reads of the instruction at `offset`. -/
def markFlow (offset : Int) : StoreM (Option Flow) := do
  let op ← read (·.byteAt offset)
  let target ← read (·.targetAt offset)
  addMarks (Opcode.marks op offset target)
  return (Opcode.flowTarget op target).map (⟨op, offset, ·⟩)

/-- Makes the bytes behind the opcode its operands, as far as the image goes. -/
def ownOperands (offset : Int) (length : Nat) (context : Context) : StoreM Unit :=
  modify fun s =>
    s.editRun (offset + 1) (min (offset + length) s.size - (offset + 1)).toNat
      fun c => (c.setFlag .operand).setContext context

/--
Decodes the instruction at `offset` under the context inherited from `prev`. Jumps go on at their
target, with `branch` also branches and calls; with `force` everything goes on behind itself.
-/
def decode (offset : Int) (branch force : Bool) (prev : Int) : StoreM Decoded := do
  let op ← read (·.byteAt offset)
  let inherited ← read (·.inheritedContext offset prev)
  let context := (← get).statusContext offset op inherited
  edit offset fun c => (c.setFlag .opcode).setContext context
  let length ← read (·.lengthAt offset)
  ownOperands offset length context
  let flow ← markFlow offset
  let target ← read (·.targetAt offset)
  let next :=
    if Opcode.followsTarget op branch force then target.getD (offset + length)
    else offset + length
  return ⟨offset, op, context, flow, next⟩

end StoreM

end Disassembly

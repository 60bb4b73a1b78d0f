import Disassembly.Instruction.Kind
import Disassembly.Instruction.Table
import Disassembly.Store.Basic

/-! The instruction at an offset: mode, length, and the address that its operand designates. -/
namespace Disassembly

/-- The value of `n` as a signed number of `bytes` bytes. -/
def signed (bytes n : Nat) : Int :=
  if n < 0x80 * Nat.pow 0x100 (bytes - 1) then n else (n : Int) - Nat.pow 0x100 bytes

namespace Store

/-- The mode under the widths recorded at the opcode. -/
def modeAt (s : Store) (offset : Int) : Except Fault Mode := do
  let op ← s.byteAt offset
  let context ← s.contextAt offset
  return (Opcode.mode op).resolve context.xFlag context.mFlag

def lengthAt (s : Store) (offset : Int) : Except Fault Nat := return (← s.modeAt offset).length

/-- Whether the instruction runs past the end of the image. -/
def truncatedAt (s : Store) (offset : Int) : Except Fault Bool :=
  return decide ((s.size : Int) < offset + (← s.lengthAt offset))

/-- The bank of an instruction; an instruction without bus address counts as bank -1. -/
def programBank (s : Store) (offset : Int) : Int := (s.busAddress? offset).getD (-1) / 0x10000

/-- The bus address behind an instruction; at the end of the image it is counted from the opcode. -/
def addressBehind? (s : Store) (offset : Int) (length : Nat) : Option Int :=
  match s.busAddress? (offset + length) with
  | some address => some address
  | none => (s.busAddress? offset).map (· + length)

/-- A displacement counts from the next instruction and wraps within its bank. -/
def relativeTarget? (s : Store) (offset : Int) (length : Nat) (displacement : Int) : Option Int :=
  (s.addressBehind? offset length).map fun address =>
    address / 0x10000 * 0x10000 + (address + displacement) % 0x10000

/--
The address that the operand designates. With `resolve` the direct page is added, otherwise the
operand byte is taken as it is. Truncated instructions have none, nor have operands that are no
addresses.
-/
def operandAddress (s : Store) (offset : Int) (resolve : Bool) : Except Fault (Option Int) := do
  let mode ← s.modeAt offset
  if ← s.truncatedAt offset then return none
  if mode.isDirectPage then
    let low ← s.byteAt (offset + 1)
    if resolve then
      return some (((← s.contextAt offset).directPage + low.toNat) % 0x10000)
    return some low.toNat
  if mode.isStackRelative then return some (← s.byteAt (offset + 1)).toNat
  if mode.isAbsolute then
    let op ← s.byteAt offset
    let word ← s.wordAt (offset + 1)
    let context ← s.contextAt offset
    let bank :=
      if Opcode.inProgramBank.contains op then s.programBank offset else context.dataBank
    return some (bank * 0x10000 + word)
  if mode.isPointer then return some (← s.wordAt (offset + 1) : Nat)
  if mode.isLong then return some (← s.longAt (offset + 1) : Nat)
  if mode = .relative8 then
    return s.relativeTarget? offset 2 (signed 1 (← s.byteAt (offset + 1)).toNat)
  if mode = .relative16 then
    return s.relativeTarget? offset 3 (signed 2 (← s.wordAt (offset + 1)))
  return none

/-- The byte of the image that the operand designates. -/
def targetAt (s : Store) (offset : Int) : Except Fault (Option Int) :=
  return (← s.operandAddress offset true).bind s.fileOffset?

/-- The nearest byte at or before `offset` that is no operand, at most `n` bytes back. -/
def owner (s : Store) : Nat → Int → Int
  | 0, offset => offset
  | n + 1, offset =>
    if 0 < offset ∧ (s.cell offset).flag = .operand then s.owner n (offset - 1) else offset

/--
The context that an instruction takes over from the instruction that the byte `prev` belongs to;
without such an instruction it is the one recorded at `offset` itself.
-/
def inheritedContext (s : Store) (offset prev : Int) : Except Fault Context :=
  let owner := s.owner 3 prev
  if s.Contains prev ∧ (s.cell owner).flag = .opcode then .ok (s.cell owner).context
  else s.contextAt offset

end Store

end Disassembly

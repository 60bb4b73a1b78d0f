import Disassembly.Instruction.Table
import Disassembly.Text.Hex

/-! Building an instruction table opcode by opcode, each opcode once and none left out. -/
namespace Disassembly

structure Instruction where
  opcode : UInt8
  mnemonic : String
  mode : Mode
  deriving DecidableEq

inductive RegistryFault where
  | outOfRange (opcode : Int)
  | emptyMnemonic
  | duplicate (opcode : UInt8) (mnemonic : String)
  | incomplete (gap : Nat)
  deriving DecidableEq

def RegistryFault.message : RegistryFault → String
  | outOfRange opcode => "opcode out of range: " ++ toString opcode
  | emptyMnemonic => "mnemonic must not be empty"
  | duplicate opcode mnemonic =>
    "opcode " ++ Text.markedHex 4 opcode.toNat ++ " already registered as " ++ mnemonic
  | incomplete gap => "opcode table incomplete, first gap at " ++ Text.markedHex 4 gap

/-- An instruction needs an opcode of one byte and a mnemonic, checked in this order. -/
def Instruction.make (opcode : Int) (mnemonic : String) (mode : Mode) :
    Except RegistryFault Instruction :=
  if opcode < 0 ∨ 0xFF < opcode then .error (.outOfRange opcode)
  else if mnemonic = "" then .error .emptyMnemonic
  else .ok ⟨UInt8.ofNat opcode.toNat, mnemonic, mode⟩

/-- The instruction set as a list in the order of the opcodes. -/
def standardInstructions : List Instruction :=
  instructionRows.toList.zipIdx.map fun ((mnemonic, mode), n) => ⟨UInt8.ofNat n, mnemonic, mode⟩

/-- One slot per opcode. -/
structure Registry where
  slots : Vector (Option Instruction) 256 := Vector.replicate 256 none

namespace Registry

def get? (r : Registry) (op : UInt8) : Option Instruction := r.slots.get op.toFin

/-- The table after a registration, and the fault if the opcode was taken. -/
def register (i : Instruction) (r : Registry) : Registry × Option RegistryFault :=
  match r.get? i.opcode with
  | some old => (r, some (.duplicate i.opcode old.mnemonic))
  | none => ({ slots := r.slots.set i.opcode.toNat (some i) i.opcode.toNat_lt }, none)

/-- Registers in order up to the first duplicate; what came before it stays. -/
def registerAll : List Instruction → Registry → Registry × Option RegistryFault
  | [], r => (r, none)
  | i :: rest, r =>
    match r.register i with
    | (r, none) => r.registerAll rest
    | (r, some e) => (r, some e)

/-- The table in the order of the opcodes, if no slot is empty. -/
def freeze (r : Registry) : Except RegistryFault (List Instruction) :=
  match r.slots.toList.findIdx? Option.isNone with
  | some gap => .error (.incomplete gap)
  | none => .ok (r.slots.toList.filterMap id)

def build (is : List Instruction) : Except RegistryFault (List Instruction) :=
  match registerAll is {} with
  | (r, none) => r.freeze
  | (_, some e) => .error e

end Registry

end Disassembly

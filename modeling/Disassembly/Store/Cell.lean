import Disassembly.Context

/-! What is known about one byte of the image. -/
namespace Disassembly

/-- The role of a byte. -/
inductive Flag where
  | unreached
  | opcode
  | operand
  | data8
  | graphics
  | music
  | empty
  | data16
  | pointer16
  | data24
  | pointer24
  | data32
  | pointer32
  | text
  deriving DecidableEq

namespace Flag

def all : List Flag :=
  [unreached, opcode, operand, data8, graphics, music, empty, data16, pointer16, data24,
    pointer24, data32, pointer32, text]

def identifier : Flag → String
  | unreached => "UNREACHED"
  | opcode => "OPCODE"
  | operand => "OPERAND"
  | data8 => "DATA_8BIT"
  | graphics => "GRAPHICS"
  | music => "MUSIC"
  | empty => "EMPTY"
  | data16 => "DATA_16BIT"
  | pointer16 => "POINTER_16BIT"
  | data24 => "DATA_24BIT"
  | pointer24 => "POINTER_24BIT"
  | data32 => "DATA_32BIT"
  | pointer32 => "POINTER_32BIT"
  | text => "TEXT"

/-- The number by which a role is exchanged. -/
def code : Flag → Nat
  | unreached => 0x00
  | opcode => 0x10
  | operand => 0x11
  | data8 => 0x20
  | graphics => 0x21
  | music => 0x22
  | empty => 0x23
  | data16 => 0x30
  | pointer16 => 0x31
  | data24 => 0x40
  | pointer24 => 0x41
  | data32 => 0x50
  | pointer32 => 0x51
  | text => 0x60

/-- Roles that code may have; a walk enters no other byte. -/
def isCode : Flag → Bool
  | unreached | opcode | operand => true
  | _ => false

end Flag

/-- Marks of the flow of control and of memory reads, one bit each. -/
structure Marks where
  bits : UInt8 := 0
  deriving DecidableEq

namespace Marks

/-- Control enters here from elsewhere. -/
def entry : Marks := ⟨1⟩

/-- Control may leave for a target. -/
def exit : Marks := ⟨2⟩

/-- Control does not go on to the next byte. -/
def stop : Marks := ⟨4⟩

/-- An instruction reads or changes this byte. -/
def read : Marks := ⟨8⟩

def named : List (String × Marks) :=
  [("IN_POINT", entry), ("OUT_POINT", exit), ("END_POINT", stop), ("READ_POINT", read)]

def union (a b : Marks) : Marks := ⟨a.bits ||| b.bits⟩

@[simp] theorem union_self (a : Marks) : a.union a = a := by simp [union]

theorem union_comm (a b : Marks) : a.union b = b.union a := by simp [union, UInt8.or_comm]

theorem union_assoc (a b c : Marks) : (a.union b).union c = a.union (b.union c) := by
  simp [union, UInt8.or_assoc]

end Marks

structure Cell where
  flag : Flag := .unreached
  context : Context := {}
  marks : Marks := {}
  deriving DecidableEq

end Disassembly

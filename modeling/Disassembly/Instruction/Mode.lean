/-!
Addressing modes of the 65816: what stands behind an opcode byte, how long the instruction is
and how its operand is written.
-/
namespace Disassembly

/--
The operand shapes. `immediateX` and `immediateM` occur in the instruction set only: the width of
the index registers or of the accumulator turns them into `immediate8` or `immediate16`.
-/
inductive Mode where
  | implied
  | accumulator
  | constant8
  | immediate8
  | immediate16
  | immediateX
  | immediateM
  | direct
  | directX
  | directY
  | stackRelative
  | directIndirect
  | directXIndirect
  | directIndirectY
  | stackRelativeIndirectY
  | directLongIndirect
  | directLongIndirectY
  | absolute
  | absoluteX
  | absoluteY
  | absoluteIndirect
  | absoluteXIndirect
  | absoluteLongIndirect
  | long
  | longX
  | blockMove
  | relative8
  | relative16
  deriving DecidableEq

namespace Mode

def all : List Mode :=
  [implied, accumulator, constant8, immediate8, immediate16, immediateX, immediateM, direct,
    directX, directY, stackRelative, directIndirect, directXIndirect, directIndirectY,
    stackRelativeIndirectY, directLongIndirect, directLongIndirectY, absolute, absoluteX,
    absoluteY, absoluteIndirect, absoluteXIndirect, absoluteLongIndirect, long, longX,
    blockMove, relative8, relative16]

def identifier : Mode → String
  | implied => "IMPLIED"
  | accumulator => "ACCUMULATOR"
  | constant8 => "CONSTANT_8"
  | immediate8 => "IMMEDIATE_8"
  | immediate16 => "IMMEDIATE_16"
  | immediateX => "IMMEDIATE_X"
  | immediateM => "IMMEDIATE_M"
  | direct => "DIRECT"
  | directX => "DIRECT_X"
  | directY => "DIRECT_Y"
  | stackRelative => "STACK_RELATIVE"
  | directIndirect => "DIRECT_INDIRECT"
  | directXIndirect => "DIRECT_X_INDIRECT"
  | directIndirectY => "DIRECT_INDIRECT_Y"
  | stackRelativeIndirectY => "STACK_RELATIVE_INDIRECT_Y"
  | directLongIndirect => "DIRECT_LONG_INDIRECT"
  | directLongIndirectY => "DIRECT_LONG_INDIRECT_Y"
  | absolute => "ABSOLUTE"
  | absoluteX => "ABSOLUTE_X"
  | absoluteY => "ABSOLUTE_Y"
  | absoluteIndirect => "ABSOLUTE_INDIRECT"
  | absoluteXIndirect => "ABSOLUTE_X_INDIRECT"
  | absoluteLongIndirect => "ABSOLUTE_LONG_INDIRECT"
  | long => "LONG"
  | longX => "LONG_X"
  | blockMove => "BLOCK_MOVE"
  | relative8 => "RELATIVE_8"
  | relative16 => "RELATIVE_16"

/-- The number by which a mode is exchanged, counted from one. -/
def code (mode : Mode) : Nat := all.idxOf mode + 1

/-- The mode in force once the widths are known: `x` and `m` say that eight bits are used. -/
def resolve (x m : Bool) : Mode → Mode
  | immediateM => if m then immediate8 else immediate16
  | immediateX => if x then immediate8 else immediate16
  | mode => mode

/-- Length of an instruction with its opcode byte. -/
def length : Mode → Nat
  | implied | accumulator | immediateX | immediateM => 1
  | constant8 | immediate8 | direct | directX | directY | stackRelative | directIndirect
  | directXIndirect | directIndirectY | stackRelativeIndirectY | directLongIndirect
  | directLongIndirectY | relative8 => 2
  | immediate16 | absolute | absoluteX | absoluteY | absoluteIndirect | absoluteXIndirect
  | absoluteLongIndirect | blockMove | relative16 => 3
  | long | longX => 4

/-- Widths decide the length of an immediate operand that depends on them, and of no other. -/
theorem length_resolve (x m : Bool) (mode : Mode) : (mode.resolve x m).length =
    match mode with
    | immediateX => if x then 2 else 3
    | immediateM => if m then 2 else 3
    | mode => mode.length := by
  cases mode <;> cases x <;> cases m <;> rfl

/-- The operand's width in bytes, as the size hint and the literal show it. -/
def shownBytes : Mode → Nat
  | implied | accumulator | immediateX | immediateM | blockMove => 0
  | constant8 | immediate8 | direct | directX | directY | stackRelative | directIndirect
  | directXIndirect | directIndirectY | stackRelativeIndirectY | directLongIndirect
  | directLongIndirectY | relative8 => 1
  | immediate16 | absolute | absoluteX | absoluteY | absoluteIndirect | absoluteXIndirect
  | absoluteLongIndirect | relative16 => 2
  | long | longX => 3

def isDirectPage : Mode → Bool
  | direct | directX | directY | directIndirect | directXIndirect | directIndirectY
  | directLongIndirect | directLongIndirectY => true
  | _ => false

def isStackRelative : Mode → Bool
  | stackRelative | stackRelativeIndirectY => true
  | _ => false

def isAbsolute : Mode → Bool
  | absolute | absoluteX | absoluteY | absoluteXIndirect => true
  | _ => false

def isPointer : Mode → Bool
  | absoluteIndirect | absoluteLongIndirect => true
  | _ => false

def isLong : Mode → Bool
  | long | longX => true
  | _ => false

def isRelative : Mode → Bool
  | relative8 | relative16 => true
  | _ => false

end Mode

/-- A part of an instruction's written form. -/
inductive TemplatePart where
  | mnemonic
  | first
  | second
  | text (s : String)
  deriving DecidableEq

abbrev Template := List TemplatePart

namespace Template

/-- A mnemonic and one operand between two texts. -/
def around (before after : String) : Template := [.mnemonic, .text before, .first, .text after]

/-- The template with numbered slots in braces for what is filled in. -/
def source (t : Template) : String :=
  String.join (t.map fun
    | .mnemonic => "\x7b0\x7d"
    | .first => "\x7b1\x7d"
    | .second => "\x7b2\x7d"
    | .text s => s)

def fill (t : Template) (mnemonic first second : String) : String :=
  String.join (t.map fun
    | .mnemonic => mnemonic
    | .first => first
    | .second => second
    | .text s => s)

end Template

def Mode.template : Mode → Template
  | .implied => [.mnemonic]
  | .accumulator => [.mnemonic, .text " A"]
  | .constant8 | .immediate8 | .immediate16 => .around " #" ""
  | .direct | .absolute | .long | .relative8 | .relative16 => .around " " ""
  | .directX | .absoluteX | .longX => .around " " ",X"
  | .directY | .absoluteY => .around " " ",Y"
  | .stackRelative => .around " " ",S"
  | .directIndirect | .absoluteIndirect => .around " (" ")"
  | .directXIndirect | .absoluteXIndirect => .around " (" ",X)"
  | .directIndirectY => .around " (" "),Y"
  | .stackRelativeIndirectY => .around " (" ",S),Y"
  | .directLongIndirect | .absoluteLongIndirect => .around " [" "]"
  | .directLongIndirectY => .around " [" "],Y"
  | .blockMove => [.mnemonic, .text " ", .first, .text ",", .second]
  | .immediateX | .immediateM => []

end Disassembly

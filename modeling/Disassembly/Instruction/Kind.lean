/-! Opcodes grouped by what they do to the flow of control and to the addressed memory. -/
namespace Disassembly.Opcode

def rep : UInt8 := 0xC2
def sep : UInt8 := 0xE2
def php : UInt8 := 0x08
def plp : UInt8 := 0x28
def jsr : UInt8 := 0x20
def jsl : UInt8 := 0x22
def rts : UInt8 := 0x60
def rtl : UInt8 := 0x6B

/-- JMP, JML, BRA and BRL with a target in the operand. -/
def jumps : List UInt8 := [0x4C, 0x5C, 0x80, 0x82]

/-- BPL, BMI, BVC, BVS, BCC, BCS, BNE, BEQ. -/
def branches : List UInt8 := [0x10, 0x30, 0x50, 0x70, 0x90, 0xB0, 0xD0, 0xF0]

def calls : List UInt8 := [jsr, jsl]

def returns : List UInt8 := [rts, rtl]

/-- Absolute operands that stay in the bank of the instruction: JSR, JMP and their indexed forms. -/
def inProgramBank : List UInt8 := [0x20, 0x4C, 0x7C, 0xFC]

/-- Nothing is executed behind these: RTI, RTS, RTL, STP and every jump. -/
def ends : List UInt8 :=
  [0x40, 0x4C, 0x5C, 0x60, 0x6B, 0x6C, 0x7C, 0x80, 0x82, 0xDB, 0xDC]

/-- Control may pass to the operand's target. -/
def flows : List UInt8 := jumps ++ branches ++ calls

/-- Opcodes that look like reads by their bits and are none. -/
def notReading : List UInt8 := [0x45, 0x55, 0xF5, 0x4C, 0x5C, 0x6C, 0x7C, 0xDC, 0xFC]

/-- RTI, WAI, STP, SED, XCE, BRK, COP, WDM and the indirect jumps: a walk ends here. -/
def stops : List UInt8 :=
  [0x40, 0xCB, 0xDB, 0xF8, 0xFB, 0x00, 0x02, 0x42, 0x6C, 0x7C, 0xDC, 0xFC]

/-- Whether an opcode reads or changes the memory that it addresses. -/
def isReading (op : UInt8) : Bool :=
  !notReading.contains op &&
    (op &&& 0x04 != 0 || op &&& 0x0F == 0x01 || op &&& 0x0F == 0x03 ||
      op &&& 0x1F == 0x12 || op &&& 0x1F == 0x19)

/-- Whether decoding goes on at the target: always for jumps, on demand for branches and calls. -/
def followsTarget (op : UInt8) (branch force : Bool) : Bool :=
  !force && (jumps.contains op || (branch && (branches.contains op || calls.contains op)))

end Disassembly.Opcode

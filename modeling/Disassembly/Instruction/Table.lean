import Disassembly.Instruction.Mode

/-! The instruction set: mnemonic and addressing mode of each of the 256 opcodes. -/
namespace Disassembly

/-- Row `n` describes opcode `n`. -/
def instructionRows : Array (String × Mode) :=
  #[
    ("BRK", .constant8), ("ORA", .directXIndirect), ("COP", .constant8), ("ORA", .stackRelative),
    ("TSB", .direct), ("ORA", .direct), ("ASL", .direct), ("ORA", .directLongIndirect),
    ("PHP", .implied), ("ORA", .immediateM), ("ASL", .accumulator), ("PHD", .implied),
    ("TSB", .absolute), ("ORA", .absolute), ("ASL", .absolute), ("ORA", .long),
    ("BPL", .relative8), ("ORA", .directIndirectY), ("ORA", .directIndirect),
    ("ORA", .stackRelativeIndirectY), ("TRB", .direct), ("ORA", .directX), ("ASL", .directX),
    ("ORA", .directLongIndirectY), ("CLC", .implied), ("ORA", .absoluteY), ("INC", .accumulator),
    ("TCS", .implied), ("TRB", .absolute), ("ORA", .absoluteX), ("ASL", .absoluteX),
    ("ORA", .longX), ("JSR", .absolute), ("AND", .directXIndirect), ("JSL", .long),
    ("AND", .stackRelative), ("BIT", .direct), ("AND", .direct), ("ROL", .direct),
    ("AND", .directLongIndirect), ("PLP", .implied), ("AND", .immediateM), ("ROL", .accumulator),
    ("PLD", .implied), ("BIT", .absolute), ("AND", .absolute), ("ROL", .absolute), ("AND", .long),
    ("BMI", .relative8), ("AND", .directIndirectY), ("AND", .directIndirect),
    ("AND", .stackRelativeIndirectY), ("BIT", .directX), ("AND", .directX), ("ROL", .directX),
    ("AND", .directLongIndirectY), ("SEC", .implied), ("AND", .absoluteY), ("DEC", .accumulator),
    ("TSC", .implied), ("BIT", .absoluteX), ("AND", .absoluteX), ("ROL", .absoluteX),
    ("AND", .longX), ("RTI", .implied), ("EOR", .directXIndirect), ("WDM", .constant8),
    ("EOR", .stackRelative), ("MVP", .blockMove), ("EOR", .direct), ("LSR", .direct),
    ("EOR", .directLongIndirect), ("PHA", .implied), ("EOR", .immediateM), ("LSR", .accumulator),
    ("PHK", .implied), ("JMP", .absolute), ("EOR", .absolute), ("LSR", .absolute), ("EOR", .long),
    ("BVC", .relative8), ("EOR", .directIndirectY), ("EOR", .directIndirect),
    ("EOR", .stackRelativeIndirectY), ("MVN", .blockMove), ("EOR", .directX), ("LSR", .directX),
    ("EOR", .directLongIndirectY), ("CLI", .implied), ("EOR", .absoluteY), ("PHY", .implied),
    ("TCD", .implied), ("JML", .long), ("EOR", .absoluteX), ("LSR", .absoluteX), ("EOR", .longX),
    ("RTS", .implied), ("ADC", .directXIndirect), ("PER", .relative16), ("ADC", .stackRelative),
    ("STZ", .direct), ("ADC", .direct), ("ROR", .direct), ("ADC", .directLongIndirect),
    ("PLA", .implied), ("ADC", .immediateM), ("ROR", .accumulator), ("RTL", .implied),
    ("JMP", .absoluteIndirect), ("ADC", .absolute), ("ROR", .absolute), ("ADC", .long),
    ("BVS", .relative8), ("ADC", .directIndirectY), ("ADC", .directIndirect),
    ("ADC", .stackRelativeIndirectY), ("STZ", .directX), ("ADC", .directX), ("ROR", .directX),
    ("ADC", .directLongIndirectY), ("SEI", .implied), ("ADC", .absoluteY), ("PLY", .implied),
    ("TDC", .implied), ("JMP", .absoluteXIndirect), ("ADC", .absoluteX), ("ROR", .absoluteX),
    ("ADC", .longX), ("BRA", .relative8), ("STA", .directXIndirect), ("BRL", .relative16),
    ("STA", .stackRelative), ("STY", .direct), ("STA", .direct), ("STX", .direct),
    ("STA", .directLongIndirect), ("DEY", .implied), ("BIT", .immediateM), ("TXA", .implied),
    ("PHB", .implied), ("STY", .absolute), ("STA", .absolute), ("STX", .absolute), ("STA", .long),
    ("BCC", .relative8), ("STA", .directIndirectY), ("STA", .directIndirect),
    ("STA", .stackRelativeIndirectY), ("STY", .directX), ("STA", .directX), ("STX", .directY),
    ("STA", .directLongIndirectY), ("TYA", .implied), ("STA", .absoluteY), ("TXS", .implied),
    ("TXY", .implied), ("STZ", .absolute), ("STA", .absoluteX), ("STZ", .absoluteX),
    ("STA", .longX), ("LDY", .immediateX), ("LDA", .directXIndirect), ("LDX", .immediateX),
    ("LDA", .stackRelative), ("LDY", .direct), ("LDA", .direct), ("LDX", .direct),
    ("LDA", .directLongIndirect), ("TAY", .implied), ("LDA", .immediateM), ("TAX", .implied),
    ("PLB", .implied), ("LDY", .absolute), ("LDA", .absolute), ("LDX", .absolute), ("LDA", .long),
    ("BCS", .relative8), ("LDA", .directIndirectY), ("LDA", .directIndirect),
    ("LDA", .stackRelativeIndirectY), ("LDY", .directX), ("LDA", .directX), ("LDX", .directY),
    ("LDA", .directLongIndirectY), ("CLV", .implied), ("LDA", .absoluteY), ("TSX", .implied),
    ("TYX", .implied), ("LDY", .absoluteX), ("LDA", .absoluteX), ("LDX", .absoluteY),
    ("LDA", .longX), ("CPY", .immediateX), ("CMP", .directXIndirect), ("REP", .constant8),
    ("CMP", .stackRelative), ("CPY", .direct), ("CMP", .direct), ("DEC", .direct),
    ("CMP", .directLongIndirect), ("INY", .implied), ("CMP", .immediateM), ("DEX", .implied),
    ("WAI", .implied), ("CPY", .absolute), ("CMP", .absolute), ("DEC", .absolute), ("CMP", .long),
    ("BNE", .relative8), ("CMP", .directIndirectY), ("CMP", .directIndirect),
    ("CMP", .stackRelativeIndirectY), ("PEI", .directIndirect), ("CMP", .directX),
    ("DEC", .directX), ("CMP", .directLongIndirectY), ("CLD", .implied), ("CMP", .absoluteY),
    ("PHX", .implied), ("STP", .implied), ("JML", .absoluteLongIndirect), ("CMP", .absoluteX),
    ("DEC", .absoluteX), ("CMP", .longX), ("CPX", .immediateX), ("SBC", .directXIndirect),
    ("SEP", .constant8), ("SBC", .stackRelative), ("CPX", .direct), ("SBC", .direct),
    ("INC", .direct), ("SBC", .directLongIndirect), ("INX", .implied), ("SBC", .immediateM),
    ("NOP", .implied), ("XBA", .implied), ("CPX", .absolute), ("SBC", .absolute),
    ("INC", .absolute), ("SBC", .long), ("BEQ", .relative8), ("SBC", .directIndirectY),
    ("SBC", .directIndirect), ("SBC", .stackRelativeIndirectY), ("PEA", .absolute),
    ("SBC", .directX), ("INC", .directX), ("SBC", .directLongIndirectY), ("SED", .implied),
    ("SBC", .absoluteY), ("PLX", .implied), ("XCE", .implied), ("JSR", .absoluteXIndirect),
    ("SBC", .absoluteX), ("INC", .absoluteX), ("SBC", .longX)]

namespace Opcode

def row (op : UInt8) : String × Mode := instructionRows.getD op.toNat ("", .implied)

def mnemonic (op : UInt8) : String := (row op).1

/-- The mode before the widths are known. -/
def mode (op : UInt8) : Mode := (row op).2

end Opcode

end Disassembly

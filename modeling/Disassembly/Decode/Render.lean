import Disassembly.Decode.Operand

/-! Instructions as assembly text. -/
namespace Disassembly.Store

/-- The mnemonic; with `hint` the operand's width follows, unless the mode implies it. -/
def mnemonicAt (s : Store) (offset : Int) (hint : Bool) : Except Fault String := do
  let mnemonic := Opcode.mnemonic (← s.byteAt offset)
  if !hint then return mnemonic
  let mode ← s.modeAt offset
  if mode = .constant8 ∨ mode.isRelative then return mnemonic
  return mnemonic ++
    match mode.shownBytes with
    | 1 => ".B"
    | 2 => ".W"
    | 3 => ".L"
    | _ => ""

/-- An operand that is an address: its label, else the operand bytes as a literal. -/
def addressText (s : Store) (offset : Int) (mode : Mode) : Except Fault String := do
  match ← s.operandAddress offset true with
  | none => return ""
  | some address =>
    if address < 0 then return ""
    let label := s.labels.text address
    if label ≠ "" then return label
    let value : Int ←
      if mode = .relative8 then (fun b => (b.toNat : Int)) <$> s.byteAt (offset + 1)
      else if mode = .relative16 then (fun w => (w : Int)) <$> s.wordAt (offset + 1)
      else (·.getD (-1)) <$> s.operandAddress offset false
    return Text.dollarHex (2 * mode.shownBytes) (value % Nat.pow 0x100 mode.shownBytes)

/-- The first operand as text. -/
def firstOperand (s : Store) (offset : Int) (mode : Mode) : Except Fault String :=
  match mode with
  | .blockMove | .constant8 | .immediate8 =>
    return Text.dollarHex 2 (← s.byteAt (offset + 1)).toNat
  | .immediate16 => return Text.dollarHex 4 (← s.wordAt (offset + 1) : Nat)
  | _ => s.addressText offset mode

/-- The second operand, which only block moves have. -/
def secondOperand (s : Store) (offset : Int) (mode : Mode) : Except Fault String :=
  match mode with
  | .blockMove => return Text.dollarHex 2 (← s.byteAt (offset + 2)).toNat
  | _ => return ""

/-- The instruction at an offset; of a truncated one only the mnemonic is shown. -/
def instructionAt (s : Store) (offset : Int) : Except Fault String := do
  let mode ← s.modeAt offset
  let mnemonic ← s.mnemonicAt offset true
  if ← s.truncatedAt offset then return mnemonic
  return mode.template.fill mnemonic (← s.firstOperand offset mode) (← s.secondOperand offset mode)

end Disassembly.Store

import Disassembly.Decode.Step

/-! An instruction that an analysis visited, and the reasons for which a walk ends. -/
namespace Disassembly

/--
A visited instruction: its recorded context, the offset behind it or of its jump target, and the
decodings that the visit took.
-/
structure Visit where
  offset : Int
  opcode : UInt8
  context : Context
  next : Int
  decodings : List Decoded
  deriving DecidableEq

inductive StopReason where
  | alreadyVisited
  | unmatchedRestore
  | unmatchedReturn
  | stopOpcode (op : UInt8)
  | leftImage
  | reachedData
  deriving DecidableEq

def StopReason.message : StopReason → String
  | alreadyVisited => "branch already visited"
  | unmatchedRestore => "PLP without matching PHP"
  | unmatchedReturn => "return with empty call stack"
  | stopOpcode op => "stop opcode " ++ Opcode.mnemonic op
  | leftImage => "left the ROM image"
  | reachedData => "reached data"

/-- Why a walk ended, and the offset that it reports. -/
structure Stop where
  reason : StopReason
  offset : Int
  deriving DecidableEq

end Disassembly

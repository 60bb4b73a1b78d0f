import Disassembly.Analysis.Vectors
import Disassembly.Analysis.Visit
import Disassembly.Image
import Disassembly.Project.Channel
import Disassembly.Text.Quoted

/-! What an analysis reports while it runs, and the wording of each report. -/
namespace Disassembly

inductive Event where
  | decoded (d : Decoded)
  | flow (f : Flow)
  | stopped (stop : Stop)
  | repaired (count : Nat)
  | vectorOutside (name : String) (target : Int)
  | loaded (image : Image)

namespace Event

def channel : Event → String
  | decoded _ => "step"
  | flow _ => "flow"
  | stopped _ | repaired _ | vectorOutside _ _ => "auto"
  | loaded _ => "loader"

def bit (b : Bool) : String := if b then "1" else "0"

def message : Event → String
  | decoded d =>
    "pc=" ++ Text.lowerHex 6 d.offset ++ " op=" ++ Text.lowerHex 2 d.opcode.toNat ++ " " ++
      Opcode.mnemonic d.opcode ++ " D=" ++ Text.lowerHex 4 d.context.directPage ++
      " B=" ++ Text.lowerHex 2 d.context.dataBank ++ " m=" ++ bit d.context.mFlag ++
      " x=" ++ bit d.context.xFlag ++ " next=" ++ Text.lowerHex 6 d.next
  | flow f =>
    Opcode.mnemonic f.opcode ++ " " ++ Text.lowerHex 6 f.offset ++ " -> " ++
      Text.lowerHex 6 f.target
  | stopped stop => "stopped at " ++ Text.lowerHex 6 stop.offset ++ ": " ++ stop.reason.message
  | repaired count => "fixed " ++ toString count ++ " misaligned offsets"
  | vectorOutside name target =>
    name ++ " -> " ++ Text.lowerHex 6 target ++ " is outside the ROM"
  | loaded image =>
    "title=" ++ Text.quoted image.title ++ " map=" ++ image.layout.title ++
      " speed=" ++ image.speed.title ++ " header=" ++
      Text.lowerHex 6 (match image.header with
        | some offset => offset
        | none => 0xFFFFFF) ++
      " copier=" ++ (if image.copierHeader then "True" else "False")

def line? (channels : Channels) (e : Event) : Option String :=
  channels.line? e.channel fun _ => e.message

end Event

/-- A decoding reports the flow that it marked, then itself. -/
def Decoded.events (d : Decoded) : List Event := d.flow.toList.map Event.flow ++ [.decoded d]

def Visit.events (v : Visit) : List Event := v.decodings.flatMap Decoded.events

def VectorReading.events : VectorReading → List Event
  | inside _ => []
  | outside name target => [.vectorOutside name target]

end Disassembly

import Disassembly.Decode.Render
import Disassembly.Store.Survey

/-! Listing lines: address, bytes, instruction and comment, with a label on a line of its own. -/
namespace Disassembly

/-- The text of an address that may be missing. -/
def Notes.textAt (notes : Notes) : Option Int → String
  | some address => notes.text address
  | none => ""

namespace Store

/-- The bytes from `offset` on, as many as there are up to `length`. -/
def bytesFrom (s : Store) (offset : Int) (length : Nat) : List UInt8 :=
  (s.rom.extract offset.toNat (offset.toNat + length)).toList

def listingLine (s : Store) (offset : Int) : Except Fault String := do
  let length ← s.lengthAt offset
  let address := s.busAddress? offset
  let label := s.labels.textAt address
  let comment := s.comments.textAt address
  let instruction ← s.instructionAt offset
  return (if label = "" then "" else label ++ ":\n") ++
    Text.upperHex 6 (address.getD (-1) % 0x1000000) ++ "  " ++
    Text.byteColumn (s.bytesFrom offset length) ++ "  " ++ instruction ++
    (if comment = "" then "" else "  ; " ++ comment)

def listingLines (s : Store) (offsets : List Nat) : Except Fault (List String) :=
  offsets.mapM fun offset : Nat => s.listingLine offset

/-- The lines of all decoded instructions in a range. -/
def listing (s : Store) (start : Int) (behind : Option Int) : Except Fault (List String) :=
  s.listingLines (s.opcodeOffsets start behind)

end Store

end Disassembly

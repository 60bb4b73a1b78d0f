import Disassembly.Analysis.Visit

/-! Linear decoding of a region, one instruction behind the other. -/
namespace Disassembly

/-- The state of a sweep; the newest visit comes first. -/
structure Sweep where
  offset : Int
  prev : Int
  visits : List Visit := []

namespace Sweep

def advance (w : Sweep) : StoreM Sweep := do
  let decoded ← StoreM.decode w.offset false true w.prev
  let context ← StoreM.read (·.contextAt w.offset)
  return {
    offset := decoded.next
    prev := w.offset
    visits := ⟨w.offset, decoded.opcode, context, decoded.next, [decoded]⟩ :: w.visits }

/-- Advances until `behind` is reached, at most `n` times. -/
def run (behind : Int) : Nat → Sweep → StoreM Sweep
  | 0, w => pure w
  | n + 1, w => if w.offset < behind then do run behind n (← w.advance) else pure w

end Sweep

/-- Decodes from `start` until `behind` or the end of the image; the last one may go over. -/
def StoreM.sweep (start behind : Int) : StoreM Sweep := do
  let behind := min behind (← get).size
  Sweep.run behind (behind - start).toNat { offset := start, prev := start - 1 }

end Disassembly

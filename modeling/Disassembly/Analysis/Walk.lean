import Disassembly.Analysis.Visit
import Std.Data.TreeSet

/-!
Following the instruction stream. A walk takes jumps, descends into calls and comes back from
them, passes branches by, and ends at what it cannot follow.
-/
namespace Disassembly

/-- The state of a walk. Stacks and visits have their newest item first. -/
structure Walk where
  offset : Int
  prev : Int
  calls : List Int := []
  statuses : List Int := []
  seen : Std.TreeSet Int := {}
  visits : List Visit := []
  stop : Option Stop := none

namespace Walk

/-- A walk starts as if it came from the byte before. -/
def start (offset : Int) : Walk := { offset, prev := offset - 1 }

def halt (w : Walk) (reason : StopReason) (offset : Int) : Walk :=
  { w with stop := some ⟨reason, offset⟩ }

def goTo (w : Walk) (offset : Int) : Walk := { w with offset, prev := w.offset }

/-- Keeps a visit, and remembers the offset if the instruction is a jump or a branch. -/
def note (w : Walk) (v : Visit) : Walk :=
  { w with
    visits := v :: w.visits
    seen :=
      if Opcode.jumps.contains v.opcode || Opcode.branches.contains v.opcode then
        w.seen.insert v.offset
      else w.seen }

/-- PHP saves the register widths, PLP brings the last saved ones back into its own record. -/
def passStatus (w : Walk) (op : UInt8) (context : Context) : StoreM Walk :=
  if op = Opcode.php then pure { w with statuses := context.widths :: w.statuses }
  else if op = Opcode.plp then
    match w.statuses with
    | [] => pure (w.halt .unmatchedRestore w.offset)
    | bits :: rest => do
      StoreM.edit w.offset (·.setWidths bits)
      return { w with statuses := rest }
  else pure w

/-- Where control goes: back from a call, into one, or on. -/
def route (w : Walk) (op : UInt8) (next target : Int) : Walk :=
  if Opcode.returns.contains op then
    match w.calls with
    | [] => w.halt .unmatchedReturn w.offset
    | back :: rest => { w with calls := rest }.goTo back
  else if Opcode.calls.contains op then { w with calls := next :: w.calls }.goTo target
  else w.goTo next

/-- Ends the walk behind a stop opcode, outside the image and at data. -/
def inspect (w : Walk) (op : UInt8) (s : Store) : Walk :=
  if Opcode.stops.contains op then w.halt (.stopOpcode op) w.prev
  else if ¬ s.Contains w.offset then w.halt .leftImage w.prev
  else if (s.cell w.offset).flag.isCode then w
  else w.halt .reachedData w.offset

/-- Visits one instruction. It is decoded with branches passed by, then with branches taken. -/
def advance (w : Walk) : StoreM Walk := do
  let passed ← StoreM.decode w.offset false false w.prev
  let taken ← StoreM.decode w.offset true false w.prev
  let context ← StoreM.read (·.contextAt w.offset)
  let op := passed.opcode
  let w ← (w.note ⟨w.offset, op, context, passed.next, [passed, taken]⟩).passStatus op context
  if w.stop.isSome then return w
  let w := w.route op passed.next taken.next
  if w.stop.isSome then return w
  return w.inspect op (← get)

/-- Advances at most `n` times, and not into a jump or branch that was visited before. -/
def run : Nat → Walk → StoreM Walk
  | 0, w => pure w
  | n + 1, w =>
    if w.seen.contains w.offset then pure (w.halt .alreadyVisited w.offset)
    else do
      let w ← w.advance
      if w.stop.isSome then return w else run n w

end Walk

/-- The walk from `offset` of at most `limit` instructions. -/
def StoreM.walk (offset limit : Int) : StoreM Walk := Walk.run limit.toNat (Walk.start offset)

end Disassembly

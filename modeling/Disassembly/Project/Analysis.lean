import Disassembly.Analysis.Repair
import Disassembly.Analysis.Sweep
import Disassembly.Analysis.Vectors
import Disassembly.Analysis.Walk
import Disassembly.Project.Basic

/-! The analyses of a project: each acts on the store and leaves its reports and trace entries. -/
namespace Disassembly.ProjectM

/-- Decodes one instruction and returns where decoding goes on. -/
def step (offset : Int) (branch force : Bool) (prev : Int) : ProjectM Int := do
  let decoded ← onStore (StoreM.decode offset branch force prev)
  report decoded.events
  return decoded.next

def markFlow (offset : Int) : ProjectM Unit := do
  let flow ← onStore (StoreM.markFlow offset)
  report (flow.toList.map Event.flow)

/-- Decodes a region instruction by instruction and returns the offset behind the last one. -/
def sweep (start behind : Int) : ProjectM Int := do
  let w ← onStore (StoreM.sweep start behind)
  follow w.visits.reverse
  return w.offset

/-- Follows the code from `offset` and returns the offset where the walk ended. -/
def walk (offset limit : Int) : ProjectM Int := do
  let w ← onStore (StoreM.walk offset limit)
  follow w.visits.reverse
  report (w.stop.toList.map Event.stopped)
  return w.offset

/-- How many instructions a walk visits unless told otherwise. -/
def defaultLimit : Int := 0x10000

/-- How many bytes a linear analysis covers unless told otherwise. -/
def defaultAmount : Int := 0x200

/-- Follows the code from `offset`, or with `linear` decodes the next `amount` bytes. -/
def analyze (offset : Int) (linear : Bool) (amount limit : Int) : ProjectM Int :=
  if linear then sweep offset (offset + amount) else walk offset limit

def rescan : ProjectM Nat := do
  let result ← onStore StoreM.rescan
  report (result.flows.reverse.map Event.flow)
  return result.count

def repair : ProjectM Nat := do
  let count ← onStore StoreM.repair
  report [.repaired count]
  return count

def reportReadings (readings : List VectorReading) : ProjectM (List VectorEntry) := do
  report (readings.flatMap VectorReading.events)
  return readings.filterMap VectorReading.entry?

def readVectors : ProjectM (List VectorEntry) := do
  reportReadings (← onStore (StoreM.read (·.readVectors)))

def seedVectors (label : Bool) : ProjectM (List VectorEntry) := do
  reportReadings (← onStore (StoreM.seedVectors label))

def walkAll (limit : Int) : List VectorEntry → ProjectM Unit
  | [] => pure ()
  | entry :: rest => do
    discard (walk entry.offset limit)
    walkAll limit rest

/-- Seeds the vectors and walks the code from each of them. -/
def analyzeVectors (limit : Int) : ProjectM (List VectorEntry) := do
  let entries ← seedVectors true
  walkAll limit entries
  return entries

end Disassembly.ProjectM

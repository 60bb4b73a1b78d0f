import Disassembly.Project.Event
import Disassembly.Store.Basic
import Disassembly.Trace

/-!
A project: a store under analysis, with a title, an optional recorder, and the diagnostic lines
written so far. Analyses act on the store alone; recorder and log are filled from their results.
-/
namespace Disassembly

structure Project where
  store : Store
  title : String := ""
  recorder : Option Recorder := none
  channels : Channels := {}
  log : Array String := #[]

/-- Choices made when a project is set up; what is left open is taken from the image or is usual. -/
structure Settings where
  layout : Option Layout := none
  speed : Option Speed := none
  traceCapacity : Int := 0

/-- The capacity of the recorder that the channel `trace` asks for. -/
def traceChannelCapacity : Nat := 512

namespace Project

/-- A recorder if a capacity is given or the channel `trace` is enabled. -/
def recorderFor (settings : Settings) (channels : Channels) : Option Recorder :=
  if 0 < settings.traceCapacity then some { capacity := settings.traceCapacity.toNat }
  else if channels.enabled (some "trace") then some { capacity := traceChannelCapacity }
  else none

def create (rom : Array UInt8) (settings : Settings) (channels : Channels) :
    Except Fault Project := do
  let store ← Store.create rom (settings.layout.getD .loRom) (settings.speed.getD .slow)
  return { store, channels, recorder := recorderFor settings channels }

/-- A project on a loaded image. An unknown speed counts as slow. -/
def ofImage (image : Image) (settings : Settings) (channels : Channels) :
    Except Fault Project := do
  let speed := match settings.speed.getD image.speed with
    | .unknown => .slow
    | speed => speed
  let store ← Store.create image.data (settings.layout.getD image.layout) speed
  return {
    store, channels
    title := image.title
    recorder := recorderFor settings channels
    log := ((Event.loaded image).line? channels).toArray }

def report (p : Project) (events : List Event) : Project :=
  { p with log := p.log ++ (events.filterMap (Event.line? p.channels)).toArray }

/-- The trace entry of a visited instruction. -/
def entryOf (s : Store) (v : Visit) : TraceEntry :=
  { offset := v.offset
    address := (s.busAddress? v.offset).getD (-1)
    opcode := some v.opcode.toNat
    mnemonic := Opcode.mnemonic v.opcode
    context := v.context
    next := v.next }

/-- Records visits in the order in which they took place. -/
def recordVisits (p : Project) (visits : List Visit) : Project :=
  match p.recorder with
  | none => p
  | some r =>
    { p with recorder := some (visits.foldl (fun r v => r.record (entryOf p.store v)) r) }

/-- The diagnostic lines as one text. -/
def logText (p : Project) : String := String.join p.log.toList

/-- Reports and records visits. -/
def follow (p : Project) (visits : List Visit) : Project :=
  (p.report (visits.flatMap Visit.events)).recordVisits visits

end Project

/-- The last trace entries as lines on a channel, if it is enabled. -/
def Recorder.dump (r : Recorder) (channels : Channels) (name : String) (limit : Option Int) :
    List String :=
  (r.lines limit).filterMap fun line => channels.line? name fun _ => line

/-- Operations on a project that may fail; changes made before a failure stay. -/
abbrev ProjectM := EStateM Fault Project

namespace ProjectM

/-- Runs an operation on the store of a project. -/
def onStore {α : Type} (act : StoreM α) : ProjectM α := fun
  | ⟨store, title, recorder, channels, log⟩ =>
    match act store with
    | .ok a store => .ok a ⟨store, title, recorder, channels, log⟩
    | .error e store => .error e ⟨store, title, recorder, channels, log⟩

def report (events : List Event) : ProjectM Unit := modify (·.report events)

def follow (visits : List Visit) : ProjectM Unit := modify (·.follow visits)

end ProjectM

end Disassembly

import Disassembly.CommandLine.Options
import Disassembly.Project.Analysis
import Disassembly.Project.Listing

/-! A run of the disassembler: what it prints, and the exit code. -/
namespace Disassembly.CommandLine

structure Outcome where
  exit : UInt32 := 0
  out : String := ""
  err : String := ""

def programName : String := "run.py"

def usage : String :=
  "usage: " ++ programName ++
    " [-h] [--map-mode MAP_MODE] [--offset OFFSET] [--harsh COUNT]\n" ++
    "              [--lines LINES]\n" ++
    "              rom\n"

def helpText : String :=
  usage ++
    "\nStatic 65816 (SNES) disassembler\n" ++
    "\npositional arguments:\n" ++
    "  rom                  Path to the SNES ROM image\n" ++
    "\noptions:\n" ++
    "  -h, --help           show this help message and exit\n" ++
    "  --map-mode MAP_MODE  Override the detected map mode (LoROM, HiROM, ExHiROM,\n" ++
    "                       ExLoROM, SuperFX, SA-1, ...)\n" ++
    "  --offset OFFSET      Start analysis at this file offset instead of the\n" ++
    "                       interrupt vectors\n" ++
    "  --harsh COUNT        Decode COUNT bytes linearly from --offset, ignoring\n" ++
    "                       control flow\n" ++
    "  --lines LINES        Maximum number of listing lines to print (default: all)\n"

/-- Why a run ends without an outcome. -/
inductive Breakdown where
  | longPath (path : String)
  | emptyLayout
  | emptyOffset
  | emptyAmount
  | analysis (fault : Fault)
  deriving DecidableEq

def Breakdown.message : Breakdown → String
  | longPath path => "[Errno 36] File name too long: " ++ Text.quoted path
  | emptyLayout => "'list' object has no attribute 'value'"
  | emptyOffset => "'<=' not supported between instances of 'int' and 'list'"
  | emptyAmount => "unsupported operand type(s) for +: 'int' and 'list'"
  | analysis fault => fault.message

namespace Outcome

/-- A wrong use: the usage and the message, and exit code 2. -/
def misuse (fault : UsageFault) (out : String) : Outcome :=
  { exit := 2, out, err := usage ++ programName ++ ": error: " ++ fault.message ++ "\n" }

/-- A file that cannot be analyzed: the message, and exit code 1. -/
def failure (message out : String) : Outcome :=
  { exit := 1, out, err := programName ++ ": " ++ message ++ "\n" }

end Outcome

/-- The offsets to list: all of them for a limit of zero, else at most as many as the limit says. -/
def listed (limit : Int) (offsets : List Nat) : List Nat :=
  if limit = 0 then offsets else offsets.take limit.toNat

/-- How many trace entries are shown at the end of a run. -/
def shownEntries : Int := 32

def traceLines (p : Project) : List String :=
  match p.recorder with
  | none => []
  | some r => r.dump p.channels "trace" (some shownEntries)

/-- The analysis from an offset, or from the vectors if there is none. -/
def analysis (offset harsh : Option Int) : ProjectM Unit :=
  match offset, harsh with
  | none, _ => discard (ProjectM.analyzeVectors ProjectM.defaultLimit)
  | some offset, some amount =>
    discard (ProjectM.analyze offset true amount ProjectM.defaultLimit)
  | some offset, none =>
    discard (ProjectM.analyze offset false ProjectM.defaultAmount ProjectM.defaultLimit)

/-- The heading, the listing and the trace of an analyzed project. -/
def report (limit : Int) (p : Project) : Except Fault String := do
  let title := if p.title = "" then "(untitled)" else p.title
  let lines ← p.store.listingLines (listed limit (p.store.opcodeOffsets 0 none))
  return "; " ++ title ++ " [" ++ p.store.layout.title ++ "]\n" ++
    String.join (lines.map (· ++ "\n")) ++ String.join (traceLines p)

/-- The value of an option that an analysis needs. -/
def required {α : Type} (breakdown : Breakdown) : Option (Given α) → Except Breakdown (Option α)
  | none => .ok none
  | some .empty => .error breakdown
  | some (.value a) => .ok (some a)

def disassemble (o : Options) (p : Project) : Except Breakdown Outcome := do
  let offset ← required .emptyOffset o.offset
  match offset.filter fun offset => ¬ p.store.Contains offset with
  | some offset => return .misuse (.offsetOutside offset p.store.size) p.logText
  | none =>
    let harsh ← required .emptyAmount o.harsh
    let _ ← required .emptyLayout o.layout
    match analysis offset harsh p with
    | .error e _ => .error (.analysis e)
    | .ok _ p =>
      match report o.lines p with
      | .error e => .error (.analysis e)
      | .ok text => return { out := p.logText ++ text }

/-- The longest name and the longest path of a file, in bytes. -/
def nameLimit : Nat := 255

def pathLimit : Nat := 4095

/-- Only the first name that is looked up matters: what lies behind it does not exist. -/
def isLongPath (path : String) : Bool :=
  let names := (path.splitOn "/").filter fun name => name ≠ "" && name ≠ ".."
  pathLimit < path.utf8ByteSize || names.head?.any fun name => nameLimit < name.utf8ByteSize

/-- The layout that was asked for, if one was given. -/
def Options.layout? (o : Options) : Option Layout :=
  match o.layout with
  | some (.value layout) => some layout
  | _ => none

/-- A run with the given options; `file` holds the bytes at the path, if there are any. -/
def run (o : Options) (file : Option (Array UInt8)) (channels : Channels) :
    Except Breakdown Outcome :=
  if isLongPath o.rom then .error (.longPath o.rom)
  else
    match file with
    | none => .ok (.misuse (.romNotFound o.rom) "")
    | some raw =>
      if o.harsh.isSome && o.offset.isNone then .ok (.misuse .offsetMissing "")
      else
        match Image.load raw o.layout? with
        | .error e => .ok (.failure e.message "")
        | .ok image =>
          if o.layout = some .empty && channels.enabled (some "loader") then
            .error .emptyLayout
          else
            match Project.ofImage image { layout := o.layout? } channels with
            | .error e => .error (.analysis e)
            | .ok p => disassemble o p

/-- The path of the file that a run needs. -/
def path? (args : List String) : Option String :=
  match parse args with
  | .ok (.run o) => some o.rom
  | _ => none

/-- The answer to a command line; `file` holds the bytes at its path, if there are any. -/
def respond (args : List String) (file : Option (Array UInt8)) (channels : Channels) :
    Except Breakdown Outcome :=
  match parse args with
  | .error fault => .ok (.misuse fault "")
  | .ok .help => .ok { out := helpText }
  | .ok (.run o) => run o file channels

end Disassembly.CommandLine

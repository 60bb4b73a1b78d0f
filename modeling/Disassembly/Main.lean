import Disassembly.CommandLine.Run

/-! The command line program: reads the file and the environment, prints the outcome. -/

/-- The bytes of the file at a path, if there is one. -/
def Disassembly.readFile? : Option String → IO (Option (Array UInt8))
  | none => return none
  | some path => do
    try
      return some (← IO.FS.readBinFile path).data
    catch _ => return none

def main (args : List String) : IO UInt32 := do
  let setting := (← IO.getEnv Disassembly.diagnosticVariable).getD ""
  let channels := Disassembly.Channels.ofSetting setting
  let file ← Disassembly.readFile? (Disassembly.CommandLine.path? args)
  match Disassembly.CommandLine.respond args file channels with
  | .ok outcome =>
    IO.print outcome.out
    IO.eprint outcome.err
    return outcome.exit
  | .error breakdown =>
    IO.eprintln breakdown.message
    return 1

import Disassembly.Text.Blank
import Disassembly.Text.Directive
import Disassembly.Text.Letter

/-! Diagnostic channels, chosen by a comma-separated list of names. -/
namespace Disassembly

/-- The tag at the start of every diagnostic line. -/
def diagnosticTag : String := "PYDIZ"

/-- The environment variable that lists the enabled channels. -/
def diagnosticVariable : String := diagnosticTag ++ "_DEBUG"

/-- The names of the enabled channels, each once. -/
structure Channels where
  names : List String := []

namespace Channels

def ofSetting (setting : String) : Channels :=
  let names := (setting.splitOn ",").map fun part => Text.lower (Text.trim part)
  { names := (names.filter (· ≠ "")).eraseDups }

/-- The names in the order of their code points. -/
def sorted (c : Channels) : List String := c.names.mergeSort (fun a b => a ≤ b)

/-- `all` stands for every channel. Without a name: whether any channel is enabled. -/
def enabled (c : Channels) (name : Option String) : Bool :=
  !c.names.isEmpty &&
    (c.names.contains "all" ||
      match name with
      | none => true
      | some name => c.names.contains (Text.lower name))

/-- The line of a message on an enabled channel. A disabled channel has none. -/
def line? (c : Channels) (name : String) (message : Unit → String) : Option String :=
  if c.enabled (some name) then
    some ("[" ++ diagnosticTag ++ "][" ++ name ++ "] " ++ message () ++ "\n")
  else none

/-- The line of a template with its arguments. A disabled channel does not fill it. -/
def filled? (c : Channels) (name message : String) (args : List Text.Argument) :
    Except Text.Excess (Option String) :=
  if c.enabled (some name) then
    (Text.fillMessage message args).map fun text => c.line? name fun _ => text
  else .ok none

end Channels

end Disassembly

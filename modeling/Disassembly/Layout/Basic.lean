import Disassembly.Text.Blank
import Disassembly.Text.Letter

/-! Cartridge memory layouts and access speeds, with the names they are known by. -/
namespace Disassembly

inductive Layout where
  | loRom
  | hiRom
  | exHiRom
  | exLoRom
  | superFx
  | sa1
  | exSa1
  | superMmc
  deriving DecidableEq

namespace Layout

def all : List Layout := [loRom, hiRom, exHiRom, exLoRom, superFx, sa1, exSa1, superMmc]

def title : Layout → String
  | loRom => "LoROM"
  | hiRom => "HiROM"
  | exHiRom => "ExHiROM"
  | exLoRom => "ExLoROM"
  | superFx => "SuperFX"
  | sa1 => "SA-1"
  | exSa1 => "ExSA-1"
  | superMmc => "SuperMMC"

def identifier : Layout → String
  | loRom => "LO_ROM"
  | hiRom => "HI_ROM"
  | exHiRom => "EX_HI_ROM"
  | exLoRom => "EX_LO_ROM"
  | superFx => "SUPER_FX"
  | sa1 => "SA1_ROM"
  | exSa1 => "EX_SA1_ROM"
  | superMmc => "SUPER_MMC"

/-- A name without regard to case, hyphens and underscores. -/
def nameKey (name : String) : List Char :=
  (Text.lower name).toList.filter fun c => c != '-' && c != '_'

/-- A layout is known by its title and by its identifier. -/
def named? (name : String) : Option Layout :=
  let key := nameKey (Text.trim name)
  all.find? fun l => key == nameKey l.title || key == nameKey l.identifier

/-- The name that no layout has. -/
structure UnknownName where
  name : String
  deriving DecidableEq

def UnknownName.message (e : UnknownName) : String := "unknown map mode: " ++ e.name

def ofName (name : String) : Except UnknownName Layout :=
  match named? name with
  | some l => .ok l
  | none => .error ⟨name⟩

end Layout

/-- Access speed, which decides between two address ranges of some layouts. -/
inductive Speed where
  | slow
  | fast
  | unknown
  deriving DecidableEq

namespace Speed

def all : List Speed := [slow, fast, unknown]

def title : Speed → String
  | slow => "SlowROM"
  | fast => "FastROM"
  | unknown => "Unknown"

def identifier : Speed → String
  | slow => "SLOW_ROM"
  | fast => "FAST_ROM"
  | unknown => "UNKNOWN"

end Speed

end Disassembly

import Disassembly.Text.Hex
import Disassembly.Text.Visible

/-! Quoted text: how a diagnostic shows a text with its invisible characters spelled out. -/
namespace Disassembly.Text

/-- A code point spelled in two, four or eight digits. -/
def codePointChars (c : Char) : List Char :=
  let n := c.toNat
  let (letter, width) := if n < 0x100 then ('x', 2) else if n < 0x10000 then ('u', 4) else ('U', 8)
  '\\' :: letter :: HexStyle.chars { width } n

def quotedChar (quote c : Char) : List Char :=
  if c == '\\' || c == quote then ['\\', c]
  else if c == '\n' then ['\\', 'n']
  else if c == '\r' then ['\\', 'r']
  else if c == '\t' then ['\\', 't']
  else if isVisible c then [c]
  else codePointChars c

/-- Single quotes, unless the text has a single and no double one. -/
def quoteFor (cs : List Char) : Char :=
  if cs.contains '\'' && !cs.contains '"' then '"' else '\''

def quoted (text : String) : String :=
  let cs := text.toList
  let quote := quoteFor cs
  String.ofList (quote :: cs.flatMap (quotedChar quote) ++ [quote])

/-- As `quoted`, with every character outside ASCII spelled out. -/
def quotedAscii (text : String) : String :=
  let cs := (quoted text).toList
  String.ofList (cs.flatMap fun c => if c.toNat < 0x80 then [c] else codePointChars c)

end Disassembly.Text

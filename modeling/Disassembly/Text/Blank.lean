/-! White space: the characters with the Unicode property, and trimming. -/
namespace Disassembly.Text

/-- White space of ASCII text: tabulators, line ends, form feed and the blank. -/
def isAsciiBlank (c : Char) : Bool :=
  (9 ≤ c.toNat && c.toNat ≤ 13) || c.toNat == 32

/-- White space of any text. U+001C to U+001F count, the zero-width space does not. -/
def isBlank (c : Char) : Bool :=
  let n := c.toNat
  isAsciiBlank c || (0x1C ≤ n && n ≤ 0x1F) || (0x2000 ≤ n && n ≤ 0x200A) ||
    [0x85, 0xA0, 0x1680, 0x2028, 0x2029, 0x202F, 0x205F, 0x3000].contains n

def trimChars (blank : Char → Bool) (cs : List Char) : List Char :=
  ((cs.dropWhile blank).reverse.dropWhile blank).reverse

def trim (text : String) : String := String.ofList (trimChars isBlank text.toList)

end Disassembly.Text

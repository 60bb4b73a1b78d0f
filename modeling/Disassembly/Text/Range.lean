/-! Sets of characters, given by closed ranges of code points. -/
namespace Disassembly.Text

/-- Pairs of a first and a last code point. -/
abbrev CharRanges := List (Nat × Nat)

def CharRanges.holds (ranges : CharRanges) (c : Char) : Bool :=
  ranges.any fun r => r.1 ≤ c.toNat && c.toNat ≤ r.2

end Disassembly.Text

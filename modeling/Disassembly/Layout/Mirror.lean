/-!
Mirrors. An image repeats in its address window with the least period that is a doubled half bank
and covers it; of an image that is shorter than its period, the trailing chunk repeats.
-/
namespace Disassembly.Layout

/-- Half a bank, the unit in which images repeat. -/
def halfBank : Int := 0x8000

/-- How often half a bank is doubled until it covers `size` bytes. -/
def doublings (size : Nat) : Nat :=
  if size ≤ 0x8000 then 0 else Nat.log2 ((size - 1) / 0x8000) + 1

/-- The least doubled half bank that covers `size` bytes. -/
def period (size : Int) : Int := halfBank * Nat.pow 2 (doublings size.toNat)

/-- Doubles `chunk` at most `n` times, as long as the doubled chunk divides `size`. -/
def doubledChunk (size : Int) : Nat → Int → Int
  | 0, chunk => chunk
  | n + 1, chunk => if size % (2 * chunk) = 0 then doubledChunk size n (2 * chunk) else chunk

/-- The chunk that repeats at the end of an image of `size` bytes. -/
def trailingChunk (size : Int) : Int := doubledChunk size (Nat.log2 size.natAbs) halfBank

/--
The byte of an image of `size` bytes that stands at `offset` of its window. Offsets behind the
image fall into its trailing chunk.
-/
def unmirror (offset size : Int) : Int :=
  if offset < size then offset
  else
    let repeated := offset % period size
    if repeated < size then repeated
    else size - trailingChunk size + (repeated - size) % trailingChunk size

@[simp] theorem unmirror_of_lt {offset size : Int} (h : offset < size) :
    unmirror offset size = offset := by
  simp [unmirror, h]

end Disassembly.Layout

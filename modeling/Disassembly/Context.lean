/-! Processor state on which the decoding of an instruction depends. -/
namespace Disassembly

/--
Direct page, data bank and register widths. `xFlag` and `mFlag` say that the index registers or
the accumulator are eight bits wide.
-/
@[ext] structure Context where
  directPage : Int := 0
  dataBank : Int := 0
  xFlag : Bool := false
  mFlag : Bool := false
  deriving DecidableEq

namespace Context

/-- The state after a reset: eight-bit registers, everything else zero. -/
def emulation : Context := { xFlag := true, mFlag := true }

/-- The context as it is stored: a 16-bit direct page and an 8-bit bank. -/
def masked (c : Context) : Context :=
  { c with directPage := c.directPage % 0x10000, dataBank := c.dataBank % 0x100 }

/-- Bits 4 and 5 of a status mask select the width flags; the selected ones become `value`. -/
def withStatus (c : Context) (mask : Int) (value : Bool) : Context :=
  { c with
    xFlag := if mask / 0x10 % 2 = 1 then value else c.xFlag
    mFlag := if mask / 0x20 % 2 = 1 then value else c.mFlag }

/-- The width flags as status bits. -/
def widths (c : Context) : Int := (if c.mFlag then 0x20 else 0) + (if c.xFlag then 0x10 else 0)

def withWidths (c : Context) (bits : Int) : Context :=
  { c with xFlag := decide (bits / 0x10 % 2 = 1), mFlag := decide (bits / 0x20 % 2 = 1) }

@[simp] theorem masked_masked (c : Context) : c.masked.masked = c.masked := by
  simp [masked]

@[simp] theorem masked_emulation : emulation.masked = emulation := rfl

/-- The width flags are carried over as status bits. -/
theorem withWidths_widths (c saved : Context) :
    c.withWidths saved.widths = { c with xFlag := saved.xFlag, mFlag := saved.mFlag } := by
  obtain ⟨d, b, x, m⟩ := saved
  cases x <;> cases m <;> rfl

/-- Bit 4 of a mask selects the index flag and bit 5 the accumulator flag. -/
theorem withStatus_natCast (c : Context) (mask : Nat) (value : Bool) :
    c.withStatus mask value =
      { c with
        xFlag := if mask.testBit 4 then value else c.xFlag
        mFlag := if mask.testBit 5 then value else c.mFlag } := by
  have hindex : (mask : Int) / 0x10 % 2 = 1 ↔ mask.testBit 4 := by
    rw [Nat.testBit_eq_decide_div_mod_eq, decide_eq_true_eq]
    omega
  have haccumulator : (mask : Int) / 0x20 % 2 = 1 ↔ mask.testBit 5 := by
    rw [Nat.testBit_eq_decide_div_mod_eq, decide_eq_true_eq]
    omega
  simp only [withStatus, hindex, haccumulator]

end Context

end Disassembly

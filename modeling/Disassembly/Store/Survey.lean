import Disassembly.Store.Basic

/-! Surveys of a store: offsets by role, and runs of equal cells. -/
namespace Disassembly

/-- The offsets `first, …, first + n - 1` that satisfy `p`, before those of `rest`. -/
def collectOffsets (p : Nat → Bool) (first : Nat) : Nat → List Nat → List Nat
  | 0, rest => rest
  | n + 1, rest =>
    collectOffsets p first n (if p (first + n) then (first + n) :: rest else rest)

theorem collectOffsets_eq (p : Nat → Bool) (first n : Nat) (rest : List Nat) :
    collectOffsets p first n rest = (List.range' first n).filter p ++ rest := by
  induction n generalizing rest with
  | zero => rfl
  | succ n ih =>
    rw [collectOffsets, ih, List.range'_concat, List.filter_append, List.append_assoc]
    simp only [Nat.one_mul, List.filter_cons, List.filter_nil]
    split <;> rfl

/-- Neighbouring offsets with equal cells; `last` is included. -/
structure Run where
  first : Nat
  last : Nat
  cell : Cell
  deriving DecidableEq

/-- Puts the cell of an offset before the runs behind it. Untouched cells are left out. -/
def Run.extend (offset : Nat) (cell : Cell) (runs : List Run) : List Run :=
  if cell = {} then runs
  else
    match runs with
    | r :: rest =>
      if r.first = offset + 1 ∧ r.cell = cell then { r with first := offset } :: rest
      else ⟨offset, offset, cell⟩ :: runs
    | [] => [⟨offset, offset, cell⟩]

namespace Store

/-- The offsets of a role from `first` up to, not including, `behind`. -/
def offsetsIn (s : Store) (flag : Flag) (first behind : Nat) : List Nat :=
  collectOffsets (fun o => (s.cell o).flag == flag) first (behind - first) []

def offsetsWith (s : Store) (flag : Flag) : List Nat := s.offsetsIn flag 0 s.size

/-- Offsets of decoded instructions in a range, cut to the image; no end means the whole rest. -/
def opcodeOffsets (s : Store) (start : Int) (behind : Option Int) : List Nat :=
  let behind := match behind with
    | some b => min b.toNat s.size
    | none => s.size
  s.offsetsIn .opcode start.toNat behind

def runsBelow (s : Store) : Nat → List Run → List Run
  | 0, runs => runs
  | n + 1, runs => s.runsBelow n (Run.extend n (s.cell n) runs)

/-- The cells that differ from an untouched one, in maximal runs. -/
def runs (s : Store) : List Run := s.runsBelow s.size []

end Store

end Disassembly

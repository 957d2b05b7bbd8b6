/-!
Sets and maps of characters given by ascending ranges of code points. The
search stops at the first range beyond the character, so a small code point is
settled within a few steps of any table.
-/

namespace CardCatalog

abbrev Ranges := List (Nat × Nat)

/-- Both ends of a range belong to it. A character outside an ascending table is
rejected at the first range that starts above it. -/
def Ranges.covers : Ranges → Nat → Bool
  | [], _ => false
  | (low, high) :: rest, n =>
    if n < low then false else n ≤ high || Ranges.covers rest n

def Ranges.has (ranges : Ranges) (c : Char) : Bool := ranges.covers c.toNat

/-- The characters low, low + step, low + 2·step, … up to high; they move to
target, target + step, target + 2·step, … in the same order. -/
structure Stride where
  low : Nat
  high : Nat
  step : Nat
  target : Nat

def Stride.apply (s : Stride) (n : Nat) : Option Nat :=
  if s.low ≤ n ∧ n ≤ s.high ∧ (n - s.low) % s.step = 0 then some (n - s.low + s.target) else none

/-- The first stride that has the character moves it; the strides of one table
are disjoint, so no other one could. -/
def Stride.move (table : List Stride) (c : Char) : Char :=
  match table.findSome? (·.apply c.toNat) with
  | some n => Char.ofNat n
  | none => c

end CardCatalog

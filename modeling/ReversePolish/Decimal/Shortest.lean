import ReversePolish.Decimal.Nearest

/-!
# The shortest numeral of a double

The numeral with the fewest digits whose nearest double is the given one; of
two such numerals the nearer to the double, and of two equally near the larger.
The search runs over decimal grids, from the one on which the double has a
single digit to finer ones. On each grid only the two points next to the double
can be nearest to it, and on the last grid the double itself is a point.
-/

namespace ReversePolish.Decimal

/-- The number of decimal places in which the double is written out in full. -/
def places (magnitude : Nat) : Nat := 1074 - scale magnitude

/-- The double written out in full: its value is this many units of the last of `places`. -/
def expansion (magnitude : Nat) : Nat :=
  significand magnitude * Nat.pow 2 (scale magnitude - 1074) * Nat.pow 5 (places magnitude)

/-- Whether the double is the nearest one to `coefficient * 10 ^ grid` units of its last place. -/
def readsBack (magnitude grid coefficient : Nat) : Bool :=
  nearest (coefficient * Nat.pow 10 grid) (Nat.pow 10 (places magnitude)) == magnitude

/-- The point of the grid that stands for the double, if one of the two next to it reads back. The
nearer one comes first, and of two that are equally near the upper one. -/
def gridPoint? (magnitude grid : Nat) : Option Nat :=
  let lower := expansion magnitude / Nat.pow 10 grid
  let rest := expansion magnitude % Nat.pow 10 grid
  let nearerFirst := if 2 * rest < Nat.pow 10 grid then [lower, lower + 1] else [lower + 1, lower]
  nearerFirst.find? (readsBack magnitude grid)

/-- The first hit on the given number of grids, coarsest first. -/
def shortestBelow (magnitude grids : Nat) : Numeral :=
  ((List.range grids).reverse.findSome? fun grid =>
      (gridPoint? magnitude grid).map fun coefficient =>
        ⟨coefficient, grid - (places magnitude : Int)⟩).getD
    ⟨expansion magnitude, -(places magnitude : Int)⟩

/-- The shortest numeral of a finite double. On the first grid 9 may be rounded up to 10, which is
the digit 1 one place higher. -/
def shortest (magnitude : Nat) : Numeral :=
  if magnitude = 0 then ⟨0, 0⟩
  else (shortestBelow magnitude (digitCount (expansion magnitude))).dropZero

end ReversePolish.Decimal

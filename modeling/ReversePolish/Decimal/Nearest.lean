import ReversePolish.Decimal.Numeral

/-!
# The nearest double

A nonnegative double is known by its magnitude bits: the 63 bits of its pattern
below the sign. Read as a number they grow with the value, so the neighbour of
a double is one bit away, carries from the significand run into the exponent by
themselves, and the pattern of infinity comes right after the largest finite
double. Every finite double is a whole number of units of `2 ^ (-1074)`.
-/

namespace ReversePolish.Decimal

/-- The quotient rounded to the nearest whole number, a half to the even neighbour. -/
def roundHalfEven (num den : Nat) : Nat :=
  let quotient := num / den
  let rest := num % den
  if 2 * rest < den then quotient
  else if den < 2 * rest then quotient + 1
  else quotient + quotient % 2

/-- The magnitude bits of infinity. -/
def infinityBits : Nat := 0x7FF * Nat.pow 2 52

/-- Doublings of the significand: none below `2 ^ 53` units, then one for each further bit. -/
def scale (magnitude : Nat) : Nat := magnitude / Nat.pow 2 52 - 1

/-- The significand, with its leading bit restored unless the double is subnormal. -/
def significand (magnitude : Nat) : Nat :=
  if magnitude < Nat.pow 2 52 then magnitude else Nat.pow 2 52 + magnitude % Nat.pow 2 52

/-- The value of a finite double, counted in units of `2 ^ (-1074)`. -/
def units (magnitude : Nat) : Nat := significand magnitude * Nat.pow 2 (scale magnitude)

/-- The magnitude bits of the double nearest to the fraction `num / den`, ties to even; from half
a step above the largest finite double on it is infinity. -/
def nearest (num den : Nat) : Nat :=
  let doublings := (num * Nat.pow 2 1074 / den).log2 - 52
  min infinityBits
    (doublings * Nat.pow 2 52
      + roundHalfEven (num * Nat.pow 2 1074) (den * Nat.pow 2 doublings))

/-- The magnitude bits of the double nearest to a numeral. -/
def Numeral.nearest (x : Numeral) : Nat :=
  match x.exponent with
  | .ofNat e => Decimal.nearest (x.coefficient * Nat.pow 10 e) 1
  | .negSucc e => Decimal.nearest x.coefficient (Nat.pow 10 (e + 1))

end ReversePolish.Decimal

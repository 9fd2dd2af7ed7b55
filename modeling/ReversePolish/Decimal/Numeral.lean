/-!
# Decimal numerals

A numeral is a natural coefficient times a power of ten. Texts are read into
numerals and doubles are written from them, so this is where the two meet:
rows of digits, the number a row spells, and the place of the leading digit.
-/

namespace ReversePolish.Decimal

/-- The number `coefficient * 10 ^ exponent`. -/
structure Numeral where
  coefficient : Nat
  exponent : Int
deriving DecidableEq, Repr

/-! ### Rows of digits -/

/-- The decimal digits of `n`, most significant first; zero has one digit. -/
def digits (n : Nat) : List Char := Nat.toDigits 10 n

/-- The number that a row of digits spells, most significant first. -/
def digitsValue (row : List Char) : Nat :=
  row.foldl (fun n c => 10 * n + (c.toNat - '0'.toNat)) 0

/-- A row that is too short is filled with zeros on the left. -/
def padLeft (width : Nat) (row : List Char) : List Char :=
  List.replicate (width - row.length) '0' ++ row

theorem length_padLeft (width : Nat) (row : List Char) :
    (padLeft width row).length = max width row.length := by
  simp only [padLeft, List.length_append, List.length_replicate]
  omega

/-- The number of decimal digits of `n`. The product underestimates the logarithm by less than
two, so one comparison settles it without writing the digits out. -/
def digitCount (n : Nat) : Nat :=
  let low := n.log2 * 1233 / 4096
  if n < Nat.pow 10 (low + 1) then low + 1 else low + 2

/-! ### Numerals -/

namespace Numeral

/-- The power of ten that the leading digit counts: `1234 * 10 ^ (-2)` leads with `10 ^ 1`. -/
def leadingExponent (x : Numeral) : Int :=
  (digits x.coefficient).length - 1 + x.exponent

/-- A coefficient that ends in zero is written one place higher. -/
def dropZero (x : Numeral) : Numeral :=
  if x.coefficient % 10 = 0 then ⟨x.coefficient / 10, x.exponent + 1⟩ else x

end Numeral

end ReversePolish.Decimal

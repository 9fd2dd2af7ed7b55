import ReversePolish.Decimal.Shortest

/-!
# Written forms of numbers

A layout decides where positional notation ends and how many digits follow the
point at least. Results and operands are written plainly, without an exponent
whatever their size. In diagnostics a whole number keeps one zero after the
point, and very large and very small numbers get an exponent.
-/

namespace ReversePolish.Decimal

/-- The decisions of a number format. -/
structure Layout where
  /-- The least number of digits after the point in positional notation. -/
  minPlaces : Nat
  /-- Whether a number that leads with `10 ^ k` is written positionally. -/
  positional : Int → Bool

/-- Never an exponent, and no point without a fraction: `2`, `0.0000001`. -/
def Layout.plain : Layout := ⟨0, fun _ => true⟩

/-- At least one digit after the point, and an exponent from `10 ^ 16` on and below `10 ^ (-4)`:
`2.0`, `1e16`, `2.5e-7`. -/
def Layout.general : Layout := ⟨1, fun k => decide (-4 ≤ k ∧ k < 16)⟩

namespace Numeral

/-- The digits before the point. -/
def wholeDigits (x : Numeral) : List Char :=
  match x.exponent with
  | .ofNat e => digits (x.coefficient * Nat.pow 10 e)
  | .negSucc e => digits (x.coefficient / Nat.pow 10 (e + 1))

/-- The digits after the point, none for a whole number. -/
def fractionDigits (x : Numeral) : List Char :=
  match x.exponent with
  | .ofNat _ => []
  | .negSucc e => padLeft (e + 1) (digits (x.coefficient % Nat.pow 10 (e + 1)))

/-- Digits, a point, digits; the fraction is filled with zeros up to `minPlaces`. -/
def positionalText (minPlaces : Nat) (x : Numeral) : List Char :=
  let fraction := x.fractionDigits ++ List.replicate (minPlaces - x.fractionDigits.length) '0'
  if fraction.isEmpty then x.wholeDigits else x.wholeDigits ++ '.' :: fraction

/-- One digit before the point, the others after it, and the exponent of the leading digit; a
positive exponent has no sign. -/
def scientificText (x : Numeral) : List Char :=
  let mantissa :=
    match digits x.coefficient with
    | [] => []
    | [d] => [d]
    | d :: ds => d :: '.' :: ds
  let exponent :=
    match x.leadingExponent with
    | .ofNat e => digits e
    | .negSucc e => '-' :: digits (e + 1)
  mantissa ++ 'e' :: exponent

end Numeral

/-- A numeral in the notation that the layout chooses for it. -/
def Layout.numeralText (layout : Layout) (x : Numeral) : List Char :=
  if layout.positional x.leadingExponent then x.positionalText layout.minPlaces
  else x.scientificText

/-- A double in its shortest form. A NaN has no sign. -/
def Layout.write (layout : Layout) (x : Float) : String :=
  let bits := x.toBits.toNat
  let magnitude := bits % Nat.pow 2 63
  if infinityBits < magnitude then "NaN"
  else
    let sign := if Nat.pow 2 63 ≤ bits then "-" else ""
    if magnitude = infinityBits then sign ++ "inf"
    else sign ++ String.ofList (layout.numeralText (shortest magnitude))

end ReversePolish.Decimal

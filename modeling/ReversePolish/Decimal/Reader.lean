import ReversePolish.Decimal.Nearest

/-!
# Reading numbers

A number is an optional sign followed by a word (`inf`, `infinity`, `nan`, in
any ASCII case) or by digits with an optional point and an optional exponent.
At least one digit stands beside the point and in the exponent. Nothing else is
accepted: no blanks, no separators, no digits beyond ASCII. The value is the
nearest double, ties to even, with infinity for what is too large.
-/

namespace ReversePolish.Decimal

/-! ### Numerals in text -/

/-- The value of an exponent's digits. It stops growing past `2 ^ 16`: no double reaches so
far. -/
def exponentValue (row : List Char) : Nat :=
  row.foldl (fun n c => if n < 65536 then 10 * n + (c.toNat - '0'.toNat) else n) 0

/-- A row of at least one digit, as an exponent. -/
def exponentDigits? (row : List Char) : Option Nat :=
  if !row.isEmpty && row.all Char.isDigit then some (exponentValue row) else none

/-- What follows the digits of a numeral: nothing, or `e` with an optional sign and digits. -/
def exponent? : List Char → Option Int
  | [] => some 0
  | c :: rest =>
    if c = 'e' ∨ c = 'E' then
      match rest with
      | '-' :: row => (exponentDigits? row).map fun e => -(e : Int)
      | '+' :: row => (exponentDigits? row).map fun e => (e : Int)
      | row => (exponentDigits? row).map fun e => (e : Int)
    else none

/-- The digits after a leading point, and what follows them; no digits where there is no point. -/
def fraction : List Char → List Char × List Char
  | '.' :: rest => rest.span Char.isDigit
  | rest => ([], rest)

/-- An unsigned numeral: whole digits, fraction digits, exponent. -/
def numeral? (text : List Char) : Option Numeral :=
  let (whole, afterWhole) := text.span Char.isDigit
  let (fraction, tail) := fraction afterWhole
  if whole.isEmpty && fraction.isEmpty then none
  else
    (exponent? tail).map fun e =>
      ⟨digitsValue (whole ++ fraction), e - fraction.length⟩

/-! ### Doubles in text -/

/-- The magnitude bits of the double that NaN is read as. -/
def nanBits : Nat := infinityBits + Nat.pow 2 51

/-- The magnitude bits that an unsigned text stands for. -/
def magnitude? (text : List Char) : Option Nat :=
  let word := String.ofList (text.map Char.toLower)
  if word = "inf" ∨ word = "infinity" then some infinityBits
  else if word = "nan" then some nanBits
  else (numeral? text).map Numeral.nearest

/-- The sign at the front of a text, and the rest. -/
def signed : List Char → Bool × List Char
  | '-' :: rest => (true, rest)
  | '+' :: rest => (false, rest)
  | text => (false, text)

/-- The double with the given sign and magnitude bits. -/
def ofMagnitude (negative : Bool) (magnitude : Nat) : Float :=
  Float.ofBits (UInt64.ofNat (magnitude + if negative then Nat.pow 2 63 else 0))

/-- Reads a text as a double; `none` if it is not a number. -/
def read? (text : String) : Option Float :=
  let (negative, unsigned) := signed text.toList
  (magnitude? unsigned).map (ofMagnitude negative)

end ReversePolish.Decimal

import ReversePolish.Calculator.Basic
import ReversePolish.Decimal.Reader

/-!
# Typed words

A typed word is a number or the symbol of an operation. Some symbols are hard
to type and have a second spelling.
-/

namespace ReversePolish

/-- The symbol that a word spells; a word without a symbol of its own spells itself. -/
def spelledSymbol : String → String
  | "pi" => "π"
  | "*" => "×"
  | "x" => "×"
  | "/" => "÷"
  | "-" => "−"
  | "sqrt" => "√"
  | word => word

/-- The second spellings of symbols. -/
def secondSpellings : List String := ["pi", "*", "x", "/", "-", "sqrt"]

theorem spelledSymbol_of_not_mem {word : String} (h : word ∉ secondSpellings) :
    spelledSymbol word = word := by
  unfold spelledSymbol
  split <;> simp_all [secondSpellings]

namespace Calculator

/-- Enters a typed word: an operand if it reads as a number, otherwise the operation it spells. -/
def enterWord (c : Calculator) (word : String) : Answer :=
  match Decimal.read? word with
  | some value => c.enterOperand value
  | none => c.enterSymbol (spelledSymbol word)

end Calculator

end ReversePolish

import ReversePolish.Token

/-!
# Stacks and reductions

A stack holds the tokens entered so far, the newest on top. Reducing it means
working out the expression on top of it: the result is that expression's value,
if its operators find their operands, and the tokens below it remain.
-/

namespace ReversePolish

/-- Tokens entered so far, the newest first. What lies below a token is a tail of the stack. -/
abbrev Stack := List Token

/-- A stack in reading order: `[6, 2, ÷]` has `÷` on top. -/
def Stack.text (stack : Stack) : String := Token.rowText stack.reverse

/-- What reducing a stack gives. -/
structure Reduction where
  /-- The value of the expression on top; none if an operator lacks operands. -/
  result : Option Float
  /-- The tokens below that expression; the whole stack if there is no value. -/
  remaining : Stack

namespace Reduction

/-- There is a value and every token went into it. -/
def isComplete (r : Reduction) : Bool := r.result.isSome && r.remaining.isEmpty

/-- Results compare as numbers, remainders token by token. -/
instance : BEq Reduction := ⟨fun a b => a.result == b.result && a.remaining == b.remaining⟩

/-- Nothing could be reduced, and the whole stack remains. -/
def starved (stack : Stack) : Reduction := ⟨none, stack⟩

end Reduction

/-- The record that a level of the stack has been reduced: the tokens up to and including one
operator or operand, and what reducing them gave. -/
structure Return where
  level : Stack
  reduction : Reduction

end ReversePolish

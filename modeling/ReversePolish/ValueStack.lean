import ReversePolish.Reduction.Basic

/-!
# Evaluation from left to right

The calculator of the textbooks keeps a stack of values and updates it with
each token: an operand or a constant is put on it, an operation replaces the
values it takes. Here an operation that lacks values empties the stack.
-/

namespace ReversePolish.ValueStack

/-- The values after one more token, the newest first. -/
def enter (values : List Float) : Token → List Float
  | .operand value => value :: values
  | .operation op =>
    match op.action, values with
    | .constant value, values => value :: values
    | .unary apply, a :: rest => apply a :: rest
    | .binary apply, a :: b :: rest => apply a b :: rest
    | _, _ => []

/-- The values after tokens in reading order. -/
def run (tokens : List Token) : List Float := tokens.foldl enter []

theorem run_concat (tokens : List Token) (token : Token) :
    run (tokens ++ [token]) = enter (run tokens) token := by
  simp [run]

/-- Whether no operation lacks values when tokens are entered on a stack of the given height. -/
def supplied (height : Nat) : List Token → Bool
  | [] => true
  | .operand _ :: rest => supplied (height + 1) rest
  | .operation op :: rest =>
    decide (op.arity.toNat ≤ height) && supplied (height - op.arity.toNat + 1) rest

end ReversePolish.ValueStack

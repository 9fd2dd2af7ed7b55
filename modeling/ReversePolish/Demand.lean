import ReversePolish.Reduction.Basic

/-!
# Counting what is lacking

The number of values that a reduction still lacks after it has visited some
tokens from the top: one at first, one less for each token's own value, and more
by the number of values that the token takes. The expression on top of the stack
ends where this first falls to zero. The count sees the kinds of the tokens only.
-/

namespace ReversePolish

/-- The number of values that a token takes. -/
def Token.operandCount : Token → Nat
  | .operand _ => 0
  | .operation op => op.arity.toNat

@[simp] theorem Token.operandCount_operand (value : Float) :
    (Token.operand value).operandCount = 0 := rfl

@[simp] theorem Token.operandCount_constant (symbol : String) (value : Float) :
    (Token.operation ⟨symbol, .constant value⟩).operandCount = 0 := rfl

@[simp] theorem Token.operandCount_unary (symbol : String) (apply : Float → Float) :
    (Token.operation ⟨symbol, .unary apply⟩).operandCount = 1 := rfl

@[simp] theorem Token.operandCount_binary (symbol : String) (apply : Float → Float → Float) :
    (Token.operation ⟨symbol, .binary apply⟩).operandCount = 2 := rfl

/-- The number of values that the tokens of a kind take. -/
def Kind.operandCount : Kind → Nat
  | .operand => 0
  | .unary => 1
  | .binary => 2
  | .constant => 0

theorem Token.operandCount_kind (token : Token) :
    token.kind.operandCount = token.operandCount := by
  cases token with
  | operand value => rfl
  | operation op =>
    obtain ⟨symbol, action⟩ := op
    cases action <;> rfl

/-- The values lacking after the given tokens, visited from the first to the last. -/
def demand (visited : List Token) : Int :=
  (visited.map fun token => (token.operandCount : Int) - 1).foldr (· + ·) 1

theorem demand_nil : demand [] = 1 := rfl

theorem demand_cons (token : Token) (rest : List Token) :
    demand (token :: rest) = (token.operandCount : Int) - 1 + demand rest := rfl

theorem demand_append (a b : List Token) : demand (a ++ b) = demand a + demand b - 1 := by
  induction a with
  | nil =>
    rw [List.nil_append, demand_nil]
    omega
  | cons token rest ih =>
    rw [List.cons_append, demand_cons, demand_cons, ih]
    omega

end ReversePolish

import ReversePolish.Reduction.Basic

/-!
# Expressions

An expression is a tree of operations over operands and constants. Its code is
its tokens in postfix order, each operation behind what it is applied to. A
binary operation computes with its right side first, because in postfix order
the right side is entered last and lies on top.
-/

namespace ReversePolish

/-- A tree of operations. -/
inductive Expression where
  | operand (value : Float)
  | constant (symbol : String) (value : Float)
  | unary (symbol : String) (apply : Float → Float) (argument : Expression)
  | binary (symbol : String) (apply : Float → Float → Float) (left right : Expression)

namespace Expression

def value : Expression → Float
  | operand value => value
  | constant _ value => value
  | unary _ apply argument => apply argument.value
  | binary _ apply left right => apply right.value left.value

/-- The tokens of an expression, in reading order. -/
def code : Expression → List Token
  | operand value => [.operand value]
  | constant symbol value => [.operation ⟨symbol, .constant value⟩]
  | unary symbol apply argument => argument.code ++ [.operation ⟨symbol, .unary apply⟩]
  | binary symbol apply left right =>
    left.code ++ right.code ++ [.operation ⟨symbol, .binary apply⟩]

/-- The stack after an expression has been entered on another one. -/
def onto (e : Expression) (stack : Stack) : Stack := e.code.reverse ++ stack

theorem onto_operand (value : Float) (stack : Stack) :
    (operand value).onto stack = .operand value :: stack := rfl

theorem onto_constant (symbol : String) (value : Float) (stack : Stack) :
    (constant symbol value).onto stack = .operation ⟨symbol, .constant value⟩ :: stack := rfl

theorem onto_unary (symbol : String) (apply : Float → Float) (argument : Expression)
    (stack : Stack) :
    (unary symbol apply argument).onto stack =
      .operation ⟨symbol, .unary apply⟩ :: argument.onto stack := by
  simp [onto, code]

theorem onto_binary (symbol : String) (apply : Float → Float → Float) (left right : Expression)
    (stack : Stack) :
    (binary symbol apply left right).onto stack =
      .operation ⟨symbol, .binary apply⟩ :: right.onto (left.onto stack) := by
  simp [onto, code]

end Expression

end ReversePolish

import ReversePolish.Calculator.Call

/-!
# Running calculations

A running calculation applies one binary operation after the other to what has
been worked out so far, as in `2+3×4`, without precedence. It is entered batch by
batch: an operand and an operation each time, the first time two operands, and
then the history is brought up to date.
-/

namespace ReversePolish

/-- A binary operation and the operand behind it, as in `+3`. -/
structure Link where
  symbol : String
  apply : Float → Float → Float
  operand : Float

namespace Link

def operation (link : Link) : Operation := ⟨link.symbol, .binary link.apply⟩

/-- The value of a calculation with a first operand, worked out from left to right. -/
def value (first : Float) (links : List Link) : Float :=
  links.foldl (fun value link => link.apply link.operand value) first

end Link

/-! ### Entering -/

/-- Operands and an operation, which stands behind as many of them as its place says, or behind all
where there are fewer. -/
def batchEntries (operands : List Float) (symbol : String) (place : Nat) : List Call :=
  (operands.take place).map .enterOperand ++
    .enterSymbol symbol :: (operands.drop place).map .enterOperand

/-- The calls of a batch. -/
def batch (operands : List Float) (symbol : String) (place : Nat) : List Call :=
  batchEntries operands symbol place ++ [.updateHistory]

/-- The batch of a link behind the first one, and the place of its operation in it. -/
def nextBatch (link : Link × Nat) : List Call := batch [link.1.operand] link.1.symbol link.2

/-- The batches of a calculation whose links come with the places of their operations. -/
def batches (first : Float) : List (Link × Nat) → List (List Call)
  | [] => []
  | (link, place) :: rest =>
    batch [first, link.operand] link.symbol place :: rest.map nextBatch

/-- Each operation is entered behind the operands of its batch. -/
def operationLast (links : List Link) : List (Link × Nat) := links.map fun link => (link, 2)

example :
    batches 2 (operationLast [⟨"+", fun b a => a + b, 3⟩, ⟨"×", fun b a => a * b, 4⟩]) =
      [[.enterOperand 2, .enterOperand 3, .enterSymbol "+", .updateHistory],
        [.enterOperand 4, .enterSymbol "×", .updateHistory]] := rfl

end ReversePolish

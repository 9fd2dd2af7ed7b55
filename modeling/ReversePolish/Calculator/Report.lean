import ReversePolish.Calculator.Basic

/-!
# What the calculator shows

The texts that a user sees: values, the stack with a note on what a reduction
leaves behind, and the list of operations.
-/

namespace ReversePolish

/-- A value as it is shown. Where there is none, zero is shown. -/
def valueText (value : Option Float) : String := Decimal.Layout.plain.write (value.getD 0)

namespace Calculator

/-- The note behind the stack: none if it is empty or one complete expression. -/
def stackNote (c : Calculator) (r : Reduction) : String :=
  if r.isComplete || c.stack.isEmpty then ""
  else if r.result.isNone then " (missing operands)"
  else " (" ++ toString r.remaining.length ++ " left over)"

/-- The stack, and what a reduction of it leaves behind. -/
def describeStack (c : Calculator) : Reported String :=
  c.reduce.map fun r => c.stack.text ++ c.stackNote r

/-- The operations in registration order, one a line, each with its arity. -/
def describeOperations (c : Calculator) : String :=
  "\n".intercalate
    (c.registry.operations.map fun op => op.symbol ++ " " ++ op.arity.name)

end Calculator

end ReversePolish

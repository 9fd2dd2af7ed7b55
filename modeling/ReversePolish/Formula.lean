import ReversePolish.Calculator.Call

/-!
# Formulas

A formula in the usual notation, over numbers and the standard operations. Its
value is computed side by side as it is written, and it is entered into a
calculator part by part: the left side, the right side, then the sign between
them.
-/

namespace ReversePolish

/-- A formula over the standard operations. -/
inductive Formula where
  | number (value : Float)
  | circleConstant
  | root (argument : Formula)
  /-- The sine of an angle in degrees. -/
  | sine (degrees : Formula)
  /-- The cosine of an angle in degrees. -/
  | cosine (degrees : Formula)
  | product (left right : Formula)
  | quotient (left right : Formula)
  | sum (left right : Formula)
  | difference (left right : Formula)

namespace Formula

def value : Formula → Float
  | number value => value
  | circleConstant => pi
  | root argument => argument.value.sqrt
  | sine degrees => (degrees.value * radiansPerDegree).sin
  | cosine degrees => (degrees.value * radiansPerDegree).cos
  | product left right => left.value * right.value
  | quotient left right => left.value / right.value
  | sum left right => left.value + right.value
  | difference left right => left.value - right.value

/-- The calls that enter a formula. -/
def calls : Formula → List Call
  | number value => [.enterOperand value]
  | circleConstant => [.enterSymbol "π"]
  | root argument => argument.calls ++ [.enterSymbol "√"]
  | sine degrees => degrees.calls ++ [.enterSymbol "sin"]
  | cosine degrees => degrees.calls ++ [.enterSymbol "cos"]
  | product left right => left.calls ++ right.calls ++ [.enterSymbol "×"]
  | quotient left right => left.calls ++ right.calls ++ [.enterSymbol "÷"]
  | sum left right => left.calls ++ right.calls ++ [.enterSymbol "+"]
  | difference left right => left.calls ++ right.calls ++ [.enterSymbol "−"]

/-- The tokens of a formula, in reading order: each sign behind what it joins. -/
def code : Formula → List Token
  | number value => [.operand value]
  | circleConstant => [.operation Operation.circleConstant]
  | root argument => argument.code ++ [.operation Operation.squareRoot]
  | sine degrees => degrees.code ++ [.operation Operation.sine]
  | cosine degrees => degrees.code ++ [.operation Operation.cosine]
  | product left right => left.code ++ right.code ++ [.operation Operation.multiply]
  | quotient left right => left.code ++ right.code ++ [.operation Operation.divide]
  | sum left right => left.code ++ right.code ++ [.operation Operation.add]
  | difference left right => left.code ++ right.code ++ [.operation Operation.subtract]

end Formula

end ReversePolish

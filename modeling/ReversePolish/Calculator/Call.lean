import ReversePolish.Calculator.Entry

/-!
# Runs of a calculator

A run is a row of calls. Each has an answer; only some of them enter a token.
-/

namespace ReversePolish

/-- What can be asked of a calculator. -/
inductive Call where
  | enterOperand (value : Float)
  | enterSymbol (symbol : String)
  | enterWord (word : String)
  | evaluate
  | reduce
  | updateHistory
  | readHistory
  | clear

namespace Calculator

/-- The answer to a call. The history is part of the state, and clearing has no value. -/
def call (c : Calculator) : Call → Answer
  | .enterOperand value => c.enterOperand value
  | .enterSymbol symbol => c.enterSymbol symbol
  | .enterWord word => c.enterWord word
  | .evaluate => c.answer []
  | .reduce =>
    let reduced := c.reduce
    ⟨c, reduced.value.result, reduced.events⟩
  | .updateHistory => ⟨c.updateHistory, none, []⟩
  | .readHistory => ⟨c, none, []⟩
  | .clear => ⟨c.clear, none, []⟩

/-- The answers to a run. -/
def answers (c : Calculator) : List Call → List Answer
  | [] => []
  | call :: calls =>
    let answer := c.call call
    answer :: answer.calculator.answers calls

/-- The calculator after a run. -/
def after (c : Calculator) (calls : List Call) : Calculator :=
  calls.foldl (fun c call => (c.call call).calculator) c

/-- What a run reports. -/
def events (c : Calculator) (calls : List Call) : List Event :=
  (c.answers calls).flatMap Answer.events

theorem after_nil (c : Calculator) : c.after [] = c := rfl

theorem after_cons (c : Calculator) (call : Call) (calls : List Call) :
    c.after (call :: calls) = (c.call call).calculator.after calls := rfl

end Calculator

/-! ### What a run enters -/

/-- The token that a call enters, if any. -/
def Call.token? (registry : Registry) : Call → Option Token
  | enterOperand value => some (.operand value)
  | enterSymbol symbol => (registry.resolve symbol).map .operation
  | enterWord word =>
    match Decimal.read? word with
    | some value => some (.operand value)
    | none => (registry.resolve (spelledSymbol word)).map .operation
  | _ => none

/-- The tokens entered since the last clearing, in order, after one more call. -/
def Call.entered (registry : Registry) (tokens : List Token) : Call → List Token
  | clear => []
  | call => tokens ++ (call.token? registry).toList

/-- The tokens that a run enters after its last clearing, in order. -/
def enteredTokens (registry : Registry) (calls : List Call) : List Token :=
  calls.foldl (Call.entered registry) []

end ReversePolish

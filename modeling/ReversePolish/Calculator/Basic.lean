import ReversePolish.Event
import ReversePolish.History
import ReversePolish.Registry.Standard

/-!
# The calculator

A calculator keeps every token entered since it was last cleared. Entering one
evaluates the whole stack anew; evaluating never changes it. A symbol that no
operation has enters nothing, but the stack is evaluated all the same.
-/

namespace ReversePolish

/-- A calculator over a fixed registry. -/
structure Calculator where
  registry : Registry
  /-- Whether each step of a reduction is reported. -/
  tracing : Bool
  stack : Stack
  history : History

/-- What a calculator answers to an entry: its next state, the value of the stack, and what there
was to report. -/
structure Answer where
  calculator : Calculator
  value : Option Float
  events : List Event

namespace Calculator

/-- A calculator into which nothing has been entered. -/
def fresh (registry : Registry) (tracing : Bool) : Calculator :=
  ⟨registry, tracing, [], History.empty⟩

/-- A fresh calculator with the standard operations. -/
def standard (tracing : Bool) : Calculator := fresh Registry.standard tracing

/-! ### Evaluating -/

/-- Reduces the stack. -/
def reduce (c : Calculator) : Reported Reduction := c.stack.reduce c.tracing

/-- The value of the stack, reported together with what it leaves over. -/
def evaluate (c : Calculator) : Reported (Option Float) :=
  let reduced := c.reduce
  (reduced.andThen (.evaluated c.stack reduced.value)).map Reduction.result

/-! ### Entering -/

/-- Puts a token on the stack and records it in the history. -/
def push (c : Calculator) (token : Token) : Calculator :=
  { c with stack := token :: c.stack, history := c.history.record token }

/-- Evaluates the stack as it is, after the given events. -/
def answer (c : Calculator) (events : List Event) : Answer :=
  let evaluated := c.evaluate
  ⟨c, evaluated.value, events ++ evaluated.events⟩

/-- Enters an operand. -/
def enterOperand (c : Calculator) (value : Float) : Answer :=
  (c.push (.operand value)).answer []

/-- Enters the operation that a symbol belongs to. -/
def enterSymbol (c : Calculator) (symbol : String) : Answer :=
  match c.registry.resolve symbol with
  | some op => (c.push (.operation op)).answer []
  | none => c.answer [.unknown symbol]

/-! ### History and clearing -/

/-- Brings the history up to date. -/
def updateHistory (c : Calculator) : Calculator := { c with history := c.history.update }

/-- Forgets everything entered. -/
def clear (c : Calculator) : Calculator := { c with stack := [], history := History.empty }

end Calculator

end ReversePolish

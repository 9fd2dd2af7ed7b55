import ReversePolish.History

/-!
# Runs of the history

A history is made by recording tokens, by updates and by clearing. Its text is a
running calculation: operands with one operation between each two of them.
-/

namespace ReversePolish

/-- One step in the making of a history. -/
inductive HistoryStep where
  | record (token : Token)
  | update
  | clear

namespace History

def after (history : History) : HistoryStep → History
  | .record token => history.record token
  | .update => history.update
  | .clear => empty

/-- The history that steps make. -/
def ofSteps (steps : List HistoryStep) : History := steps.foldl after empty

end History

/-! ### What has been recorded -/

/-- The tokens recorded since the last clearing, after one more step. -/
def HistoryStep.recorded (tokens : List Token) : HistoryStep → List Token
  | record token => tokens ++ [token]
  | update => tokens
  | clear => []

/-- The tokens that steps record after the last clearing, in order. -/
def recordedTokens (steps : List HistoryStep) : List Token :=
  steps.foldl HistoryStep.recorded []

namespace Token

def operand? : Token → Option Float
  | operand value => some value
  | operation _ => none

def operation? : Token → Option Operation
  | operand _ => none
  | operation op => some op

/-- The operands of a row of tokens, in order. -/
def operands (tokens : List Token) : List Float := tokens.filterMap operand?

/-- The operations of a row of tokens, in order. -/
def operations (tokens : List Token) : List Operation := tokens.filterMap operation?

end Token

/-! ### Running calculations -/

/-- Operands with one operation between each two of them. -/
def running : List Float → List Operation → List Token
  | value :: values, op :: ops => .operand value :: .operation op :: running values ops
  | values, _ => values.map .operand

/-- A running calculation as it is shown. -/
def runningText (values : List Float) (ops : List Operation) : String :=
  String.join ((running values ops).map Token.text)

end ReversePolish

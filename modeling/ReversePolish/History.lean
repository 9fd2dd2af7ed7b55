import ReversePolish.Token

/-!
# The history line

The history retells postfix input as a running calculation, such as `2+3×4`.
Entered operands and operations wait on two tracks, newest first. An update
writes the newest operation and operand behind the text and takes them off
their tracks; the first one writes the operand before those in front, so that
the text begins and ends with an operand. What an update does not use stays on
its track.
-/

namespace ReversePolish

/-- The text so far, and what has been entered since and not been written. -/
structure History where
  /-- Operands that wait, the newest first. -/
  operands : List Float
  /-- Operations that wait, constants included, the newest first. -/
  operations : List Operation
  text : String

namespace History

def empty : History := ⟨[], [], ""⟩

/-- An entered token waits on its track. -/
def record (history : History) : Token → History
  | .operand value => { history with operands := value :: history.operands }
  | .operation op => { history with operations := op :: history.operations }

/-- Writes the newest operation and operand to the text, the first time with the operand before
them. Nothing happens where one of these is missing. -/
def update (history : History) : History :=
  if history.text.isEmpty then
    match history.operands, history.operations with
    | last :: before :: operands, op :: operations =>
      ⟨operands, operations,
        (Token.operand before).text ++ op.symbol ++ (Token.operand last).text⟩
    | _, _ => history
  else
    match history.operands, history.operations with
    | last :: operands, op :: operations =>
      ⟨operands, operations, history.text ++ op.symbol ++ (Token.operand last).text⟩
    | _, _ => history

end History

end ReversePolish

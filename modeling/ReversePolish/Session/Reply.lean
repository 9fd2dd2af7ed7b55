import ReversePolish.Calculator.Entry
import ReversePolish.Calculator.Report
import ReversePolish.Session.Line

/-!
# Sessions

A session answers line by line until its input ends, a line asks it to stop, or
a line cannot be read. The answer to words is the value of the last of them and,
as soon as there is one, the history line.
-/

namespace ReversePolish

/-! ### Replies -/

/-- Enters words one after the other, behind an answer that stands. -/
def Answer.enterWords (answer : Answer) : List String → Answer
  | [] => answer
  | word :: words =>
    let last := (answer.calculator.enterWord word).enterWords words
    ⟨last.calculator, last.value, answer.events ++ last.events⟩

/-- The answer to a line: the calculator's next state, the text shown if any, and what there was
to report. -/
structure Reply where
  calculator : Calculator
  shown : Option String
  events : List Event

/-- A value and the history line, if there is one. -/
def resultLine (value : Option Float) (history : String) : String :=
  if history.isEmpty then valueText value else valueText value ++ "    [" ++ history ++ "]"

namespace Calculator

/-- Enters the words of a line. The stack is evaluated once before the first of them. -/
def enterLine (c : Calculator) (words : List String) : Reply :=
  let answer := (c.answer []).enterWords words
  let updated := answer.calculator.updateHistory
  ⟨updated, some (resultLine answer.value updated.history.text), answer.events⟩

/-- The answer to what a line asks for; none if it asks to stop. -/
def reply? (c : Calculator) : Request → Option Reply
  | .nothing => some ⟨c, none, []⟩
  | .quit => none
  | .clear => some ⟨c.clear, some "0", []⟩
  | .showStack =>
    let described := c.describeStack
    some ⟨c, some described.value, described.events⟩
  | .showOperations => some ⟨c, some c.describeOperations, []⟩
  | .enter words => some (c.enterLine words)

end Calculator

/-! ### Whole sessions -/

/-- How a session went: the lines shown, what there was to report, and the line it failed on. -/
structure Transcript where
  shown : List String
  events : List Event
  failure : Option LineError

/-- A reply before the rest of a session. -/
def Transcript.after (reply : Reply) (rest : Transcript) : Transcript :=
  ⟨reply.shown.toList ++ rest.shown, reply.events ++ rest.events, rest.failure⟩

/-- A session over the given lines. -/
def Calculator.converse (c : Calculator) : List (List UInt8) → Transcript
  | [] => ⟨[], [], none⟩
  | line :: lines =>
    match lineText line with
    | .error failure => ⟨[], [], some failure⟩
    | .ok text =>
      match c.reply? (Request.ofLine text) with
      | none => ⟨[], [], none⟩
      | some reply => .after reply (reply.calculator.converse lines)

end ReversePolish

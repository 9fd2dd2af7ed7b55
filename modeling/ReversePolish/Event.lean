import ReversePolish.Reduction.Machine

/-!
# Diagnostics

While it works the calculator reports events: a symbol that it does not know,
the outcome of each evaluation, and, when tracing is on, each step of a
reduction. Events are values beside the results. How verbose a run is decides
only which of them are shown.
-/

namespace ReversePolish

/-- How detailed an event is. -/
inductive Level where
  | debug
  | trace
deriving DecidableEq, Repr

def Level.name : Level → String
  | .debug => "DEBUG"
  | .trace => "TRACE"

/-- What the calculator reports. -/
inductive Event where
  /-- A symbol that no operation has; nothing was entered for it. -/
  | unknown (symbol : String)
  /-- The whole stack was evaluated. -/
  | evaluated (stack : Stack) (reduction : Reduction)
  /-- A level of the stack was reduced. -/
  | returned (step : Return)

/-- A result in a message: `None`, `Some(3.0)`. -/
def resultText : Option Float → String
  | none => "None"
  | some x => "Some(" ++ Decimal.Layout.general.write x ++ ")"

namespace Event

def level : Event → Level
  | unknown _ => .debug
  | evaluated .. => .debug
  | returned _ => .trace

def message : Event → String
  | unknown symbol => "ignoring unknown operation `" ++ symbol ++ "`"
  | evaluated stack r =>
    stack.text ++ " = " ++ resultText r.result ++ " with " ++ r.remaining.text ++ " left over"
  | returned step =>
    "reduce [.." ++ toString step.level.length ++ "] -> " ++ resultText step.reduction.result
      ++ ", " ++ toString step.reduction.remaining.length ++ " left"

/-- An event as a line of the log. -/
def line (event : Event) : String := event.level.name ++ " " ++ event.message

end Event

/-- How much of what happens is shown. -/
inductive Verbosity where
  | quiet
  | debug
  | trace
deriving DecidableEq, Repr

namespace Verbosity

def shows : Verbosity → Level → Bool
  | quiet, _ => false
  | debug, level => level == .debug
  | trace, _ => true

/-- The events that are shown, in order. -/
def select (verbosity : Verbosity) (events : List Event) : List Event :=
  events.filter fun event => verbosity.shows event.level

theorem select_trace (events : List Event) : trace.select events = events :=
  List.filter_eq_self.mpr fun _ _ => rfl

/-- The log lines that are shown. -/
def log (verbosity : Verbosity) (events : List Event) : List String :=
  (verbosity.select events).map Event.line

end Verbosity

/-- A value, and the events on the way to it. -/
structure Reported (α : Type) where
  value : α
  events : List Event

namespace Reported

/-- The same events, with another value. -/
def map {α β : Type} (f : α → β) (x : Reported α) : Reported β := ⟨f x.value, x.events⟩

/-- One more event after the others. -/
def andThen {α : Type} (x : Reported α) (event : Event) : Reported α :=
  ⟨x.value, x.events ++ [event]⟩

end Reported

/-- Reduces a stack; each step is an event if `tracing` is on. -/
def Stack.reduce (tracing : Bool) (stack : Stack) : Reported Reduction :=
  let (reduction, steps) := reduceTracing tracing stack
  ⟨reduction, steps.map Event.returned⟩

end ReversePolish

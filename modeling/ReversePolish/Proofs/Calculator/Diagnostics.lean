import ReversePolish.Calculator.Report
import ReversePolish.Proofs.Calculator.Ledger
import ReversePolish.Proofs.Reduction.Below

/-!
# Diagnostics of a calculator

Whether reductions are traced is a part of a calculator's state, but nothing that
it computes depends on it: two calculators that differ in tracing only stay so
through any run, and give the same answers. Tracing decides about the records of
the reductions' steps, and verbosity about which records go to the log. Each call
reports in one order: a symbol that was not known, the steps, the evaluation.
-/

namespace ReversePolish

namespace Calculator

def withTracing (c : Calculator) (tracing : Bool) : Calculator := { c with tracing := tracing }

@[simp] theorem registry_withTracing (c : Calculator) (tracing : Bool) :
    (c.withTracing tracing).registry = c.registry := rfl

/-! ### Two calculators that differ in tracing -/

theorem reduce_value_withTracing (c : Calculator) (tracing : Bool) :
    (c.withTracing tracing).reduce.value = c.reduce.value := by
  rw [reduce_value, reduce_value]
  rfl

theorem describeStack_value_withTracing (c : Calculator) (tracing : Bool) :
    (c.withTracing tracing).describeStack.value = c.describeStack.value := by
  have hreduce := reduce_value_withTracing c tracing
  simp only [describeStack, Reported.map, stackNote, hreduce]
  rfl

end Calculator

/-- An answer is the same as another one but for tracing and for what is reported. -/
structure Answer.Agrees (tracing : Bool) (answer traced : Answer) : Prop where
  calculator : traced.calculator = answer.calculator.withTracing tracing
  value : traced.value = answer.value

namespace Calculator

theorem call_agrees (c : Calculator) (tracing : Bool) (call : Call) :
    (c.call call).Agrees tracing ((c.withTracing tracing).call call) := by
  by_cases h : call.asksValue = true
  · have hnext : ((c.withTracing tracing).call call).calculator =
        (c.call call).calculator.withTracing tracing := by
      rw [calculator_call c h, calculator_call (c.withTracing tracing) h, registry_withTracing]
      cases call.token? c.registry with
      | none => rfl
      | some token => rfl
    refine ⟨hnext, ?_⟩
    rw [value_call c h, value_call (c.withTracing tracing) h, hnext]
    rfl
  · rcases Call.eq_of_not_asksValue h with rfl | rfl | rfl <;> exact ⟨rfl, rfl⟩

theorem tracing_call (c : Calculator) (call : Call) :
    (c.call call).calculator.tracing = c.tracing := by
  have hnext : (c.call call).calculator = (c.call call).calculator.withTracing c.tracing :=
    (c.call_agrees c.tracing call).calculator
  calc (c.call call).calculator.tracing
      = ((c.call call).calculator.withTracing c.tracing).tracing := congrArg _ hnext
    _ = c.tracing := rfl

end Calculator

/-- What can be seen of an answer and of the calculator behind it, apart from what is reported. -/
structure View where
  value : Option Float
  reduction : Reduction
  stack : Stack
  history : History
  description : String

def Answer.view (answer : Answer) : View :=
  ⟨answer.value, answer.calculator.reduce.value, answer.calculator.stack,
    answer.calculator.history, answer.calculator.describeStack.value⟩

theorem Answer.Agrees.view_eq {tracing : Bool} {answer traced : Answer}
    (h : answer.Agrees tracing traced) : traced.view = answer.view := by
  simp only [view, h.calculator, h.value, Calculator.reduce_value_withTracing,
    Calculator.describeStack_value_withTracing]
  rfl

theorem Calculator.map_view_withTracing (c : Calculator) (tracing : Bool) (calls : List Call) :
    ((c.withTracing tracing).answers calls).map Answer.view =
      (c.answers calls).map Answer.view := by
  induction calls generalizing c with
  | nil => rfl
  | cons call calls ih =>
    have hcall := c.call_agrees tracing call
    have hrest := ih (c.call call).calculator
    rw [← hcall.calculator] at hrest
    simp only [answers, List.map_cons, hcall.view_eq, hrest]

/-! ### The records of a reduction -/

theorem Stack.events_reduce_false (stack : Stack) : (stack.reduce false).events = [] := by
  rw [Stack.reduce, reduceTracing_eq]
  rfl

theorem Stack.level_of_mem_events_reduce {tracing : Bool} {stack : Stack} {event : Event}
    (h : event ∈ (stack.reduce tracing).events) : event.level = .trace := by
  obtain ⟨done, -, rfl⟩ := List.mem_map.mp h
  rfl

/-! ### The records of a call -/

/-- Whether a call ends with the report of an evaluation. -/
def Call.evaluates : Call → Bool
  | enterOperand _ => true
  | enterSymbol _ => true
  | enterWord _ => true
  | evaluate => true
  | reduce => false
  | updateHistory => false
  | readHistory => false
  | clear => false

theorem Call.asksValue_of_evaluates {call : Call} (h : call.evaluates = true) :
    call.asksValue = true := by
  cases call with
  | reduce | updateHistory | readHistory | clear => cases h
  | _ => rfl

/-- The symbol that a call asks for. A word that reads as a number asks for none. -/
def Call.symbol? : Call → Option String
  | enterSymbol symbol => some symbol
  | enterWord word => if (Decimal.read? word).isSome then none else some (spelledSymbol word)
  | _ => none

/-- The symbol that a call asks for in vain. -/
def Call.unknown? (registry : Registry) (call : Call) : Option String :=
  call.symbol?.filter fun symbol => !registry.contains symbol

namespace Calculator

/-- The records of an evaluation of the stack: the steps of the reduction, and its outcome. -/
def evaluation (c : Calculator) : List Event :=
  (c.stack.reduce c.tracing).events ++ [.evaluated c.stack c.reduce.value]

theorem events_enterSymbol (c : Calculator) (symbol : String) :
    (c.enterSymbol symbol).events =
      ((Call.enterSymbol symbol).unknown? c.registry).toList.map Event.unknown ++
        (c.enterSymbol symbol).calculator.evaluation := by
  simp only [enterSymbol, Call.unknown?, Call.symbol?, Registry.contains, Option.filter_some]
  cases c.registry.resolve symbol with
  | none => rfl
  | some op => rfl

theorem events_call (c : Calculator) {call : Call} (h : call.evaluates = true) :
    (c.call call).events =
      (call.unknown? c.registry).toList.map Event.unknown ++
        (c.call call).calculator.evaluation := by
  cases call with
  | enterOperand value => rfl
  | enterSymbol symbol => exact events_enterSymbol c symbol
  | enterWord word =>
    have hword := events_enterSymbol c (spelledSymbol word)
    simp only [Calculator.call, enterWord, Call.unknown?, Call.symbol?]
    cases Decimal.read? word with
    | some value => rfl
    | none => exact hword
  | evaluate => rfl
  | reduce | updateHistory | readHistory | clear => cases h

theorem events_call_of_not_evaluates (c : Calculator) {call : Call} (h : call.evaluates = false) :
    (c.call call).events = if call.asksValue then (c.stack.reduce c.tracing).events else [] := by
  cases call with
  | reduce | updateHistory | readHistory | clear => rfl
  | _ => cases h

theorem level_of_not_evaluates (c : Calculator) {call : Call} (h : call.evaluates = false)
    {event : Event} (hmem : event ∈ (c.call call).events) : event.level = .trace := by
  rw [events_call_of_not_evaluates c h] at hmem
  cases hvalue : call.asksValue with
  | true =>
    rw [hvalue, if_pos rfl] at hmem
    exact Stack.level_of_mem_events_reduce hmem
  | false =>
    rw [hvalue] at hmem
    exact absurd hmem List.not_mem_nil

/-! ### The records without tracing -/

theorem filter_evaluation (c : Calculator) :
    (c.evaluation.filter fun event => event.level != .trace) =
      (c.withTracing false).evaluation := by
  have hsteps : ((c.stack.reduce c.tracing).events.filter fun event => event.level != .trace) = [] := by
    rw [List.filter_eq_nil_iff]
    intro event hevent
    rw [Stack.level_of_mem_events_reduce hevent]
    decide
  rw [evaluation, List.filter_append, hsteps, evaluation, reduce_value_withTracing]
  change _ = (c.stack.reduce false).events ++ _
  rw [Stack.events_reduce_false]
  rfl

theorem filter_events_call (c : Calculator) (call : Call) :
    ((c.call call).events.filter fun event => event.level != .trace) =
      ((c.withTracing false).call call).events := by
  cases h : call.evaluates with
  | true =>
    have hnext := (c.call_agrees false call).calculator
    have hunknown : (((call.unknown? c.registry).toList.map Event.unknown).filter
        fun event => event.level != .trace) =
        (call.unknown? c.registry).toList.map Event.unknown := by
      refine List.filter_eq_self.mpr fun event hevent => ?_
      obtain ⟨symbol, -, rfl⟩ := List.mem_map.mp hevent
      rfl
    rw [events_call c h, events_call (c.withTracing false) h, hnext, List.filter_append, hunknown,
      filter_evaluation]
    rfl
  | false =>
    have hsilent : (c.withTracing false).stack.reduce (c.withTracing false).tracing =
        c.stack.reduce false := rfl
    have hall : ((c.call call).events.filter fun event => event.level != .trace) = [] := by
      rw [List.filter_eq_nil_iff]
      intro event hevent
      rw [level_of_not_evaluates c h hevent]
      decide
    rw [hall, events_call_of_not_evaluates (c.withTracing false) h, hsilent,
      Stack.events_reduce_false, ite_self]

theorem filter_events (c : Calculator) (calls : List Call) :
    ((c.events calls).filter fun event => event.level != .trace) =
      (c.withTracing false).events calls := by
  induction calls generalizing c with
  | nil => rfl
  | cons call calls ih =>
    have hrest := ih (c.call call).calculator
    rw [← (c.call_agrees false call).calculator] at hrest
    change ((c.call call).events ++ (c.call call).calculator.events calls).filter _ =
      ((c.withTracing false).call call).events ++
        ((c.withTracing false).call call).calculator.events calls
    rw [List.filter_append, filter_events_call, hrest]

end Calculator

/-! ### Runs under the settings of the diagnostics -/

/-- The settings: whether reductions are traced, and which records go to the log. -/
structure Settings where
  tracing : Bool
  verbosity : Verbosity

namespace Calculator

/-- What a run of calls shows under some settings, and the records in its log. -/
def runUnder (c : Calculator) (settings : Settings) (calls : List Call) : List View × List Event :=
  let answers := (c.withTracing settings.tracing).answers calls
  (answers.map Answer.view, settings.verbosity.select (answers.flatMap Answer.events))

theorem shown_runUnder (c : Calculator) (settings settings' : Settings) (calls : List Call) :
    (c.runUnder settings calls).1 = (c.runUnder settings' calls).1 := by
  rw [runUnder, runUnder]
  dsimp only
  rw [map_view_withTracing, map_view_withTracing]

theorem log_runUnder_debug (c : Calculator) (tracing : Bool) (calls : List Call) :
    (c.runUnder ⟨tracing, .debug⟩ calls).2 =
      (c.runUnder ⟨tracing, .trace⟩ calls).2.filter fun event => event.level == .debug := by
  simp only [runUnder, Verbosity.select_trace]
  rfl

theorem log_runUnder_untraced (c : Calculator) (verbosity : Verbosity) (calls : List Call) :
    (c.runUnder ⟨false, verbosity⟩ calls).2 =
      (c.runUnder ⟨true, verbosity⟩ calls).2.filter fun event => event.level != .trace := by
  have hevents : (c.withTracing false).events calls =
      ((c.withTracing true).events calls).filter fun event => event.level != .trace :=
    (filter_events (c.withTracing true) calls).symm
  change verbosity.select ((c.withTracing false).events calls) =
    (verbosity.select ((c.withTracing true).events calls)).filter _
  rw [hevents, Verbosity.select, Verbosity.select, List.filter_filter, List.filter_filter]
  exact List.filter_congr fun event _ => Bool.and_comm _ _

end Calculator

end ReversePolish

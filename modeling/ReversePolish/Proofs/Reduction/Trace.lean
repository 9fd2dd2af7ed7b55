import ReversePolish.Event
import ReversePolish.Proofs.Reduction.Simulation

/-!
# The trace is the record of the calls

The recursion of the rule, told together with what it would write down if every
call, on whatever part of the stack and with whatever outcome, left one record as
it returns. What a traced reduction lists is this record, from the first entry to
the last. Two passages where the work stack goes its own way come out as they
should: a binary operation that is given its first value lists nothing, and where
a value is missing the waiting operations list one failure each, from the inside
out.
-/

namespace ReversePolish

namespace Rule

/-- The call of the rule on a stack gives a reduction, and up to its return the calls have left a
record: those that it made, in the order in which they returned, and then the call itself. -/
inductive Recorded : Stack → Reduction → List Return → Prop where
  | empty : Recorded [] ⟨none, []⟩ [⟨[], none, []⟩]
  | operand (value : Float) (below : Stack) :
    Recorded (.operand value :: below) ⟨some value, below⟩
      [⟨.operand value :: below, some value, below⟩]
  | constant {op : Operation} {value : Float} (action : op.action = .constant value)
    (below : Stack) :
    Recorded (.operation op :: below) ⟨some value, below⟩
      [⟨.operation op :: below, some value, below⟩]
  | unary {op : Operation} {apply : Float → Float} {below rest : Stack} {a : Float}
    {log : List Return} (action : op.action = .unary apply)
    (argument : Recorded below ⟨some a, rest⟩ log) :
    Recorded (.operation op :: below) ⟨some (apply a), rest⟩
      (log ++ [⟨.operation op :: below, some (apply a), rest⟩])
  | binary {op : Operation} {apply : Float → Float → Float} {below middle rest : Stack}
    {first second : Float} {log log' : List Return} (action : op.action = .binary apply)
    (upper : Recorded below ⟨some first, middle⟩ log)
    (lower : Recorded middle ⟨some second, rest⟩ log') :
    Recorded (.operation op :: below) ⟨some (apply first second), rest⟩
      (log ++ log' ++ [⟨.operation op :: below, some (apply first second), rest⟩])
  /-- An operation that takes values finds none below. -/
  | starved {op : Operation} {below rest : Stack} {log : List Return} (takes : op.arity ≠ .nullary)
    (upper : Recorded below ⟨none, rest⟩ log) :
    Recorded (.operation op :: below) ⟨none, .operation op :: below⟩
      (log ++ [⟨.operation op :: below, none, .operation op :: below⟩])
  /-- A binary operation finds its first value and no second one. -/
  | secondStarved {op : Operation} {apply : Float → Float → Float} {below middle rest : Stack}
    {first : Float} {log log' : List Return} (action : op.action = .binary apply)
    (upper : Recorded below ⟨some first, middle⟩ log) (lower : Recorded middle ⟨none, rest⟩ log') :
    Recorded (.operation op :: below) ⟨none, .operation op :: below⟩
      (log ++ log' ++ [⟨.operation op :: below, none, .operation op :: below⟩])

/-! ### The record is determined by the stack -/

theorem reduce_of_starved {op : Operation} {below : Stack} (takes : op.arity ≠ .nullary)
    (h : (reduce below).result = none) :
    reduce (.operation op :: below) = ⟨none, .operation op :: below⟩ := by
  obtain ⟨symbol, action⟩ := op
  cases action with
  | constant value => exact absurd rfl takes
  | unary apply =>
    rw [reduce_unary, h]
    rfl
  | binary apply =>
    rw [reduce_binary, h]
    rfl

theorem calls_of_starved {op : Operation} {below : Stack} (takes : op.arity ≠ .nullary)
    (h : (reduce below).result = none) :
    calls (.operation op :: below) =
      calls below ++ [⟨.operation op :: below, none, .operation op :: below⟩] := by
  rw [← reduce_of_starved takes h]
  obtain ⟨symbol, action⟩ := op
  cases action with
  | constant value => exact absurd rfl takes
  | unary apply => exact calls_unary symbol apply below
  | binary apply => exact calls_binary_none symbol apply h

theorem recorded_calls (stack : Stack) : Recorded stack (reduce stack) (calls stack) := by
  induction stack using call_induction with
  | empty =>
    rw [calls, call, reduce_nil]
    exact .empty
  | operand value below =>
    rw [calls, call, reduce_operand]
    exact .operand value below
  | constant symbol value below =>
    rw [calls, call, reduce_constant]
    exact .constant rfl below
  | unary symbol apply below ih =>
    rcases reduce_unary_cases symbol apply below with ⟨hb, hreduce⟩ | ⟨a, hb, hreduce⟩
    · rw [reduce_eq_mk hb] at ih
      rw [calls_unary, call, hreduce]
      exact .starved (by simp [Operation.arity]) ih
    · rw [reduce_eq_mk hb] at ih
      rw [calls_unary, call, hreduce]
      exact .unary rfl ih
  | binary symbol apply below ih₁ ih₂ =>
    rcases reduce_binary_cases symbol apply below with
      ⟨hb, hreduce⟩ | ⟨first, hb, hr, hreduce⟩ | ⟨first, second, hb, hr, hreduce⟩
    · rw [reduce_eq_mk hb] at ih₁
      rw [calls_binary_none symbol apply hb, call, hreduce]
      exact .starved (by simp [Operation.arity]) ih₁
    · rw [reduce_eq_mk hb] at ih₁
      rw [reduce_eq_mk hr] at ih₂
      rw [calls_binary_some symbol apply hb, call, hreduce, ← List.append_assoc]
      exact .secondStarved rfl ih₁ ih₂
    · rw [reduce_eq_mk hb] at ih₁
      rw [reduce_eq_mk hr] at ih₂
      rw [calls_binary_some symbol apply hb, call, hreduce, ← List.append_assoc]
      exact .binary rfl ih₁ ih₂

theorem Recorded.eq {stack : Stack} {r : Reduction} {log : List Return}
    (h : Recorded stack r log) : reduce stack = r ∧ calls stack = log := by
  induction h with
  | empty => exact ⟨reduce_nil, by rw [calls, call, reduce_nil]; rfl⟩
  | operand value below =>
    have hreduce := reduce_operand value below
    exact ⟨hreduce, by rw [calls, call, hreduce]⟩
  | @constant op value action below =>
    obtain ⟨symbol, _⟩ := op
    cases action
    have hreduce := reduce_constant symbol value below
    exact ⟨hreduce, by rw [calls, call, hreduce]⟩
  | @unary op apply below rest a log action argument ih =>
    obtain ⟨symbol, _⟩ := op
    cases action
    obtain ⟨hbelow, hlog⟩ := ih
    have hreduce : reduce (.operation ⟨symbol, .unary apply⟩ :: below) = ⟨some (apply a), rest⟩ := by
      rw [reduce_unary, hbelow]
    exact ⟨hreduce, by rw [calls_unary, hlog, call, hreduce]⟩
  | @binary op apply below middle rest first second log log' action upper lower ih₁ ih₂ =>
    obtain ⟨symbol, _⟩ := op
    cases action
    obtain ⟨hbelow, hlog⟩ := ih₁
    obtain ⟨hmiddle, hlog'⟩ := ih₂
    have hreduce : reduce (.operation ⟨symbol, .binary apply⟩ :: below) =
        ⟨some (apply first second), rest⟩ := by
      rw [reduce_binary, hbelow, hmiddle]
    have hcalls := calls_binary_some symbol apply (congrArg Reduction.result hbelow)
    rw [hbelow, hlog, hlog', ← List.append_assoc, call, hreduce] at hcalls
    exact ⟨hreduce, hcalls⟩
  | @starved op below rest log takes upper ih =>
    obtain ⟨hbelow, hlog⟩ := ih
    have hnone : (reduce below).result = none := congrArg Reduction.result hbelow
    exact ⟨reduce_of_starved takes hnone, by rw [calls_of_starved takes hnone, hlog]⟩
  | @secondStarved op apply below middle rest first log log' action upper lower ih₁ ih₂ =>
    obtain ⟨symbol, _⟩ := op
    cases action
    obtain ⟨hbelow, hlog⟩ := ih₁
    obtain ⟨hmiddle, hlog'⟩ := ih₂
    have hreduce : reduce (.operation ⟨symbol, .binary apply⟩ :: below) =
        ⟨none, .operation ⟨symbol, .binary apply⟩ :: below⟩ := by
      rw [reduce_binary, hbelow, hmiddle]
      rfl
    have hcalls := calls_binary_some symbol apply (congrArg Reduction.result hbelow)
    rw [hbelow, hlog, hlog', ← List.append_assoc, call, hreduce] at hcalls
    exact ⟨hreduce, hcalls⟩

theorem recorded_iff (stack : Stack) (r : Reduction) (log : List Return) :
    Recorded stack r log ↔ reduce stack = r ∧ calls stack = log := by
  constructor
  · exact Recorded.eq
  · rintro ⟨rfl, rfl⟩
    exact recorded_calls stack

end Rule

namespace Machine.State

/-! ### A missing value on its way up -/

theorem run_starved (level : Stack) (pending : List Pending) (log : Array Return) :
    ((returning ⟨level, .starved level⟩ pending).run true log).2 =
      log ++ (pending.map fun frame => Return.mk frame.level (.starved frame.level)).toArray := by
  induction pending generalizing level log with
  | nil =>
    rw [run_bottom]
    simp
  | cons frame pending ih =>
    have hfail : (returning ⟨level, .starved level⟩ (frame :: pending)).step =
        .inr (.returning ⟨frame.level, .starved frame.level⟩ pending) := rfl
    rw [run_to_returning hfail, ih]
    simp [extend]

end Machine.State

/-! ### The record as text -/

theorem Level.trace_record (level result left : String) :
    Level.trace.name ++ " " ++
        ("reduce [.." ++ level ++ "] -> " ++ result ++ ", " ++ left ++ " left") =
      "TRACE reduce [.." ++ level ++ "] -> " ++ result ++ ", " ++ left ++ " left" := by
  simp only [Level.name, ← String.append_assoc, String.reduceAppend]

theorem Event.line_returned (done : Return) :
    (Event.returned done).line =
      "TRACE reduce [.." ++ toString done.level.length ++ "] -> " ++
        resultText done.reduction.result ++ ", " ++
        toString done.reduction.remaining.length ++ " left" :=
  Level.trace_record (toString done.level.length) (resultText done.reduction.result)
    (toString done.reduction.remaining.length)

/-- A traced reduction lists the record of the rule's calls, and each entry is one line of the log.
A binary operation that is given its first value lists nothing before it goes on; from a missing
value on, the waiting operations list one failure each, the innermost first. -/
theorem reduceTracing_lists_calls :
    (∀ (stack : Stack) (r : Reduction) (log : List Return),
      reduceTracing true stack = (r, log) ↔ Rule.Recorded stack r log) ∧
    (∀ stack : Stack,
      Verbosity.trace.log (stack.reduce true).events =
        (reduceTracing true stack).2.map fun done =>
          "TRACE reduce [.." ++ toString done.level.length ++ "] -> " ++
            resultText done.reduction.result ++ ", " ++
            toString done.reduction.remaining.length ++ " left") ∧
    (∀ (level rest waiting : Stack) (x : Float) (apply : Float → Float → Float)
      (pending : List Machine.Pending) (log : Array Return),
      (Machine.State.returning ⟨level, some x, rest⟩
          (.binary waiting apply :: pending)).run true log =
        (Machine.State.descending rest (.second waiting apply x :: pending)).run true log) ∧
    ∀ (level : Stack) (pending : List Machine.Pending) (log : Array Return),
      ((Machine.State.returning ⟨level, .starved level⟩ pending).run true log).2 =
        log ++ (pending.map fun frame => Return.mk frame.level (.starved frame.level)).toArray := by
  refine ⟨?_, ?_, ?_, Machine.State.run_starved⟩
  · intro stack r log
    rw [reduceTracing_eq, Rule.recorded_iff, if_pos rfl, Prod.mk.injEq]
  · intro stack
    have hevents : Verbosity.trace.log (stack.reduce true).events =
        ((reduceTracing true stack).2.map Event.returned).map Event.line := by
      rw [Verbosity.log, Verbosity.select_trace]
      rfl
    rw [hevents, List.map_map]
    exact List.map_congr_left fun done _ => Event.line_returned done
  · intro level rest waiting x apply pending log
    exact Machine.State.run_to_descending rfl true log

end ReversePolish

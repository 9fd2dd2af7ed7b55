import ReversePolish.Proofs.Reduction.Rule
import ReversePolish.Reduction.Machine

/-!
# The machine follows the rule

A waiting operator is a call of the rule that has been suspended. From any
state in which the machine is about to reduce a level, and whatever operators
wait above it, the machine comes to the state in which that level returns what
the rule makes of it, and on the way it has listed the calls of the rule in the
order in which they return. At the bottom of the pending stack this says that
the machine and the rule agree on result, remainder and trace.
-/

namespace ReversePolish

namespace Rule

/-! ### The calls, case by case -/

theorem calls_nil : calls [] = [call []] := by
  rw [calls]

theorem calls_operand (value : Float) (below : Stack) :
    calls (.operand value :: below) = [call (.operand value :: below)] := by
  rw [calls]

theorem calls_constant (symbol : String) (value : Float) (below : Stack) :
    calls (.operation ⟨symbol, .constant value⟩ :: below) =
      [call (.operation ⟨symbol, .constant value⟩ :: below)] := by
  rw [calls]

theorem calls_unary (symbol : String) (apply : Float → Float) (below : Stack) :
    calls (.operation ⟨symbol, .unary apply⟩ :: below) =
      calls below ++ [call (.operation ⟨symbol, .unary apply⟩ :: below)] := by
  rw [calls]

theorem calls_binary_none (symbol : String) (apply : Float → Float → Float) {below : Stack}
    (h : (reduce below).result = none) :
    calls (.operation ⟨symbol, .binary apply⟩ :: below) =
      calls below ++ [call (.operation ⟨symbol, .binary apply⟩ :: below)] := by
  rw [calls]
  simp [h]

theorem calls_binary_some (symbol : String) (apply : Float → Float → Float) {below : Stack}
    {top : Float} (h : (reduce below).result = some top) :
    calls (.operation ⟨symbol, .binary apply⟩ :: below) =
      calls below ++ (calls (reduce below).remaining ++
        [call (.operation ⟨symbol, .binary apply⟩ :: below)]) := by
  rw [calls]
  simp [h]

end Rule

namespace Machine

open Rule

/-! ### Resuming a suspended call -/

theorem resume_unary (symbol : String) (apply : Float → Float) (below : Stack)
    (pending : List Pending) :
    resume (Rule.reduce below)
        (.unary (.operation ⟨symbol, .unary apply⟩ :: below) apply) pending =
      .returning (call (.operation ⟨symbol, .unary apply⟩ :: below)) pending := by
  simp only [resume, call, reduce_unary, Pending.level]
  cases h : (Rule.reduce below).result with
  | none => rfl
  | some x => rfl

theorem resume_binary_none (symbol : String) (apply : Float → Float → Float) {below : Stack}
    (pending : List Pending) (h : (Rule.reduce below).result = none) :
    resume (Rule.reduce below)
        (.binary (.operation ⟨symbol, .binary apply⟩ :: below) apply) pending =
      .returning (call (.operation ⟨symbol, .binary apply⟩ :: below)) pending := by
  simp only [resume, call, reduce_binary, h, Pending.level]

theorem resume_binary_some {level below : Stack} (apply : Float → Float → Float) {top : Float}
    (pending : List Pending) (h : (Rule.reduce below).result = some top) :
    resume (Rule.reduce below) (.binary level apply) pending =
      .descending (Rule.reduce below).remaining (.second level apply top :: pending) := by
  simp only [resume, h]

theorem resume_second (symbol : String) (apply : Float → Float → Float) {below : Stack}
    {top : Float} (pending : List Pending) (h : (Rule.reduce below).result = some top) :
    resume (Rule.reduce (Rule.reduce below).remaining)
        (.second (.operation ⟨symbol, .binary apply⟩ :: below) apply top) pending =
      .returning (call (.operation ⟨symbol, .binary apply⟩ :: below)) pending := by
  simp only [resume, call, reduce_binary, h, Pending.level]
  cases hr : (Rule.reduce (Rule.reduce below).remaining).result with
  | none => rfl
  | some second => rfl

namespace State

/-! ### Runs and their logs -/

/-- A log to which steps have been added, if they are traced at all. -/
def extend (tracing : Bool) (log : Array Return) (steps : List Return) : Array Return :=
  if tracing then log ++ steps.toArray else log

theorem extend_append (tracing : Bool) (log : Array Return) (a b : List Return) :
    extend tracing (extend tracing log a) b = extend tracing log (a ++ b) := by
  cases tracing with
  | false => rfl
  | true => simp [extend]

theorem run_of_step {s t : State} (h : s.step = .inr t) (tracing : Bool) (log : Array Return) :
    s.run tracing log = t.run tracing (extend tracing log t.trace.toList) := by
  rw [run]
  split
  next outcome h' =>
    rw [h] at h'
    cases h'
  next next h' =>
    rw [h] at h'
    cases h'
    cases tracing with
    | false => rfl
    | true => cases t with
      | descending level pending => simp [extend, trace]
      | returning done pending => simp [extend, trace]

theorem run_to_descending {s : State} {level : Stack} {pending : List Pending}
    (h : s.step = .inr (.descending level pending)) (tracing : Bool) (log : Array Return) :
    s.run tracing log = (State.descending level pending).run tracing log := by
  have hlog : extend tracing log [] = log := by
    cases tracing <;> simp [extend]
  rw [run_of_step h, trace, Option.toList_none, hlog]

theorem run_to_returning {s : State} {done : Return} {pending : List Pending}
    (h : s.step = .inr (.returning done pending)) (tracing : Bool) (log : Array Return) :
    s.run tracing log = (State.returning done pending).run tracing (extend tracing log [done]) := by
  rw [run_of_step h, trace, Option.toList_some]

theorem run_bottom (done : Return) (tracing : Bool) (log : Array Return) :
    (State.returning done []).run tracing log = (done.reduction, log) := by
  rw [run]
  rfl

/-- The level on which the machine is about to descend returns what the rule makes of it, and the
calls of the rule have been listed, whatever operators wait. -/
theorem run_descending (tracing : Bool) (level : Stack) (pending : List Pending)
    (log : Array Return) :
    (State.descending level pending).run tracing log =
      (State.returning (call level) pending).run tracing (extend tracing log (calls level)) := by
  induction level using call_induction generalizing pending log with
  | empty =>
    rw [calls_nil]
    refine run_to_returning ?_ tracing log
    simp only [step, descend, call, reduce_nil]
  | operand value below =>
    rw [calls_operand]
    refine run_to_returning ?_ tracing log
    simp only [step, descend, call, reduce_operand]
  | constant symbol value below =>
    rw [calls_constant]
    refine run_to_returning ?_ tracing log
    simp only [step, descend, call, reduce_constant]
  | unary symbol apply below ih =>
    have hdown : (State.descending (.operation ⟨symbol, .unary apply⟩ :: below) pending).step =
        .inr (.descending below
          (.unary (.operation ⟨symbol, .unary apply⟩ :: below) apply :: pending)) := rfl
    have hup : (State.returning (call below)
          (.unary (.operation ⟨symbol, .unary apply⟩ :: below) apply :: pending)).step =
        .inr (.returning (call (.operation ⟨symbol, .unary apply⟩ :: below)) pending) :=
      congrArg Sum.inr (resume_unary symbol apply below pending)
    rw [run_to_descending hdown, ih, run_to_returning hup, extend_append, ← calls_unary]
  | binary symbol apply below ih₁ ih₂ =>
    have hdown : (State.descending (.operation ⟨symbol, .binary apply⟩ :: below) pending).step =
        .inr (.descending below
          (.binary (.operation ⟨symbol, .binary apply⟩ :: below) apply :: pending)) := rfl
    rw [run_to_descending hdown, ih₁]
    cases hb : (Rule.reduce below).result with
    | none =>
      -- The first call found nothing: the operation fails at once and makes no second call.
      have hup : (State.returning (call below)
            (.binary (.operation ⟨symbol, .binary apply⟩ :: below) apply :: pending)).step =
          .inr (.returning (call (.operation ⟨symbol, .binary apply⟩ :: below)) pending) :=
        congrArg Sum.inr (resume_binary_none symbol apply pending hb)
      rw [run_to_returning hup, extend_append, ← calls_binary_none symbol apply hb]
    | some top =>
      -- The return to a binary operation with its first value is a step without a record.
      have hagain : (State.returning (call below)
            (.binary (.operation ⟨symbol, .binary apply⟩ :: below) apply :: pending)).step =
          .inr (.descending (Rule.reduce below).remaining
            (.second (.operation ⟨symbol, .binary apply⟩ :: below) apply top :: pending)) :=
        congrArg Sum.inr (resume_binary_some apply pending hb)
      have hup : (State.returning (call (Rule.reduce below).remaining)
            (.second (.operation ⟨symbol, .binary apply⟩ :: below) apply top :: pending)).step =
          .inr (.returning (call (.operation ⟨symbol, .binary apply⟩ :: below)) pending) :=
        congrArg Sum.inr (resume_second symbol apply pending hb)
      rw [run_to_descending hagain, ih₂, run_to_returning hup, extend_append, extend_append,
        ← calls_binary_some symbol apply hb]

end State

end Machine

/-! ### The outcome -/

theorem reduceTracing_eq (tracing : Bool) (stack : Stack) :
    reduceTracing tracing stack =
      (Rule.reduce stack, if tracing then Rule.calls stack else []) := by
  have hrun : (Machine.State.start stack).run tracing #[] =
      (Rule.reduce stack, Machine.State.extend tracing #[] (Rule.calls stack)) := by
    rw [Machine.State.start, Machine.State.run_descending, Machine.State.run_bottom]
    rfl
  simp only [reduceTracing, hrun]
  cases tracing with
  | false => rfl
  | true => simp [Machine.State.extend]

@[simp] theorem reduceTracing_fst (tracing : Bool) (stack : Stack) :
    (reduceTracing tracing stack).1 = Rule.reduce stack := by
  rw [reduceTracing_eq]

/-- The work stack and the recursion agree on result and remainder, with tracing on or off, and
the clauses of the recursion leave no room for another function. -/
theorem reduceTracing_refines_rule (tracing : Bool) :
    (∀ stack, (reduceTracing tracing stack).1 = Rule.reduce stack) ∧
      ∀ f : Stack → Reduction,
        Rule.Obeyed f ↔ ∀ stack, f stack = (reduceTracing tracing stack).1 := by
  refine ⟨reduceTracing_fst tracing, fun f => ?_⟩
  rw [Rule.obeyed_iff, funext_iff]
  simp only [reduceTracing_fst]

end ReversePolish

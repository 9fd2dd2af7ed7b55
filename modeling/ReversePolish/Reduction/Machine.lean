import ReversePolish.Reduction.Basic

/-!
# Reduction by a work stack

Input may nest as deeply as it is long, so reduction keeps the operators that
wait for operands on a stack of its own. The machine descends through operators
to a token that is a value (or to the bottom), then returns the value to the
waiting operators. A binary operator is resumed twice: with its first value it
sends the machine down again, with the second it is done. A missing value fails
every waiting operator, each with its whole level handed back. Each state in
which the machine returns is one step of the trace.
-/

namespace ReversePolish.Machine

/-- An operator that waits for the value of the tokens below it. Its level is the part of the
stack that it tops. -/
inductive Pending where
  | unary (level : Stack) (apply : Float → Float)
  | binary (level : Stack) (apply : Float → Float → Float)
  /-- A binary operator that has its first value. -/
  | second (level : Stack) (apply : Float → Float → Float) (first : Float)

namespace Pending

def level : Pending → Stack
  | unary level _ => level
  | binary level _ => level
  | second level _ _ => level

/-- How often the operator will be resumed. -/
def resumptions : Pending → Nat
  | unary .. => 1
  | binary .. => 2
  | second .. => 1

theorem resumptions_pos (frame : Pending) : 0 < frame.resumptions := by
  cases frame <;> simp [resumptions]

end Pending

/-- What the machine is doing; the innermost waiting operator comes first. -/
inductive State where
  /-- About to reduce a level. -/
  | descending (level : Stack) (pending : List Pending)
  /-- A level has just been reduced. -/
  | returning (done : Return) (pending : List Pending)

/-- The outcome of a level goes to the operator that waits for it. -/
def resume (reduction : Reduction) (frame : Pending) (pending : List Pending) : State :=
  match reduction.result with
  | none => .returning ⟨frame.level, .starved frame.level⟩ pending
  | some x =>
    match frame with
    | .unary level apply => .returning ⟨level, some (apply x), reduction.remaining⟩ pending
    | .binary level apply => .descending reduction.remaining (.second level apply x :: pending)
    | .second level apply first =>
      .returning ⟨level, some (apply first x), reduction.remaining⟩ pending

/-- A level is entered: a value returns at once, an operator waits. -/
def descend (level : Stack) (pending : List Pending) : State :=
  match level with
  | [] => .returning ⟨[], .starved []⟩ pending
  | .operand value :: below => .returning ⟨level, some value, below⟩ pending
  | .operation op :: below =>
    match op.action with
    | .constant value => .returning ⟨level, some value, below⟩ pending
    | .unary apply => .descending below (.unary level apply :: pending)
    | .binary apply => .descending below (.binary level apply :: pending)

namespace State

/-- One iteration: the next state, or the outcome when no operator waits any more. -/
def step : State → Sum Reduction State
  | descending level pending => .inr (descend level pending)
  | returning done [] => .inl done.reduction
  | returning done (frame :: pending) => .inr (resume done.reduction frame pending)

/-- The step of the trace that a state stands for. -/
def trace : State → Option Return
  | descending .. => none
  | returning done _ => some done

/-! ### The machine stops -/

/-- Resumptions still to come from the waiting operators. -/
def resumptions (pending : List Pending) : Nat :=
  (pending.map Pending.resumptions).foldr (· + ·) 0

/-- A bound on the iterations still to come: three for each token not yet visited, and the
resumptions of the waiting operators. -/
def work : State → Nat
  | descending level pending => 3 * level.length + resumptions pending + 1
  | returning done pending =>
    (if done.reduction.result.isSome then 3 * done.reduction.remaining.length + 1 else 0)
      + resumptions pending

theorem resumptions_cons (frame : Pending) (pending : List Pending) :
    resumptions (frame :: pending) = frame.resumptions + resumptions pending := rfl

theorem work_descend_lt (level : Stack) (pending : List Pending) :
    (descend level pending).work < (descending level pending).work := by
  unfold descend
  split
  · simp only [work, Reduction.starved, Option.isSome_none, Bool.false_eq_true, if_false]
    omega
  · simp only [work, Option.isSome_some, if_true, List.length_cons]
    omega
  · split <;>
      simp only [work, resumptions_cons, Pending.resumptions, Option.isSome_some, if_true,
        List.length_cons] <;>
      omega

theorem work_resume_lt (done : Return) (frame : Pending) (pending : List Pending) :
    (resume done.reduction frame pending).work < (returning done (frame :: pending)).work := by
  unfold resume
  split
  next missing =>
    have := frame.resumptions_pos
    simp only [work, Reduction.starved, missing, resumptions_cons, Option.isSome_none,
      Bool.false_eq_true, if_false]
    omega
  next x present =>
    cases frame <;>
      simp only [work, present, resumptions_cons, Pending.resumptions, Option.isSome_some,
        if_true] <;>
      omega

theorem work_lt_of_step {s t : State} (h : s.step = .inr t) : t.work < s.work := by
  cases s with
  | descending level pending =>
    simp only [step, Sum.inr.injEq] at h
    rw [← h]
    exact work_descend_lt level pending
  | returning done pending =>
    cases pending with
    | nil => simp [step] at h
    | cons frame pending =>
      simp only [step, Sum.inr.injEq] at h
      rw [← h]
      exact work_resume_lt done frame pending

/-! ### Running -/

/-- Runs to the end; with `tracing`, the steps of the trace are added to the log. -/
def run (tracing : Bool) (state : State) (log : Array Return) : Reduction × Array Return :=
  match _h : state.step with
  | .inl outcome => (outcome, log)
  | .inr next =>
    next.run tracing
      (match tracing, next.trace with
        | true, some done => log.push done
        | _, _ => log)
termination_by state.work
decreasing_by exact work_lt_of_step _h

/-- The state in which a reduction begins. -/
def start (stack : Stack) : State := descending stack []

/-- The state after some iterations, or the outcome once there is one. -/
def after (state : State) : Nat → Sum Reduction State
  | 0 => .inr state
  | i + 1 =>
    match state.after i with
    | .inl outcome => .inl outcome
    | .inr next => next.step

end State

end Machine

/-- Reduces the expression on top of a stack and, with `tracing`, lists the steps taken. -/
def reduceTracing (tracing : Bool) (stack : Stack) : Reduction × List Return :=
  let (reduction, log) := (Machine.State.start stack).run tracing #[]
  (reduction, log.toList)

/-- Reduces the expression on top of a stack. -/
def reduce (stack : Stack) : Reduction := (reduceTracing false stack).1

end ReversePolish

import ReversePolish.Proofs.Reduction.Simulation
import ReversePolish.Reduction.Positions
import ReversePolish.Registry.Standard

/-!
# Positions stay in range

The loop over positions keeps step with the machine, and what it checks never
fails. One invariant carries this: the waiting operators form a chain whose
levels grow strictly from the innermost to the whole row, and each holds the
function of the operator at the top of its level. While a value is on its way up,
it leaves less than the level at which the last descent ended, so a binary
operator that sends the loop down again sends it below all that wait. The number
of iterations is bounded by the work that the machine has before it.
-/

namespace ReversePolish

namespace Machine.State

/-! ### The machine, iteration by iteration -/

theorem run_of_outcome {s : State} {outcome : Reduction} (h : s.step = .inl outcome)
    (tracing : Bool) (log : Array Return) : s.run tracing log = (outcome, log) := by
  rw [run]
  split
  next other h' =>
    rw [h] at h'
    cases h'
    rfl
  next next h' =>
    rw [h] at h'
    cases h'

theorem run_of_after {s t : State} {i : Nat} (h : s.after i = .inr t) (tracing : Bool)
    (log : Array Return) :
    t.work + i ≤ s.work ∧ ∃ log', s.run tracing log = t.run tracing log' := by
  induction i generalizing t with
  | zero =>
    cases h
    exact ⟨Nat.le_refl _, log, rfl⟩
  | succ i ih =>
    rw [after] at h
    cases hi : s.after i with
    | inl outcome =>
      rw [hi] at h
      cases h
    | inr u =>
      rw [hi] at h
      have hstep : u.step = .inr t := h
      obtain ⟨hwork, log', hrun⟩ := ih hi
      have hless := work_lt_of_step hstep
      exact ⟨by omega, _, hrun.trans (run_of_step hstep tracing log')⟩

theorem run_of_after_eq_outcome {s : State} {i : Nat} {outcome : Reduction}
    (h : s.after i = .inl outcome) (tracing : Bool) (log : Array Return) :
    (s.run tracing log).1 = outcome := by
  induction i with
  | zero => cases h
  | succ i ih =>
    rw [after] at h
    cases hi : s.after i with
    | inl other =>
      rw [hi] at h
      cases h
      exact ih hi
    | inr u =>
      rw [hi] at h
      have hstep : u.step = .inl outcome := h
      obtain ⟨-, log', hrun⟩ := run_of_after hi tracing log
      rw [hrun, run_of_outcome hstep]

/-- Each iteration takes away some of the work, and the last one has none left to take. -/
theorem after_work (s : State) (tracing : Bool) (log : Array Return) :
    s.after (s.work + 1) = .inl (s.run tracing log).1 := by
  cases h : s.after (s.work + 1) with
  | inl outcome => rw [run_of_after_eq_outcome h]
  | inr t =>
    obtain ⟨hwork, -⟩ := run_of_after h tracing log
    omega

theorem work_start (stack : Stack) : (start stack).work = 3 * stack.length + 1 := rfl

end Machine.State

namespace Positions

/-! ### Checked accesses in range -/

theorem first_of_le {tokens : List Token} {count : Nat} (h : count ≤ tokens.length) :
    first tokens count = .ok (tokens.take count) := if_pos h

theorem stackOf_length (tokens : List Token) : stackOf tokens tokens.length = tokens.reverse := by
  rw [stackOf, List.take_length]

theorem take_succ_of_getElem? {tokens : List Token} {count : Nat} {token : Token}
    (h : tokens[count]? = some token) : tokens.take (count + 1) = tokens.take count ++ [token] := by
  rw [List.take_add_one, h, Option.toList_some]

theorem stackOf_succ {tokens : List Token} {count : Nat} {token : Token}
    (h : tokens[count]? = some token) :
    stackOf tokens (count + 1) = token :: stackOf tokens count := by
  simp only [stackOf, take_succ_of_getElem? h, List.reverse_append, List.reverse_singleton,
    List.singleton_append]

/-! ### The chain of waiting operators -/

/-- Operators wait above a level, each for what is below it, up to the whole row. -/
inductive Waiting (tokens : List Token) : Nat → List Frame → Prop where
  | whole : Waiting tokens tokens.length []
  | inside {level : Nat} {frame : Frame} {pending : List Frame} (below : level < frame.level)
    (tops : frame.Tops tokens) (outer : Waiting tokens frame.level pending) :
    Waiting tokens level (frame :: pending)

namespace Waiting

variable {tokens : List Token} {level : Nat} {pending : List Frame}

theorem add_length_le (h : Waiting tokens level pending) :
    level + pending.length ≤ tokens.length := by
  induction h with
  | whole => exact Nat.le_refl _
  | inside below tops outer ih =>
    rw [List.length_cons]
    omega

theorem level_le (h : Waiting tokens level pending) : level ≤ tokens.length := by
  have hlength := h.add_length_le
  omega

theorem lt_and_tops_of_mem (h : Waiting tokens level pending) :
    ∀ frame ∈ pending, level < frame.level ∧ frame.Tops tokens := by
  induction h with
  | whole => simp
  | inside below tops outer ih =>
    intro frame hframe
    rcases List.mem_cons.mp hframe with rfl | hframe
    · exact ⟨below, tops⟩
    · obtain ⟨habove, htops⟩ := ih frame hframe
      exact ⟨by omega, htops⟩

theorem levels_pairwise (h : Waiting tokens level pending) :
    (pending.map Frame.level).Pairwise (· < ·) := by
  induction h with
  | whole => exact List.Pairwise.nil
  | inside below tops outer ih =>
    refine List.pairwise_cons.mpr ⟨fun other hother => ?_, ih⟩
    obtain ⟨frame, hframe, rfl⟩ := List.mem_map.mp hother
    exact (outer.lt_and_tops_of_mem frame hframe).1

theorem level_eq (h : Waiting tokens level []) : level = tokens.length := by
  cases h
  rfl

theorem level_getLast? (h : Waiting tokens level pending) :
    ∀ frame, pending.getLast? = some frame → frame.level = tokens.length := by
  induction h with
  | whole => simp
  | @inside level frame pending below tops outer ih =>
    intro last hlast
    cases pending with
    | nil =>
      cases hlast
      exact outer.level_eq
    | cons next pending => exact ih last (by rwa [List.getLast?_cons_cons] at hlast)

theorem of_cons {frame : Frame} (h : Waiting tokens level (frame :: pending)) :
    level < frame.level ∧ frame.Tops tokens ∧ Waiting tokens frame.level pending := by
  cases h with
  | inside below tops outer => exact ⟨below, tops, outer⟩

end Waiting

/-! ### One iteration -/

/-- The invariant of the loop. What a value leaves lies below the place where the last descent
ended, not only below the level that has been reduced since. -/
def State.Sound (tokens : List Token) : State → Prop
  | .descending level pending => Waiting tokens level pending
  | .returning level done pending =>
    Waiting tokens done.level pending ∧ level ≤ done.level ∧ done.rest ≤ done.level ∧
      (done.result.isSome = true → done.rest < level)

theorem descend_zero (tokens : List Token) (pending : List Frame) :
    descend tokens 0 pending = .ok (.returning 0 ⟨0, none, 0⟩ pending) := rfl

/-- What a token makes of the level that it tops. -/
theorem descend_succ {tokens : List Token} {below : Nat} {token : Token}
    (h : tokens[below]? = some token) (pending : List Frame) :
    descend tokens (below + 1) pending =
      .ok (match token with
        | .operand value => .returning (below + 1) ⟨below + 1, some value, below⟩ pending
        | .operation ⟨_, .constant value⟩ =>
          .returning (below + 1) ⟨below + 1, some value, below⟩ pending
        | .operation ⟨_, .unary apply⟩ => .descending below (.unary (below + 1) apply :: pending)
        | .operation ⟨_, .binary apply⟩ =>
          .descending below (.binary (below + 1) apply :: pending)) := by
  obtain ⟨hlevel, -⟩ := List.getElem?_eq_some_iff.mp h
  have hlast : (tokens.take (below + 1)).getLast? = some token := by
    rw [take_succ_of_getElem? h, List.getLast?_concat]
  have hfirst := first_of_le (Nat.succ_le_of_lt hlevel)
  simp only [descend, hfirst, bind, Except.bind, hlast, oneLess]
  cases token with
  | operand value => rfl
  | operation op =>
    obtain ⟨symbol, action⟩ := op
    cases action <;> rfl

/-- A descent ends at its level, or an operator waits there and the loop goes on below. -/
theorem descend_cases {tokens : List Token} {level : Nat} (h : level ≤ tokens.length)
    (pending : List Frame) :
    (∃ done : Outcome, descend tokens level pending = .ok (.returning level done pending) ∧
      done.level = level ∧ done.rest ≤ level ∧ (done.result.isSome = true → done.rest < level) ∧
      ∀ waiting, Machine.descend (stackOf tokens level) waiting =
        .returning ⟨stackOf tokens level, done.result, stackOf tokens done.rest⟩ waiting) ∨
    ∃ below frame, descend tokens level pending = .ok (.descending below (frame :: pending)) ∧
      below < level ∧ frame.level = level ∧ frame.Tops tokens ∧
      ∀ waiting, Machine.descend (stackOf tokens level) waiting =
        .descending (stackOf tokens below) (frame.toPending tokens :: waiting) := by
  cases level with
  | zero =>
    have hbottom := descend_zero tokens pending
    exact Or.inl ⟨⟨0, none, 0⟩, hbottom, rfl, Nat.le_refl _, by simp, fun _ => rfl⟩
  | succ below =>
    have htoken : tokens[below]? = some tokens[below] := List.getElem?_eq_getElem h
    generalize tokens[below] = token at htoken
    have hdescend := descend_succ htoken pending
    have hstack := stackOf_succ htoken
    match token with
    | .operand value =>
      refine Or.inl ⟨⟨below + 1, some value, below⟩, hdescend, rfl, by simp, by simp, ?_⟩
      intro waiting
      rw [hstack]
      rfl
    | .operation ⟨symbol, .constant value⟩ =>
      refine Or.inl ⟨⟨below + 1, some value, below⟩, hdescend, rfl, by simp, by simp, ?_⟩
      intro waiting
      rw [hstack]
      rfl
    | .operation ⟨symbol, .unary apply⟩ =>
      refine Or.inr ⟨below, .unary (below + 1) apply, hdescend, by simp, rfl, ⟨symbol, htoken⟩, ?_⟩
      intro waiting
      rw [Frame.toPending, hstack]
      rfl
    | .operation ⟨symbol, .binary apply⟩ =>
      refine Or.inr ⟨below, .binary (below + 1) apply, hdescend, by simp, rfl, ⟨symbol, htoken⟩, ?_⟩
      intro waiting
      rw [Frame.toPending, hstack]
      rfl

theorem descend_sound {tokens : List Token} {level : Nat} {pending : List Frame}
    (h : Waiting tokens level pending) :
    ∃ s, descend tokens level pending = .ok s ∧ s.Sound tokens ∧
      s.toMachine tokens =
        Machine.descend (stackOf tokens level) (pending.map (Frame.toPending tokens)) := by
  rcases descend_cases h.level_le pending with
    ⟨done, hdescend, rfl, hrest, hvalue, hmachine⟩ |
    ⟨below, frame, hdescend, hbelow, rfl, htops, hmachine⟩
  · refine ⟨_, hdescend, ⟨h, Nat.le_refl _, hrest, hvalue⟩, ?_⟩
    rw [hmachine]
    rfl
  · refine ⟨_, hdescend, .inside hbelow htops h, ?_⟩
    rw [hmachine]
    rfl

theorem resume_sound {tokens : List Token} {level : Nat} {done : Outcome} {frame : Frame}
    {pending : List Frame} (h : State.Sound tokens (.returning level done (frame :: pending))) :
    (resume level done frame pending).Sound tokens ∧
      (resume level done frame pending).toMachine tokens =
        Machine.resume ⟨done.result, stackOf tokens done.rest⟩ (frame.toPending tokens)
          (pending.map (Frame.toPending tokens)) := by
  obtain ⟨hwaiting, hlevel, hrest, hvalue⟩ := h
  obtain ⟨habove, htops, houter⟩ := hwaiting.of_cons
  cases hresult : done.result with
  | none =>
    simp only [resume, Machine.resume, hresult]
    refine ⟨⟨houter, ?_, Nat.le_refl _, by simp⟩, ?_⟩
    · exact Nat.le_trans hlevel (Nat.le_of_lt habove)
    · cases frame <;> rfl
  | some x =>
    have hless : done.rest < level := hvalue (by rw [hresult]; rfl)
    have hdone (result : Option Float) : State.Sound tokens
        (.returning level ⟨frame.level, result, done.rest⟩ pending) := by
      refine ⟨houter, ?_, ?_, fun _ => hless⟩
      · show level ≤ frame.level
        omega
      · show done.rest ≤ frame.level
        omega
    simp only [resume, Machine.resume, hresult]
    cases frame with
    | unary top apply => exact ⟨hdone (some (apply x)), rfl⟩
    | binary top apply =>
      -- The operator waits on at its own level, and the loop goes on below where it had come to.
      have hbelow : done.rest < top := Nat.lt_of_le_of_lt hrest habove
      exact ⟨.inside hbelow htops houter, rfl⟩
    | second top apply value => exact ⟨hdone (some (apply value x)), rfl⟩

theorem step_sound {tokens : List Token} {s : State} (h : s.Sound tokens) :
    ∃ next, step tokens s = .ok next ∧
      Sum.map id (State.toMachine tokens) next = (s.toMachine tokens).step ∧
      ∀ t, next = .inr t → t.Sound tokens := by
  match s with
  | .descending level pending =>
    obtain ⟨t, hdescend, hsound, hmachine⟩ := descend_sound h
    refine ⟨.inr t, ?_, ?_, ?_⟩
    · rw [step, hdescend]
      rfl
    · exact congrArg Sum.inr hmachine
    · rintro _ ⟨⟩
      exact hsound
  | .returning level done [] =>
    obtain ⟨hwaiting, -, hrest, -⟩ := h
    have hlength : done.rest ≤ tokens.length := Nat.le_trans hrest hwaiting.level_le
    refine ⟨.inl ⟨done.result, stackOf tokens done.rest⟩, ?_, rfl, ?_⟩
    · rw [step, first_of_le hlength]
      rfl
    · rintro _ ⟨⟩
  | .returning level done (frame :: pending) =>
    obtain ⟨hsound, hmachine⟩ := resume_sound h
    refine ⟨.inr (resume level done frame pending), rfl, ?_, ?_⟩
    · exact congrArg Sum.inr hmachine
    · rintro _ ⟨⟩
      exact hsound

/-! ### Whole runs -/

theorem after_sound (tokens : List Token) (i : Nat) :
    ∃ next, after tokens i = .ok next ∧
      Sum.map id (State.toMachine tokens) next =
        (Machine.State.start tokens.reverse).after i ∧
      ∀ t, next = .inr t → t.Sound tokens := by
  induction i with
  | zero =>
    refine ⟨.inr (.descending tokens.length []), rfl, ?_, ?_⟩
    · show Sum.inr (Machine.State.descending (stackOf tokens tokens.length) []) = _
      rw [stackOf_length]
      rfl
    · rintro _ ⟨⟩
      exact Waiting.whole
  | succ i ih =>
    obtain ⟨next, hafter, hmachine, hsound⟩ := ih
    rw [after, hafter, Machine.State.after, ← hmachine]
    cases next with
    | inl outcome => exact ⟨.inl outcome, rfl, rfl, by simp⟩
    | inr s => exact step_sound (hsound s rfl)

theorem sound_of_after {tokens : List Token} {i : Nat} {s : State}
    (h : after tokens i = .ok (.inr s)) : s.Sound tokens := by
  obtain ⟨next, hafter, -, hsound⟩ := after_sound tokens i
  rw [h] at hafter
  cases hafter
  exact hsound s rfl

theorem after_succ {tokens : List Token} {i : Nat} {s : State}
    (h : after tokens i = .ok (.inr s)) : after tokens (i + 1) = step tokens s := by
  rw [after, h]
  rfl

theorem Waiting.inRange {tokens : List Token} {level : Nat} {s : State}
    (h : Waiting tokens level s.pending) (hlevel : s.level ≤ level)
    (houtcome : ∀ level done pending, s = .returning level done pending → done.InRange tokens) :
    s.InRange tokens where
  level_le := Nat.le_trans hlevel h.level_le
  length_pending_le := by
    have hlength := h.add_length_le
    omega
  levels_fall := List.pairwise_reverse.mpr h.levels_pairwise
  outermost := h.level_getLast?
  above frame hframe := Nat.lt_of_le_of_lt hlevel (h.lt_and_tops_of_mem frame hframe).1
  tops frame hframe := (h.lt_and_tops_of_mem frame hframe).2
  outcome := houtcome

theorem State.Sound.inRange {tokens : List Token} {s : State} (h : s.Sound tokens) :
    s.InRange tokens := by
  match s with
  | .descending level pending => exact Waiting.inRange h (Nat.le_refl _) (by simp)
  | .returning level done pending =>
    obtain ⟨hwaiting, hlevel, hrest, hvalue⟩ := h
    refine hwaiting.inRange hlevel ?_
    rintro _ _ _ ⟨⟩
    exact ⟨hrest, hwaiting.level_le, fun hsome => Nat.lt_of_lt_of_le (hvalue hsome) hlevel⟩

/-- A descent that has just found a value or the bottom is still at its level. -/
theorem level_of_after {tokens : List Token} {i level level' : Nat} {done : Outcome}
    {pending pending' : List Frame} (h : after tokens i = .ok (.inr (.descending level pending)))
    (hnext : after tokens (i + 1) = .ok (.inr (.returning level' done pending'))) :
    level' = level ∧ done.level = level := by
  have hlevel : level ≤ tokens.length := Waiting.level_le (sound_of_after h)
  rw [after_succ h, step] at hnext
  rcases descend_cases hlevel pending with ⟨found, hdescend, hfound, -⟩ | ⟨below, frame, hdescend, -⟩
  · rw [hdescend] at hnext
    cases hnext
    exact ⟨rfl, hfound⟩
  · rw [hdescend] at hnext
    cases hnext

theorem after_eq_outcome (tokens : List Token) (tracing : Bool) :
    after tokens (3 * tokens.length + 2) = .ok (.inl (reduceTracing tracing tokens.reverse).1) := by
  have hwork := Machine.State.after_work (.start tokens.reverse) tracing #[]
  rw [Machine.State.work_start, List.length_reverse] at hwork
  obtain ⟨next, hafter, hmachine, -⟩ := after_sound tokens (3 * tokens.length + 2)
  rw [hafter]
  cases next with
  | inl outcome =>
    rw [hwork] at hmachine
    cases hmachine
    rfl
  | inr s =>
    rw [hwork] at hmachine
    cases hmachine

end Positions

open Positions in
/-- The loop over positions never asks for a token behind the row and never takes one from none. At
every iteration it is in the state of the machine, told by positions, and these are in range. A
descent that has just found a value or the bottom is still at its level; no more than the level is
left, and less if there is a value. After at most three iterations for each token and two more, the
loop returns what the machine returns. -/
theorem reduceTracing_keeps_positions_in_range (tracing : Bool) (tokens : List Token) :
    (∀ i, (after tokens i).map (Sum.map id (State.toMachine tokens)) =
      .ok ((Machine.State.start tokens.reverse).after i)) ∧
    (∀ i fault, after tokens i ≠ .error fault) ∧
    (∀ i s, after tokens i = .ok (.inr s) → s.InRange tokens) ∧
    (∀ i level pending level' done pending',
      after tokens i = .ok (.inr (.descending level pending)) →
      after tokens (i + 1) = .ok (.inr (.returning level' done pending')) →
      level' = level ∧ done.level = level ∧ done.rest ≤ level ∧ level ≤ tokens.length ∧
        (done.result.isSome = true → done.rest < level)) ∧
    after tokens (3 * tokens.length + 2) =
      .ok (.inl (reduceTracing tracing tokens.reverse).1) := by
  refine ⟨?_, ?_, ?_, ?_, after_eq_outcome tokens tracing⟩
  · intro i
    obtain ⟨next, hafter, hmachine, -⟩ := after_sound tokens i
    rw [hafter, ← hmachine]
    rfl
  · intro i fault hfault
    obtain ⟨next, hafter, -⟩ := after_sound tokens i
    rw [hfault] at hafter
    cases hafter
  · intro i s hafter
    exact (sound_of_after hafter).inRange
  · intro i level pending level' done pending' hafter hnext
    obtain ⟨hlevel', hlevel⟩ := level_of_after hafter hnext
    have hrange := (sound_of_after hnext).inRange.outcome level' done pending' rfl
    have hrest := hrange.rest_le
    have hwhole := hrange.level_le
    refine ⟨hlevel', hlevel, by omega, by omega, fun hsome => ?_⟩
    have hless := hrange.rest_lt hsome
    omega

open Positions in
/-- In the starved `2 3 + ×` the 3 is found at level two, with `+` and `×` above it. When `+` has the
3, it waits on at level three while the loop goes down to the 2. -/
theorem positions_in_starved_product :
    let tokens : List Token :=
      [.operand 2, .operand 3, .operation Operation.add, .operation Operation.multiply]
    let sum : Float → Float → Float := fun top second => second + top
    let product : Frame := .binary 4 fun top second => second * top
    let three : Outcome := ⟨2, some 3, 1⟩
    let before : State := .descending 2 [.binary 3 sum, product]
    let found : State := .returning 2 three [.binary 3 sum, product]
    let later : State := .descending 1 [.second 3 sum 3, product]
    after tokens 2 = .ok (.inr before) ∧ after tokens 3 = .ok (.inr found) ∧
    after tokens 4 = .ok (.inr later) ∧ later.InRange tokens ∧ three.rest < 2 ∧
    after tokens 14 = .ok (.inl ⟨none, tokens.reverse⟩) := by
  intro tokens sum product three before found later
  have hbefore : after tokens 2 = .ok (.inr before) := rfl
  have hfound : after tokens 3 = .ok (.inr found) := rfl
  have hlater : after tokens 4 = .ok (.inr later) := rfl
  obtain ⟨-, -, hrange, hjust, houtcome⟩ := reduceTracing_keeps_positions_in_range false tokens
  obtain ⟨-, -, -, -, hless⟩ := hjust 2 2 _ 2 _ _ hbefore hfound
  refine ⟨hbefore, hfound, hlater, hrange 4 later hlater, hless rfl, ?_⟩
  have hstarved : (reduceTracing false tokens.reverse).1 = ⟨none, tokens.reverse⟩ := by
    rw [reduceTracing_fst]
    simp [tokens, Operation.add, Operation.multiply, Rule.reduce_binary, Reduction.starved]
  rw [← hstarved]
  exact houtcome

end ReversePolish

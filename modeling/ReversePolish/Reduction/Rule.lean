import ReversePolish.Reduction.Basic

/-!
# The rule of reduction

The rule by recursion on the stack: an operand or a constant is a value and
leaves what is below it; a unary operation reduces what is below and is applied
to the value; a binary operation reduces what is below, then reduces what that
left, and is applied to both values, the upper one first. Where a value is
missing, the operation gives none and hands back its whole level. The calls of
the recursion, listed as they return, are the steps of the reduction.
-/

namespace ReversePolish.Rule

/-- The rule, with the bound that lets a binary operation go on below its first value. -/
def reduceWithin : (stack : Stack) → { r : Reduction // r.remaining.length ≤ stack.length }
  | [] => ⟨.starved [], Nat.le_refl _⟩
  | .operand value :: below => ⟨⟨some value, below⟩, Nat.le_succ _⟩
  | .operation ⟨symbol, .constant value⟩ :: below => ⟨⟨some value, below⟩, Nat.le_succ _⟩
  | .operation ⟨symbol, .unary apply⟩ :: below =>
    let ⟨⟨result, rest⟩, bound⟩ := reduceWithin below
    match result with
    | none => ⟨.starved (.operation ⟨symbol, .unary apply⟩ :: below), Nat.le_refl _⟩
    | some x => ⟨⟨some (apply x), rest⟩, Nat.le_succ_of_le bound⟩
  | .operation ⟨symbol, .binary apply⟩ :: below =>
    let ⟨⟨result, rest⟩, bound⟩ := reduceWithin below
    match result with
    | none => ⟨.starved (.operation ⟨symbol, .binary apply⟩ :: below), Nat.le_refl _⟩
    | some top =>
      let ⟨⟨result, left⟩, bound'⟩ := reduceWithin rest
      match result with
      | none => ⟨.starved (.operation ⟨symbol, .binary apply⟩ :: below), Nat.le_refl _⟩
      | some second =>
        ⟨⟨some (apply top second), left⟩, Nat.le_succ_of_le (Nat.le_trans bound' bound)⟩
termination_by stack => stack.length
decreasing_by all_goals simp_all; try omega

/-- Reduces the expression on top of a stack, by the rule. -/
def reduce (stack : Stack) : Reduction := (reduceWithin stack).val

theorem length_remaining_reduce_le (stack : Stack) :
    (reduce stack).remaining.length ≤ stack.length := (reduceWithin stack).property

/-! ### The cases of the rule -/

@[simp] theorem reduce_nil : reduce [] = .starved [] := by
  simp only [reduce, reduceWithin]

@[simp] theorem reduce_operand (value : Float) (below : Stack) :
    reduce (.operand value :: below) = ⟨some value, below⟩ := by
  simp only [reduce, reduceWithin]

@[simp] theorem reduce_constant (symbol : String) (value : Float) (below : Stack) :
    reduce (.operation ⟨symbol, .constant value⟩ :: below) = ⟨some value, below⟩ := by
  simp only [reduce, reduceWithin]

theorem reduce_unary (symbol : String) (apply : Float → Float) (below : Stack) :
    reduce (.operation ⟨symbol, .unary apply⟩ :: below) =
      match (reduce below).result with
      | none => .starved (.operation ⟨symbol, .unary apply⟩ :: below)
      | some x => ⟨some (apply x), (reduce below).remaining⟩ := by
  simp only [reduce]
  rw [reduceWithin]
  cases reduceWithin below with
  | mk r bound => cases r with | mk result rest => cases result <;> rfl

theorem reduce_binary (symbol : String) (apply : Float → Float → Float) (below : Stack) :
    reduce (.operation ⟨symbol, .binary apply⟩ :: below) =
      match (reduce below).result, (reduce (reduce below).remaining).result with
      | some top, some second =>
        ⟨some (apply top second), (reduce (reduce below).remaining).remaining⟩
      | _, _ => .starved (.operation ⟨symbol, .binary apply⟩ :: below) := by
  simp only [reduce]
  rw [reduceWithin]
  cases reduceWithin below with
  | mk r bound =>
    cases r with
    | mk result rest =>
      cases result with
      | none => rfl
      | some top =>
        simp only
        cases reduceWithin rest with
        | mk r bound => cases r with | mk result rest => cases result <;> rfl

/-! ### The calls of the recursion -/

/-- The level of a stack and what the rule makes of it. -/
def call (stack : Stack) : Return := ⟨stack, reduce stack⟩

/-- The calls that the rule makes on a stack, in the order in which they return; the call on the
stack itself is the last. -/
def calls : Stack → List Return
  | [] => [call []]
  | .operand value :: below => [call (.operand value :: below)]
  | .operation ⟨symbol, .constant value⟩ :: below =>
    [call (.operation ⟨symbol, .constant value⟩ :: below)]
  | .operation ⟨symbol, .unary apply⟩ :: below =>
    calls below ++ [call (.operation ⟨symbol, .unary apply⟩ :: below)]
  | .operation ⟨symbol, .binary apply⟩ :: below =>
    calls below
      ++ (if (reduce below).result.isSome then calls (reduce below).remaining else [])
      ++ [call (.operation ⟨symbol, .binary apply⟩ :: below)]
termination_by stack => stack.length
decreasing_by
  all_goals
    have := length_remaining_reduce_le below
    simp only [List.length_cons]
    omega

end ReversePolish.Rule

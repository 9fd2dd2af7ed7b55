import ReversePolish.Reduction.Rule

/-!
# The recursion of the rule

An induction that follows the calls of the rule, and what the rule says about
the tokens that remain: all of them where there is no value, a shorter part of
the stack where there is one. The clauses of the rule determine it: no other
function obeys them.
-/

namespace ReversePolish

namespace Reduction

@[simp] theorem result_starved (stack : Stack) : (starved stack).result = none := rfl

@[simp] theorem remaining_starved (stack : Stack) : (starved stack).remaining = stack := rfl

end Reduction

namespace Rule

/-- Induction along the calls of the rule. A binary operation has two of them, the second one on
what the first one left. -/
@[elab_as_elim]
theorem call_induction {motive : Stack → Prop}
    (empty : motive [])
    (operand : ∀ value below, motive (.operand value :: below))
    (constant : ∀ symbol value below, motive (.operation ⟨symbol, .constant value⟩ :: below))
    (unary : ∀ symbol apply below, motive below →
      motive (.operation ⟨symbol, .unary apply⟩ :: below))
    (binary : ∀ symbol apply below, motive below → motive (reduce below).remaining →
      motive (.operation ⟨symbol, .binary apply⟩ :: below))
    (stack : Stack) : motive stack := by
  have all : ∀ n, ∀ stack : Stack, stack.length ≤ n → motive stack := by
    intro n
    induction n with
    | zero =>
      intro stack h
      have hnil : stack = [] := List.eq_nil_of_length_eq_zero (by omega)
      exact hnil ▸ empty
    | succ n ih =>
      intro stack h
      match stack with
      | [] => exact empty
      | .operand value :: below => exact operand value below
      | .operation ⟨symbol, .constant value⟩ :: below => exact constant symbol value below
      | .operation ⟨symbol, .unary apply⟩ :: below =>
        simp only [List.length_cons] at h
        exact unary symbol apply below (ih below (by omega))
      | .operation ⟨symbol, .binary apply⟩ :: below =>
        simp only [List.length_cons] at h
        have hrest := length_remaining_reduce_le below
        exact binary symbol apply below (ih below (by omega)) (ih _ (by omega))
  exact all stack.length stack (Nat.le_refl _)

/-! ### The ways an operation can go -/

theorem reduce_unary_cases (symbol : String) (apply : Float → Float) (below : Stack) :
    ((reduce below).result = none ∧
      reduce (.operation ⟨symbol, .unary apply⟩ :: below) =
        .starved (.operation ⟨symbol, .unary apply⟩ :: below)) ∨
    ∃ a, (reduce below).result = some a ∧
      reduce (.operation ⟨symbol, .unary apply⟩ :: below) =
        ⟨some (apply a), (reduce below).remaining⟩ := by
  rw [reduce_unary]
  cases h : (reduce below).result with
  | none => exact Or.inl ⟨rfl, rfl⟩
  | some a => exact Or.inr ⟨a, rfl, rfl⟩

theorem reduce_binary_cases (symbol : String) (apply : Float → Float → Float) (below : Stack) :
    ((reduce below).result = none ∧
      reduce (.operation ⟨symbol, .binary apply⟩ :: below) =
        .starved (.operation ⟨symbol, .binary apply⟩ :: below)) ∨
    (∃ first, (reduce below).result = some first ∧
      (reduce (reduce below).remaining).result = none ∧
      reduce (.operation ⟨symbol, .binary apply⟩ :: below) =
        .starved (.operation ⟨symbol, .binary apply⟩ :: below)) ∨
    ∃ first second, (reduce below).result = some first ∧
      (reduce (reduce below).remaining).result = some second ∧
      reduce (.operation ⟨symbol, .binary apply⟩ :: below) =
        ⟨some (apply first second), (reduce (reduce below).remaining).remaining⟩ := by
  rw [reduce_binary]
  cases hb : (reduce below).result with
  | none => exact Or.inl ⟨rfl, rfl⟩
  | some first =>
    cases hr : (reduce (reduce below).remaining).result with
    | none => exact Or.inr (Or.inl ⟨first, rfl, rfl, rfl⟩)
    | some second => exact Or.inr (Or.inr ⟨first, second, rfl, rfl, rfl⟩)

/-! ### What remains -/

theorem reduce_eq_mk {stack : Stack} {x : Option Float} (h : (reduce stack).result = x) :
    reduce stack = ⟨x, (reduce stack).remaining⟩ := by
  rw [← h]

theorem reduce_eq_starved {stack : Stack} (h : (reduce stack).result = none) :
    reduce stack = .starved stack := by
  match stack with
  | [] => exact reduce_nil
  | .operand value :: below => simp at h
  | .operation ⟨symbol, .constant value⟩ :: below => simp at h
  | .operation ⟨symbol, .unary apply⟩ :: below =>
    rcases reduce_unary_cases symbol apply below with ⟨-, hreduce⟩ | ⟨a, -, hreduce⟩
    · exact hreduce
    · simp [hreduce] at h
  | .operation ⟨symbol, .binary apply⟩ :: below =>
    rcases reduce_binary_cases symbol apply below with
      ⟨-, hreduce⟩ | ⟨first, -, -, hreduce⟩ | ⟨first, second, -, -, hreduce⟩
    · exact hreduce
    · exact hreduce
    · simp [hreduce] at h

theorem length_remaining_lt {stack : Stack} {x : Float} (h : (reduce stack).result = some x) :
    (reduce stack).remaining.length < stack.length := by
  match stack with
  | [] => simp at h
  | .operand value :: below => simp
  | .operation ⟨symbol, .constant value⟩ :: below => simp
  | .operation ⟨symbol, .unary apply⟩ :: below =>
    have hbelow := length_remaining_reduce_le below
    rcases reduce_unary_cases symbol apply below with ⟨-, hreduce⟩ | ⟨a, -, hreduce⟩
    · simp [hreduce] at h
    · rw [hreduce, List.length_cons]
      exact Nat.lt_succ_of_le hbelow
  | .operation ⟨symbol, .binary apply⟩ :: below =>
    have hbelow := length_remaining_reduce_le below
    have hrest := length_remaining_reduce_le (reduce below).remaining
    rcases reduce_binary_cases symbol apply below with
      ⟨-, hreduce⟩ | ⟨first, -, -, hreduce⟩ | ⟨first, second, -, -, hreduce⟩
    · simp [hreduce] at h
    · simp [hreduce] at h
    · rw [hreduce, List.length_cons]
      exact Nat.lt_succ_of_le (Nat.le_trans hrest hbelow)

/-! ### The clauses of the rule -/

/-- What the rule asks of a function, one clause for each case it distinguishes. -/
structure Obeyed (f : Stack → Reduction) : Prop where
  empty : f [] = ⟨none, []⟩
  operand : ∀ value rest, f (.operand value :: rest) = ⟨some value, rest⟩
  constant : ∀ symbol value rest,
    f (.operation ⟨symbol, .constant value⟩ :: rest) = ⟨some value, rest⟩
  unary : ∀ symbol apply rest a rest₂, f rest = ⟨some a, rest₂⟩ →
    f (.operation ⟨symbol, .unary apply⟩ :: rest) = ⟨some (apply a), rest₂⟩
  unary_starved : ∀ symbol apply rest, (f rest).result = none →
    f (.operation ⟨symbol, .unary apply⟩ :: rest) =
      ⟨none, .operation ⟨symbol, .unary apply⟩ :: rest⟩
  binary : ∀ symbol apply rest first rest₂ second rest₃,
    f rest = ⟨some first, rest₂⟩ → f rest₂ = ⟨some second, rest₃⟩ →
    f (.operation ⟨symbol, .binary apply⟩ :: rest) = ⟨some (apply first second), rest₃⟩
  first_starved : ∀ symbol apply rest, (f rest).result = none →
    f (.operation ⟨symbol, .binary apply⟩ :: rest) =
      ⟨none, .operation ⟨symbol, .binary apply⟩ :: rest⟩
  second_starved : ∀ symbol apply rest first rest₂,
    f rest = ⟨some first, rest₂⟩ → (f rest₂).result = none →
    f (.operation ⟨symbol, .binary apply⟩ :: rest) =
      ⟨none, .operation ⟨symbol, .binary apply⟩ :: rest⟩

theorem reduce_obeyed : Obeyed reduce where
  empty := reduce_nil
  operand := reduce_operand
  constant := reduce_constant
  unary symbol apply rest a rest₂ h := by rw [reduce_unary, h]
  unary_starved symbol apply rest h := by rw [reduce_unary, h]; rfl
  binary symbol apply rest first rest₂ second rest₃ h₁ h₂ := by rw [reduce_binary, h₁, h₂]
  first_starved symbol apply rest h := by rw [reduce_binary, h]; rfl
  second_starved symbol apply rest first rest₂ h₁ h₂ := by rw [reduce_binary, h₁, h₂]; rfl

theorem Obeyed.eq_reduce {f : Stack → Reduction} (hf : Obeyed f) : f = reduce := by
  funext stack
  induction stack using call_induction with
  | empty => rw [hf.empty, reduce_nil]; rfl
  | operand value below => rw [hf.operand, reduce_operand]
  | constant symbol value below => rw [hf.constant, reduce_constant]
  | unary symbol apply below ih =>
    rcases reduce_unary_cases symbol apply below with ⟨hb, hreduce⟩ | ⟨a, hb, hreduce⟩
    · rw [hreduce]
      exact hf.unary_starved symbol apply below (by rw [ih, hb])
    · rw [hreduce]
      exact hf.unary symbol apply below a (reduce below).remaining (by rw [ih, ← hb])
  | binary symbol apply below ih₁ ih₂ =>
    rcases reduce_binary_cases symbol apply below with
      ⟨hb, hreduce⟩ | ⟨first, hb, hr, hreduce⟩ | ⟨first, second, hb, hr, hreduce⟩
    · rw [hreduce]
      exact hf.first_starved symbol apply below (by rw [ih₁, hb])
    · rw [hreduce]
      exact hf.second_starved symbol apply below first (reduce below).remaining
        (by rw [ih₁, ← hb]) (by rw [ih₂, hr])
    · rw [hreduce]
      exact hf.binary symbol apply below first (reduce below).remaining second
        (reduce (reduce below).remaining).remaining (by rw [ih₁, ← hb]) (by rw [ih₂, ← hr])

theorem obeyed_iff (f : Stack → Reduction) : Obeyed f ↔ f = reduce := by
  constructor
  · exact Obeyed.eq_reduce
  · intro h
    exact h ▸ reduce_obeyed

end Rule

end ReversePolish

import ReversePolish.Demand
import ReversePolish.Proofs.Reduction.Postfix
import ReversePolish.Registry.Standard
import Mathlib.Order.Bounds.Basic

/-!
# The count decides the shape of a reduction

Counted from the top of a stack, the values that are lacking come to zero for the
first time at the end of the expression on top, and never where the stack is
starved. So whether a reduction gives a value, and how many tokens it leaves, can
be read off the kinds of the tokens: neither the numbers nor what the operations
compute has a part in it.
-/

namespace ReversePolish

/-! ### The count along an expression -/

namespace Expression

theorem demand_reverse_code (e : Expression) : demand e.code.reverse = 0 := by
  induction e with
  | operand value => rfl
  | constant symbol value => rfl
  | unary symbol apply argument ih =>
    simp [code, demand_cons, ih]
  | binary symbol apply left right ihleft ihright =>
    simp [code, demand_cons, demand_append, ihleft, ihright]

theorem demand_take_onto {e : Expression} {k : Nat} (h : e.code.length ≤ k) (stack : Stack) :
    demand ((e.onto stack).take k) = demand (stack.take (k - e.code.length)) - 1 := by
  have hlength : e.code.reverse.length ≤ k := by simpa using h
  rw [onto, List.take_append, List.take_of_length_le hlength, List.length_reverse, demand_append,
    demand_reverse_code]
  omega

theorem demand_take_onto_pos {e : Expression} {k : Nat} (h : k < e.code.length) (stack : Stack) :
    0 < demand ((e.onto stack).take k) := by
  induction e generalizing k stack with
  | operand value =>
    have hk : k = 0 := by simpa [code] using h
    rw [hk, List.take_zero, demand_nil]
    omega
  | constant symbol value =>
    have hk : k = 0 := by simpa [code] using h
    rw [hk, List.take_zero, demand_nil]
    omega
  | unary symbol apply argument ih =>
    cases k with
    | zero => simp [demand_nil]
    | succ k =>
      have hargument : k < argument.code.length := by simpa [code] using h
      have hpos := ih hargument stack
      rw [onto_unary, List.take_succ_cons, demand_cons, Token.operandCount_unary]
      omega
  | binary symbol apply left right ihleft ihright =>
    cases k with
    | zero => simp [demand_nil]
    | succ k =>
      have hsides : k < left.code.length + right.code.length := by
        simp only [code, List.length_append, List.length_singleton] at h
        omega
      rw [onto_binary, List.take_succ_cons, demand_cons, Token.operandCount_binary]
      by_cases hright : k < right.code.length
      · have hpos := ihright hright (left.onto stack)
        omega
      · -- The right side has supplied one of the two values, the left side is not at its end yet.
        have hpos := ihleft (k := k - right.code.length) (by omega) stack
        have hside := demand_take_onto (e := right) (by omega : right.code.length ≤ k)
          (left.onto stack)
        omega

end Expression

/-! ### The count on a stack -/

/-- The numbers of tokens, counted from the top of a stack, behind which nothing is lacking. -/
def Stack.settled (stack : Stack) : Set Nat :=
  {k | 1 ≤ k ∧ k ≤ stack.length ∧ demand (stack.take k) = 0}

namespace Rule

theorem demand_take_pos {stack : Stack} (h : (reduce stack).result = none) (k : Nat) :
    0 < demand (stack.take k) := by
  induction stack using call_induction generalizing k with
  | empty => simp [demand_nil]
  | operand value below => simp at h
  | constant symbol value below => simp at h
  | unary symbol apply below ih =>
    cases k with
    | zero => simp [demand_nil]
    | succ k =>
      rw [List.take_succ_cons, demand_cons, Token.operandCount_unary]
      rcases reduce_unary_cases symbol apply below with ⟨hb, -⟩ | ⟨a, -, hreduce⟩
      · have hpos := ih hb k
        omega
      · simp [hreduce] at h
  | binary symbol apply below ih₁ ih₂ =>
    cases k with
    | zero => simp [demand_nil]
    | succ k =>
      rw [List.take_succ_cons, demand_cons, Token.operandCount_binary]
      rcases reduce_binary_cases symbol apply below with
        ⟨hb, -⟩ | ⟨first, hb, hr, -⟩ | ⟨first, second, -, -, hreduce⟩
      · have hpos := ih₁ hb k
        omega
      · -- The expression below takes the count down by one, what it leaves never to zero.
        obtain ⟨e, -, hbelow⟩ := Expression.exists_onto hb
        by_cases hk : k < e.code.length
        · have hpos := Expression.demand_take_onto_pos hk (reduce below).remaining
          rw [← hbelow] at hpos
          omega
        · have hpos := ih₂ hr (k - e.code.length)
          have hend := Expression.demand_take_onto (by omega : e.code.length ≤ k)
            (reduce below).remaining
          rw [← hbelow] at hend
          omega
      · simp [hreduce] at h

theorem settled_of_starved {stack : Stack} (h : (reduce stack).result = none) :
    stack.settled = ∅ := by
  rw [Set.eq_empty_iff_forall_notMem]
  rintro k ⟨-, -, hzero⟩
  have hpos := demand_take_pos h k
  omega

theorem isLeast_settled_onto (e : Expression) (stack : Stack) :
    IsLeast (e.onto stack).settled e.code.length := by
  constructor
  · have hpositive : 0 < e.code.length := List.length_pos_iff.mpr e.code_ne_nil
    have hwithin : e.code.length ≤ (e.onto stack).length := by simp [Expression.onto]
    have hend : demand ((e.onto stack).take e.code.length) = 0 := by
      rw [Expression.demand_take_onto (Nat.le_refl _), Nat.sub_self, List.take_zero, demand_nil]
      rfl
    exact ⟨hpositive, hwithin, hend⟩
  · intro k hk
    obtain ⟨-, -, hzero⟩ := hk
    by_contra hless
    have hpos := Expression.demand_take_onto_pos (Nat.lt_of_not_le hless) stack
    omega

theorem result_isSome_iff_settled (stack : Stack) :
    (reduce stack).result.isSome = true ↔ stack.settled.Nonempty := by
  rcases reduce_cases stack with ⟨e, rest, rfl, hreduce⟩ | hstarved
  · have hleast := isLeast_settled_onto e rest
    simp only [hreduce, Option.isSome_some, true_iff]
    exact ⟨e.code.length, hleast.1⟩
  · have hempty := settled_of_starved (congrArg Reduction.result hstarved)
    simp [hstarved, hempty]

theorem remaining_of_isLeast_settled {stack : Stack} {k : Nat} (h : IsLeast stack.settled k) :
    (reduce stack).remaining = stack.drop k := by
  rcases reduce_cases stack with ⟨e, rest, rfl, hreduce⟩ | hstarved
  · have hk : k = e.code.length := h.unique (isLeast_settled_onto e rest)
    rw [hreduce, hk, Expression.onto, ← List.length_reverse, List.drop_left]
  · have hempty := settled_of_starved (congrArg Reduction.result hstarved)
    rw [hempty] at h
    exact absurd h.1 (Set.notMem_empty k)

end Rule

/-! ### The count sees kinds only -/

namespace Token

theorem kind_eq_of_beq {a b : Token} (h : (a == b) = true) : a.kind = b.kind := by
  cases a with
  | operand x =>
    cases b with
    | operand y => rfl
    | operation op => cases h
  | operation op =>
    cases b with
    | operand y => cases h
    | operation op' =>
      change (op.kind == op'.kind && op.symbol == op'.symbol) = true at h
      rw [Bool.and_eq_true] at h
      exact eq_of_beq h.1

theorem map_kind_eq_of_beq {a b : List Token} (h : (a == b) = true) :
    a.map kind = b.map kind := by
  induction a generalizing b with
  | nil =>
    cases b with
    | nil => rfl
    | cons y ys => cases h
  | cons x xs ih =>
    cases b with
    | nil => cases h
    | cons y ys =>
      rw [List.cons_beq_cons, Bool.and_eq_true] at h
      rw [List.map_cons, List.map_cons, kind_eq_of_beq h.1, ih h.2]

end Token

theorem demand_kinds (visited : List Token) :
    demand visited =
      ((visited.map Token.kind).map fun kind => (kind.operandCount : Int) - 1).foldr (· + ·) 1 := by
  rw [List.map_map]
  simp only [demand, Function.comp_def, Token.operandCount_kind]

theorem demand_eq_of_kinds {a b : List Token} (h : a.map Token.kind = b.map Token.kind) :
    demand a = demand b := by
  rw [demand_kinds a, demand_kinds b, h]

namespace Rule

variable {a b : Stack}

theorem settled_eq_of_kinds (h : a.map Token.kind = b.map Token.kind) :
    a.settled = b.settled := by
  have hlength : a.length = b.length := by simpa using congrArg List.length h
  have hdemand : ∀ k, demand (a.take k) = demand (b.take k) := by
    intro k
    apply demand_eq_of_kinds
    rw [List.map_take, List.map_take, h]
  simp only [Stack.settled, hlength, hdemand]

theorem result_isSome_eq_of_kinds (h : a.map Token.kind = b.map Token.kind) :
    (reduce a).result.isSome = (reduce b).result.isSome := by
  rw [Bool.eq_iff_iff, result_isSome_iff_settled, result_isSome_iff_settled,
    settled_eq_of_kinds h]

theorem length_remaining_eq_of_kinds (h : a.map Token.kind = b.map Token.kind) :
    (reduce a).remaining.length = (reduce b).remaining.length := by
  have hlength : a.length = b.length := by simpa using congrArg List.length h
  have hsettled := settled_eq_of_kinds h
  rcases reduce_cases a with ⟨e, rest, rfl, -⟩ | hstarved
  · have hleast := isLeast_settled_onto e rest
    rw [remaining_of_isLeast_settled hleast, remaining_of_isLeast_settled (hsettled ▸ hleast),
      List.length_drop, List.length_drop, hlength]
  · have hsome := result_isSome_eq_of_kinds h
    rw [hstarved] at hsome
    have hnone : (reduce b).result = none := by simpa using hsome.symm
    rw [hstarved, reduce_eq_starved hnone]
    exact hlength

end Rule

/-! ### The shape of a reduction -/

/-- There is a value where the count comes to zero, and then the tokens above that place are
consumed; the first such place counts. Elsewhere all tokens remain. Hence tokens of the same kinds,
and so tokens that comparing cannot tell apart, reduce in the same shape. -/
theorem reduceTracing_shape_by_demand (tracing : Bool) (tokens : List Token) :
    let lacking := fun k => demand (tokens.reverse.take k)
    let settled := {k | 1 ≤ k ∧ k ≤ tokens.length ∧ lacking k = 0}
    let reduction := (reduceTracing tracing tokens.reverse).1
    (reduction.result.isSome = true ↔ settled.Nonempty) ∧
    (∀ k, IsLeast settled k →
      reduction.remaining = (tokens.take (tokens.length - k)).reverse) ∧
    (¬ settled.Nonempty → reduction = ⟨none, tokens.reverse⟩) ∧
    ∀ tokens' : List Token,
      tokens.map Token.kind = tokens'.map Token.kind ∨ (tokens == tokens') = true →
        let reduction' := (reduceTracing tracing tokens'.reverse).1
        reduction.result.isSome = reduction'.result.isSome ∧
          reduction.remaining.length = reduction'.remaining.length := by
  intro lacking settled reduction
  have hreduction : reduction = Rule.reduce tokens.reverse := reduceTracing_fst tracing _
  have hsettled : settled = Stack.settled tokens.reverse := by
    simp only [settled, lacking, Stack.settled, List.length_reverse]
  rw [hreduction, hsettled]
  refine ⟨Rule.result_isSome_iff_settled _, ?_, ?_, ?_⟩
  · intro k hk
    rw [Rule.remaining_of_isLeast_settled hk, List.drop_reverse]
  · intro hempty
    rw [← Rule.result_isSome_iff_settled, Option.not_isSome_iff_eq_none] at hempty
    exact Rule.reduce_eq_starved hempty
  · intro tokens' halike reduction'
    have hkinds : tokens.map Token.kind = tokens'.map Token.kind := by
      rcases halike with hkinds | hequal
      · exact hkinds
      · exact Token.map_kind_eq_of_beq hequal
    have hstacks : tokens.reverse.map Token.kind = tokens'.reverse.map Token.kind := by
      rw [List.map_reverse, List.map_reverse, hkinds]
    have hreduction' : reduction' = Rule.reduce tokens'.reverse := reduceTracing_fst tracing _
    rw [hreduction']
    exact ⟨Rule.result_isSome_eq_of_kinds hstacks, Rule.length_remaining_eq_of_kinds hstacks⟩

/-- In `9 √ 3 4 +` the count comes to zero behind three tokens and once more behind four. The same
number of tokens is left where `+` stands for the newer value. -/
theorem shape_of_root_and_sum :
    let tokens : List Token := [.operand 9, .operation Operation.squareRoot, .operand 3,
      .operand 4, .operation Operation.add]
    let other : List Token := [.operand 9, .operation Operation.squareRoot, .operand 3,
      .operand 4, .operation ⟨"+", .binary fun top _ => top⟩]
    demand (tokens.reverse.take 4) = 0 ∧
    IsLeast {k | 1 ≤ k ∧ k ≤ tokens.length ∧ demand (tokens.reverse.take k) = 0} 3 ∧
    (reduceTracing true tokens.reverse).1.remaining = (tokens.take 2).reverse ∧
    (tokens == other) = true ∧
    (reduceTracing true other.reverse).1.remaining.length = 2 := by
  intro tokens other
  have hleast : IsLeast (Stack.settled tokens.reverse) 3 :=
    Rule.isLeast_settled_onto
      (.binary "+" (fun top second => second + top) (.operand 3) (.operand 4))
      [.operation Operation.squareRoot, .operand 9]
  have hequal : (tokens == other) = true := by decide
  have hmain := reduceTracing_shape_by_demand true tokens
  have hremaining := hmain.2.1 3 hleast
  have hshape := (hmain.2.2.2 other (Or.inr hequal)).2
  refine ⟨by decide, hleast, hremaining, hequal, ?_⟩
  rw [← hshape, hremaining]
  rfl

end ReversePolish

import ReversePolish.Proofs.Reduction.Below

/-!
# An expression counts as its value

A reduction enters the tokens of an expression at their top and leaves them at
their bottom. What it makes of everything above depends on the value alone: the
expression may be replaced by its value as an operand, whatever stands before and
behind it. The result is the same, and so is what remains, but that the one has the
expression where the other has the operand.
-/

namespace ReversePolish

namespace Rule

/-! ### A starved stack above an expression -/

theorem reduce_onto_of_starved {stack : Stack} (h : (reduce stack).result = none) (x : Float)
    (below : Stack) :
    (∃ y rest, rest <:+ below ∧
      ∀ e : Expression, e.value = x → reduce (stack ++ e.onto below) = ⟨some y, rest⟩) ∨
    ∀ e : Expression, e.value = x → (reduce (stack ++ e.onto below)).result = none := by
  induction stack using call_induction with
  | empty =>
    refine Or.inl ⟨x, below, List.suffix_refl below, ?_⟩
    intro e hvalue
    rw [List.nil_append, e.reduce_onto, hvalue]
  | operand value upper => simp at h
  | constant symbol value upper => simp at h
  | unary symbol apply upper ih =>
    rcases reduce_unary_cases symbol apply upper with ⟨hupper, -⟩ | ⟨a, -, hreduce⟩
    · rcases ih hupper with ⟨y, rest, hrest, hthrough⟩ | hstays
      · refine Or.inl ⟨apply y, rest, hrest, ?_⟩
        intro e hvalue
        exact reduce_obeyed.unary symbol apply _ y rest (hthrough e hvalue)
      · refine Or.inr ?_
        intro e hvalue
        exact congrArg Reduction.result
          (reduce_obeyed.unary_starved symbol apply _ (hstays e hvalue))
    · simp [hreduce] at h
  | binary symbol apply upper ih₁ ih₂ =>
    rcases reduce_binary_cases symbol apply upper with
      ⟨hupper, -⟩ | ⟨first, hupper, hlower, -⟩ | ⟨first, second, -, -, hreduce⟩
    · rcases ih₁ hupper with ⟨y, rest, hrest, hthrough⟩ | hstays
      · -- The expression went into the first value: the second is taken from below it.
        cases hsecond : (reduce rest).result with
        | none =>
          refine Or.inr ?_
          intro e hvalue
          exact congrArg Reduction.result
            (reduce_obeyed.second_starved symbol apply _ y rest (hthrough e hvalue) hsecond)
        | some second =>
          have hsuffix := (remaining_suffix rest).trans hrest
          refine Or.inl ⟨apply y second, (reduce rest).remaining, hsuffix, ?_⟩
          intro e hvalue
          exact reduce_obeyed.binary symbol apply _ y rest second _ (hthrough e hvalue)
            (reduce_eq_mk hsecond)
      · refine Or.inr ?_
        intro e hvalue
        exact congrArg Reduction.result
          (reduce_obeyed.first_starved symbol apply _ (hstays e hvalue))
    · -- The first value comes from above the expression, which the second one reaches or not.
      have hfirst : ∀ e : Expression, reduce (upper ++ e.onto below) =
          ⟨some first, (reduce upper).remaining ++ e.onto below⟩ :=
        fun e => reduce_append_of_some hupper (e.onto below)
      rcases ih₂ hlower with ⟨y, rest, hrest, hthrough⟩ | hstays
      · refine Or.inl ⟨apply first y, rest, hrest, ?_⟩
        intro e hvalue
        exact reduce_obeyed.binary symbol apply _ first _ y rest (hfirst e) (hthrough e hvalue)
      · refine Or.inr ?_
        intro e hvalue
        exact congrArg Reduction.result
          (reduce_obeyed.second_starved symbol apply _ first _ (hfirst e) (hstays e hvalue))
    · simp [hreduce] at h

/-! ### One expression for another -/

/-- How reductions compare that have, between the same tokens, one expression or another one: both
went through it and left the same, both ended above it, or both are starved. -/
inductive Substituted (stack below : Stack) (e e' : Expression) : Reduction → Reduction → Prop where
  | through (x : Float) {rest : Stack} (h : rest <:+ below) :
    Substituted stack below e e' ⟨some x, rest⟩ ⟨some x, rest⟩
  | above (x : Float) {rest : Stack} (h : rest <:+ stack) :
    Substituted stack below e e' ⟨some x, rest ++ e.onto below⟩ ⟨some x, rest ++ e'.onto below⟩
  | starved :
    Substituted stack below e e' (.starved (stack ++ e.onto below))
      (.starved (stack ++ e'.onto below))

theorem reduce_substituted (stack below : Stack) {e e' : Expression} (h : e.value = e'.value) :
    Substituted stack below e e' (reduce (stack ++ e.onto below))
      (reduce (stack ++ e'.onto below)) := by
  cases hresult : (reduce stack).result with
  | some x =>
    rw [reduce_append_of_some hresult, reduce_append_of_some hresult]
    exact .above x (remaining_suffix stack)
  | none =>
    rcases reduce_onto_of_starved hresult e'.value below with ⟨y, rest, hrest, hthrough⟩ | hstays
    · rw [hthrough e h, hthrough e' rfl]
      exact .through y hrest
    · rw [reduce_eq_starved (hstays e h), reduce_eq_starved (hstays e' rfl)]
      exact .starved

end Rule

/-! ### Constant folding -/

theorem Expression.reverse_append_code (before after : List Token) (e : Expression) :
    (before ++ e.code ++ after).reverse = after.reverse ++ e.onto before.reverse := by
  rw [List.reverse_append, List.reverse_append, onto]

/-- Tokens that reduce completely may be replaced by their value, whatever stands before and behind
them. The result is the same. Where there is one, both reductions leave the same tokens of those
before, or both leave all of these, the tokens in question and the same ones of those behind. Where
there is none, each leaves its own input. -/
theorem reduceTracing_folds_constants (tracing : Bool) (before tokens after : List Token)
    (value : Float) (hcomplete : (reduceTracing tracing tokens.reverse).1.isComplete = true)
    (hvalue : (reduceTracing tracing tokens.reverse).1.result = some value) :
    let plain := (reduceTracing tracing (before ++ tokens ++ after).reverse).1
    let folded := (reduceTracing tracing (before ++ [Token.operand value] ++ after).reverse).1
    plain.result = folded.result ∧
    (plain.result.isSome = true →
      (∃ rest : List Token, rest <+: before ∧ plain.remaining = rest.reverse ∧
        folded.remaining = rest.reverse) ∨
      ∃ rest : List Token, rest <+: after ∧ plain.remaining = (before ++ tokens ++ rest).reverse ∧
        folded.remaining = (before ++ [Token.operand value] ++ rest).reverse) ∧
    (plain.result = none →
      plain.remaining = (before ++ tokens ++ after).reverse ∧
      folded.remaining = (before ++ [Token.operand value] ++ after).reverse) := by
  intro plain folded
  rw [reduceTracing_fst] at hcomplete hvalue
  obtain ⟨e, rfl⟩ := (Rule.isComplete_reduce_reverse_iff tokens).mp hcomplete
  have hsame : e.value = (Expression.operand value).value := by
    have hreduce : Rule.reduce e.code.reverse = ⟨some e.value, []⟩ :=
      Rule.reduce_reverse_code [] e
    rw [hreduce] at hvalue
    exact Option.some.inj hvalue
  have hplain : plain = Rule.reduce (after.reverse ++ e.onto before.reverse) := by
    rw [← Expression.reverse_append_code]
    exact reduceTracing_fst tracing _
  have hfolded : folded =
      Rule.reduce (after.reverse ++ (Expression.operand value).onto before.reverse) := by
    rw [← Expression.reverse_append_code]
    exact reduceTracing_fst tracing _
  have hreductions := Rule.reduce_substituted after.reverse before.reverse hsame
  rw [← hplain, ← hfolded] at hreductions
  clear_value plain folded
  cases hreductions with
  | @through x rest h =>
    have hrest : rest = rest.reverse.reverse := (List.reverse_reverse rest).symm
    refine ⟨rfl, ?_, by simp⟩
    intro _
    exact Or.inl ⟨rest.reverse, Stack.reverse_prefix_of_suffix h, hrest, hrest⟩
  | @above x rest h =>
    refine ⟨rfl, ?_, by simp⟩
    intro _
    refine Or.inr ⟨rest.reverse, Stack.reverse_prefix_of_suffix h, ?_, ?_⟩
    · rw [Expression.reverse_append_code, List.reverse_reverse]
    · show rest ++ (Expression.operand value).onto before.reverse =
        (before ++ (Expression.operand value).code ++ rest.reverse).reverse
      rw [Expression.reverse_append_code, List.reverse_reverse]
  | starved =>
    refine ⟨rfl, by simp, ?_⟩
    intro _
    exact ⟨(Expression.reverse_append_code before after e).symm,
      (Expression.reverse_append_code before after (.operand value)).symm⟩

/-- The difference in `9 1 6 2 − 5 + ×` and in the starved `+ 6 2 − √ ×`. -/
theorem difference_folds :
    let tokens : List Token :=
      [.operand 6, .operand 2, .operation Operation.subtract]
    let inProduct (row : List Token) : List Token :=
      [.operand 9, .operand 1] ++ row ++
        [.operand 5, .operation Operation.add, .operation Operation.multiply]
    let inStarved (row : List Token) : List Token :=
      [.operation Operation.add] ++ row ++
        [.operation Operation.squareRoot, .operation Operation.multiply]
    (reduceTracing true tokens.reverse).1 = ⟨some (6 - 2), []⟩ ∧
    (reduceTracing true (inProduct tokens).reverse).1.result =
      (reduceTracing true (inProduct [.operand (6 - 2)]).reverse).1.result ∧
    (reduceTracing true (inStarved tokens).reverse).1.result =
      (reduceTracing true (inStarved [.operand (6 - 2)]).reverse).1.result := by
  intro tokens inProduct inStarved
  have hreduce : (reduceTracing true tokens.reverse).1 = ⟨some (6 - 2), []⟩ := by
    rw [reduceTracing_fst]
    exact Rule.reduce_reverse_code []
      (.binary "−" (fun top second => second - top) (.operand 6) (.operand 2))
  have hcomplete : (reduceTracing true tokens.reverse).1.isComplete = true := by
    rw [hreduce]
    rfl
  have hvalue := congrArg Reduction.result hreduce
  exact ⟨hreduce, (reduceTracing_folds_constants true _ tokens _ _ hcomplete hvalue).1,
    (reduceTracing_folds_constants true _ tokens _ _ hcomplete hvalue).1⟩

end ReversePolish

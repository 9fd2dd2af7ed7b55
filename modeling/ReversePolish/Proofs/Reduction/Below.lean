import ReversePolish.Proofs.Reduction.LeftToRight

/-!
# What lies below a stack

A reduction that gives a value does not look at the tokens below those that it
consumes: these give the same value on top of any other stack, and none of them
can be spared. Where a reduction gives no value, it could still look further down;
but if the tokens below have no value either, it finds nothing there: a starved
part of a stack is to everything above it like the bottom.
-/

namespace ReversePolish

theorem Expression.onto_append (e : Expression) (stack below : Stack) :
    e.onto stack ++ below = e.onto (stack ++ below) := by
  simp only [onto, List.append_assoc]

theorem Stack.reverse_prefix_of_suffix {stack : Stack} {tokens : List Token}
    (h : stack <:+ tokens.reverse) : stack.reverse <+: tokens := by
  have hprefix := h.reverse
  rwa [List.reverse_reverse] at hprefix

theorem Stack.values_append (stack below : Stack) :
    Stack.values (stack ++ below) = stack.reverse.foldl ValueStack.enter (Stack.values below) := by
  rw [Stack.values, List.reverse_append, ValueStack.run_append]
  rfl

namespace Rule

theorem remaining_suffix (stack : Stack) : (reduce stack).remaining <:+ stack := by
  rcases reduce_cases stack with ⟨e, rest, hstack, hreduce⟩ | hstarved
  · rw [hreduce, hstack]
    exact List.suffix_append e.code.reverse rest
  · rw [hstarved]
    exact List.suffix_refl stack

theorem reduce_append_of_some {stack : Stack} {x : Float} (h : (reduce stack).result = some x)
    (below : Stack) :
    reduce (stack ++ below) = ⟨some x, (reduce stack).remaining ++ below⟩ := by
  obtain ⟨e, hvalue, hstack⟩ := Expression.exists_onto h
  have happend : stack ++ below = e.onto ((reduce stack).remaining ++ below) := by
    rw [← e.onto_append, ← hstack]
  rw [happend, e.reduce_onto, hvalue]

/-- A starved part of a stack takes no part in what is reduced above it. -/
theorem reduce_append_of_starved {below : Stack} (h : (reduce below).result = none)
    (stack : Stack) :
    reduce (stack ++ below) = ⟨(reduce stack).result, (reduce stack).remaining ++ below⟩ := by
  cases hresult : (reduce stack).result with
  | some x => exact reduce_append_of_some hresult below
  | none =>
    -- The part above has no value of its own, and the value stack below it is empty: so the
    -- value stack of the whole is the one of the part above.
    have hvalues : Stack.values (stack ++ below) = Stack.values stack := by
      rw [Stack.values_append, Stack.values_of_starved h]
      rfl
    have hwhole : (reduce (stack ++ below)).result = none := by
      rw [← Stack.head?_values, hvalues, Stack.head?_values, hresult]
    rw [reduce_eq_starved hwhole, reduce_eq_starved hresult]
    rfl

theorem result_eq_none_of_prefix {stack part : Stack} {x : Float}
    (h : reduce stack = ⟨some x, []⟩) (hpart : part <+: stack) (hproper : part ≠ stack) :
    (reduce part).result = none := by
  obtain ⟨lower, rfl⟩ := hpart
  cases hresult : (reduce part).result with
  | none => rfl
  | some y =>
    -- A value of the upper part would leave the lower one over, but nothing is left over.
    have hwhole := congrArg Reduction.remaining (reduce_append_of_some hresult lower)
    rw [h] at hwhole
    have hlower : lower = [] := (List.append_eq_nil_iff.mp hwhole.symm).2
    exact absurd (by rw [hlower, List.append_nil]) hproper

end Rule

/-- A reduction with a value gives it above any further tokens, which then remain as well. The
consumed tokens are at least one and stand by themselves: alone they reduce completely to that
value, above any other tokens they leave exactly those, and without the lowest of them there is no
value at all. -/
theorem reduceTracing_consumed_stands_alone (tracing : Bool) (tokens rest : List Token)
    (value : Float)
    (h : (reduceTracing tracing tokens.reverse).1 = ⟨some value, rest.reverse⟩) :
    (∀ below : List Token, (reduceTracing tracing (below ++ tokens).reverse).1 =
      ⟨some value, (below ++ rest).reverse⟩) ∧
    rest <+: tokens ∧ rest ≠ tokens ∧
    ∀ consumed : List Token, tokens = rest ++ consumed →
      (reduceTracing tracing consumed.reverse).1 = ⟨some value, []⟩ ∧
      (reduceTracing tracing consumed.reverse).1.isComplete = true ∧
      (∀ other : List Token, (reduceTracing tracing (other ++ consumed).reverse).1 =
        ⟨some value, other.reverse⟩) ∧
      ∀ part : List Token, part <:+ consumed → part ≠ consumed →
        (reduceTracing tracing part.reverse).1.result = none := by
  simp only [reduceTracing_fst] at h ⊢
  obtain ⟨e, rfl, rfl⟩ := (Rule.reduce_reverse_eq_some_iff tokens rest value).mp h
  refine ⟨?_, List.prefix_append rest e.code, ?_, ?_⟩
  · intro below
    rw [← List.append_assoc]
    exact Rule.reduce_reverse_code (below ++ rest) e
  · intro hall
    exact e.code_ne_nil (List.self_eq_append_right.mp hall)
  · intro consumed hconsumed
    obtain rfl := List.append_cancel_left hconsumed
    have halone : Rule.reduce e.code.reverse = ⟨some e.value, []⟩ :=
      Rule.reduce_reverse_code [] e
    refine ⟨halone, by rw [halone]; rfl, ?_, ?_⟩
    · intro other
      exact Rule.reduce_reverse_code other e
    · intro part hpart hproper
      have hupper : part.reverse ≠ e.code.reverse := fun heq => hproper (List.reverse_inj.mp heq)
      exact Rule.result_eq_none_of_prefix halone hpart.reverse hupper

/-- The sum in `9 3 4 +`: above the starved `2 ×` it has the same value, and `4 +` has none. -/
theorem sum_stands_alone :
    let tokens : List Token :=
      [.operand 9, .operand 3, .operand 4, .operation Operation.add]
    let below : List Token := [.operand 2, .operation Operation.multiply]
    (reduceTracing true tokens.reverse).1 = ⟨some (3 + 4), List.reverse [.operand 9]⟩ ∧
    (reduceTracing true (below ++ tokens).reverse).1 =
      ⟨some (3 + 4), (below ++ [Token.operand 9]).reverse⟩ ∧
    (reduceTracing true (below ++ tokens.drop 1).reverse).1 = ⟨some (3 + 4), below.reverse⟩ ∧
    (reduceTracing true (tokens.drop 2).reverse).1.result = none := by
  intro tokens below
  have hreduce : (reduceTracing true tokens.reverse).1 =
      ⟨some (3 + 4), List.reverse [.operand 9]⟩ := by
    rw [reduceTracing_fst]
    exact Rule.reduce_reverse_code [.operand 9]
      (.binary "+" (fun top second => second + top) (.operand 3) (.operand 4))
  have hmain := reduceTracing_consumed_stands_alone true tokens [.operand 9] (3 + 4) hreduce
  have hconsumed := hmain.2.2.2 (tokens.drop 1) rfl
  refine ⟨hreduce, hmain.1 below, hconsumed.2.2.1 below, ?_⟩
  exact hconsumed.2.2.2 (tokens.drop 2) ⟨[Token.operand 3], rfl⟩ (by simp [tokens])

end ReversePolish

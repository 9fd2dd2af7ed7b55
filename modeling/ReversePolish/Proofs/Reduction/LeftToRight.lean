import ReversePolish.Demand
import ReversePolish.Proofs.Reduction.Postfix
import ReversePolish.Registry.Standard
import ReversePolish.ValueStack
import Mathlib.Data.List.Basic

/-!
# Reduction and evaluation from left to right

A reduction starts at the last token and goes down; the value stack starts at
the first token and goes up. The value of a reduction is the top of the value
stack, and the tokens that it leaves have the rest of the value stack as theirs.
So reducing again and again what remains takes the value stack down from its
top, and a starved operation is where the value stack has been emptied.
-/

namespace ReversePolish

namespace ValueStack

/-! ### The value stack along an expression -/

theorem foldl_enter_code (e : Expression) (values : List Float) :
    e.code.foldl enter values = e.value :: values := by
  induction e generalizing values with
  | operand value => rfl
  | constant symbol value => rfl
  | unary symbol apply argument ih =>
    rw [Expression.code, List.foldl_append, ih]
    rfl
  | binary symbol apply left right ihleft ihright =>
    rw [Expression.code, List.foldl_append, List.foldl_append, ihleft, ihright]
    rfl

theorem run_append (a b : List Token) : run (a ++ b) = b.foldl enter (run a) := by
  simp only [run, List.foldl_append]

/-! ### Supply -/

theorem supplied_cons (height : Nat) (token : Token) (rest : List Token) :
    supplied height (token :: rest) =
      (decide (token.operandCount ≤ height) &&
        supplied (height - token.operandCount + 1) rest) := by
  cases token with
  | operand value => simp [supplied]
  | operation op => rfl

theorem length_enter {values : List Float} {token : Token}
    (h : token.operandCount ≤ values.length) :
    (enter values token).length = values.length - token.operandCount + 1 := by
  match token, values with
  | .operand value, values => rfl
  | .operation ⟨symbol, .constant value⟩, values => rfl
  | .operation ⟨symbol, .unary apply⟩, [] => simp at h
  | .operation ⟨symbol, .unary apply⟩, a :: rest => rfl
  | .operation ⟨symbol, .binary apply⟩, [] => simp at h
  | .operation ⟨symbol, .binary apply⟩, [a] => simp at h
  | .operation ⟨symbol, .binary apply⟩, a :: b :: rest => rfl

theorem supplied_iff (values : List Float) (tokens : List Token) :
    supplied values.length tokens = true ↔
      ∀ before token after, tokens = before ++ token :: after →
        token.operandCount ≤ (before.foldl enter values).length := by
  induction tokens generalizing values with
  | nil => simp [supplied]
  | cons first rest ih =>
    rw [supplied_cons, Bool.and_eq_true, decide_eq_true_iff]
    constructor
    · intro h before token after hsplit
      obtain ⟨hfirst, hrest⟩ := h
      rw [← length_enter hfirst] at hrest
      cases before with
      | nil =>
        obtain ⟨rfl, rfl⟩ := List.cons.inj hsplit
        exact hfirst
      | cons head before =>
        obtain ⟨rfl, htail⟩ := List.cons.inj hsplit
        exact (ih (enter values first)).mp hrest before token after htail
    · intro h
      have hfirst : first.operandCount ≤ values.length := h [] first rest rfl
      refine ⟨hfirst, ?_⟩
      rw [← length_enter hfirst, ih]
      intro before token after hsplit
      exact h (first :: before) token after (by rw [hsplit, List.cons_append])

theorem supplied_code (e : Expression) (height : Nat) (rest : List Token) :
    supplied height (e.code ++ rest) = supplied (height + 1) rest := by
  induction e generalizing height rest with
  | operand value => rfl
  | constant symbol value => rfl
  | unary symbol apply argument ih =>
    rw [Expression.code, List.append_assoc, ih, List.singleton_append, supplied_cons]
    simp
  | binary symbol apply left right ihleft ihright =>
    rw [Expression.code, List.append_assoc, List.append_assoc, ihleft, ihright,
      List.singleton_append, supplied_cons]
    simp

theorem supplied_of_append {height : Nat} {a b : List Token}
    (h : supplied height (a ++ b) = true) : supplied height a = true := by
  induction a generalizing height with
  | nil => rfl
  | cons token rest ih =>
    rw [List.cons_append, supplied_cons, Bool.and_eq_true] at h
    rw [supplied_cons, Bool.and_eq_true]
    exact ⟨h.1, ih h.2⟩

/-- A machine that never lacks a value has one as soon as it has seen a token. -/
theorem eq_nil_of_run_eq_nil {tokens : List Token} (hsupplied : supplied 0 tokens = true)
    (hrun : run tokens = []) : tokens = [] := by
  rcases List.eq_nil_or_concat' tokens with hnil | ⟨before, last, rfl⟩
  · exact hnil
  · have hlast := (supplied_iff [] (before ++ [last])).mp hsupplied before last [] rfl
    have hlength := length_enter hlast
    rw [run_concat] at hrun
    change (enter (run before) last).length = _ at hlength
    rw [hrun, List.length_nil] at hlength
    omega

end ValueStack

/-! ### The values of a stack -/

/-- The value stack to which the tokens of a stack lead, entered from the bottom to the top. -/
def Stack.values (stack : Stack) : List Float := ValueStack.run stack.reverse

namespace Stack

theorem values_reverse (tokens : List Token) :
    Stack.values tokens.reverse = ValueStack.run tokens := by
  rw [Stack.values, List.reverse_reverse]

theorem values_cons (token : Token) (stack : Stack) :
    Stack.values (token :: stack) = ValueStack.enter (Stack.values stack) token := by
  rw [Stack.values, List.reverse_cons, ValueStack.run_concat]
  rfl

theorem values_onto (e : Expression) (stack : Stack) :
    Stack.values (e.onto stack) = e.value :: Stack.values stack := by
  rw [Stack.values, Expression.onto, List.reverse_append, List.reverse_reverse,
    ValueStack.run_append, ValueStack.foldl_enter_code]
  rfl

theorem values_of_starved {stack : Stack} (h : (Rule.reduce stack).result = none) :
    Stack.values stack = [] := by
  induction stack using Rule.call_induction with
  | empty => rfl
  | operand value below => simp at h
  | constant symbol value below => simp at h
  | unary symbol apply below ih =>
    rcases Rule.reduce_unary_cases symbol apply below with ⟨hb, -⟩ | ⟨a, -, hreduce⟩
    · rw [values_cons, ih hb]
      rfl
    · simp [hreduce] at h
  | binary symbol apply below ih₁ ih₂ =>
    rcases Rule.reduce_binary_cases symbol apply below with
      ⟨hb, -⟩ | ⟨first, hb, hr, -⟩ | ⟨first, second, -, -, hreduce⟩
    · rw [values_cons, ih₁ hb]
      rfl
    · -- One value lies on top of a part that has none: too few for the operation.
      obtain ⟨e, -, hbelow⟩ := Expression.exists_onto hb
      rw [values_cons, hbelow, values_onto, ih₂ hr]
      rfl
    · simp [hreduce] at h

theorem values_eq (stack : Stack) :
    Stack.values stack =
      match (Rule.reduce stack).result with
      | none => []
      | some x => x :: Stack.values (Rule.reduce stack).remaining := by
  rcases Rule.reduce_cases stack with ⟨e, rest, rfl, hreduce⟩ | hstarved
  · rw [hreduce, values_onto]
  · rw [values_of_starved (by rw [hstarved]; rfl), hstarved]
    rfl

theorem head?_values (stack : Stack) : (Stack.values stack).head? = (Rule.reduce stack).result := by
  rw [values_eq]
  cases (Rule.reduce stack).result with
  | none => rfl
  | some x => rfl

/-- The values of a stack by one reduction after the other, each on what the one before it left,
for as long as there is a value. -/
def successiveValues (tracing : Bool) (stack : Stack) : List Float :=
  match _h : (reduceTracing tracing stack).1.result with
  | none => []
  | some x => x :: successiveValues tracing (reduceTracing tracing stack).1.remaining
termination_by stack.length
decreasing_by
  rw [reduceTracing_fst] at _h ⊢
  exact Rule.length_remaining_lt _h

theorem successiveValues_eq (tracing : Bool) (stack : Stack) :
    successiveValues tracing stack = Stack.values stack := by
  induction hn : stack.length using Nat.strongRecOn generalizing stack with
  | ind n ih =>
    rw [successiveValues, values_eq]
    split
    next h =>
      rw [reduceTracing_fst] at h
      rw [h]
    next x h =>
      rw [reduceTracing_fst] at h ⊢
      have hshorter := Rule.length_remaining_lt h
      rw [h, ih _ (hn ▸ hshorter) _ rfl]

end Stack

/-! ### The two evaluators agree -/

theorem Rule.isComplete_reduce_iff_supplied (tokens : List Token) :
    (Rule.reduce tokens.reverse).isComplete = true ↔
      ValueStack.supplied 0 tokens = true ∧ (ValueStack.run tokens).length = 1 := by
  rw [Rule.isComplete_reduce_reverse_iff]
  constructor
  · intro h
    obtain ⟨e, rfl⟩ := h
    have hsupplied := ValueStack.supplied_code e 0 []
    rw [List.append_nil] at hsupplied
    refine ⟨hsupplied, ?_⟩
    rw [ValueStack.run, ValueStack.foldl_enter_code]
    rfl
  · intro h
    obtain ⟨hsupplied, hlength⟩ := h
    have hresult : (Rule.reduce tokens.reverse).result ≠ none := by
      intro hnone
      have hvalues := Stack.values_of_starved hnone
      rw [Stack.values_reverse] at hvalues
      rw [hvalues] at hlength
      simp at hlength
    obtain ⟨x, hx⟩ := Option.ne_none_iff_exists'.mp hresult
    obtain ⟨e, -, hstack⟩ := Expression.exists_onto hx
    rw [← List.reverse_reverse (Rule.reduce tokens.reverse).remaining,
      Expression.reverse_eq_onto_iff] at hstack
    -- One value is left and the expression has it, so what stands before the expression has none.
    rw [hstack, ValueStack.run_append, ValueStack.foldl_enter_code, List.length_cons,
      Nat.add_eq_right, List.length_eq_zero_iff] at hlength
    rw [hstack] at hsupplied
    have hrest := ValueStack.eq_nil_of_run_eq_nil (ValueStack.supplied_of_append hsupplied) hlength
    rw [hrest, List.nil_append] at hstack
    exact ⟨e, hstack⟩

/-- A reduction takes the top off the value stack and leaves tokens whose value stack is the rest;
it finds nothing exactly where the value stack is empty. Every success consumes tokens, and the
successive values are the value stack from its top. A reduction is complete where no operation
ever lacks a value and one value is left at the end. -/
theorem reduceTracing_agrees_with_run (tracing : Bool) (tokens : List Token) :
    (∀ (value : Float) (rest : List Token),
      (reduceTracing tracing tokens.reverse).1 = ⟨some value, rest.reverse⟩ →
        ValueStack.run tokens = value :: ValueStack.run rest ∧
          ∃ consumed, consumed ≠ [] ∧ tokens = rest ++ consumed) ∧
    ((reduceTracing tracing tokens.reverse).1.result = none ↔ ValueStack.run tokens = []) ∧
    Stack.successiveValues tracing tokens.reverse = ValueStack.run tokens ∧
    ((reduceTracing tracing tokens.reverse).1.isComplete = true ↔
      ValueStack.supplied 0 tokens = true ∧ (ValueStack.run tokens).length = 1) ∧
    (ValueStack.supplied 0 tokens = true ↔
      ∀ before token after, tokens = before ++ token :: after →
        token.operandCount ≤ (ValueStack.run before).length) := by
  rw [reduceTracing_fst]
  refine ⟨?_, ?_, ?_, Rule.isComplete_reduce_iff_supplied tokens,
    ValueStack.supplied_iff [] tokens⟩
  · intro value rest h
    obtain ⟨e, htokens, rfl⟩ := (Rule.reduce_reverse_eq_some_iff tokens rest value).mp h
    refine ⟨?_, e.code, e.code_ne_nil, htokens⟩
    rw [htokens, ValueStack.run_append, ValueStack.foldl_enter_code]
  · rw [← Stack.head?_values, Stack.values_reverse, List.head?_eq_none_iff]
  · rw [Stack.successiveValues_eq, Stack.values_reverse]

/-- In `9 6 2 −` the difference is on top and the 9 is left. -/
theorem run_of_difference :
    ValueStack.run [.operand 9, .operand 6, .operand 2, .operation Operation.subtract] =
      (6 - 2) :: ValueStack.run [.operand 9] := by
  have hreduce : (reduceTracing true (List.reverse
      [.operand 9, .operand 6, .operand 2, .operation Operation.subtract])).1 =
        ⟨some (6 - 2), List.reverse [.operand 9]⟩ := by
    rw [reduceTracing_fst]
    exact (Rule.reduce_reverse_eq_some_iff _ _ _).mpr
      ⟨.binary "−" (fun top second => second - top) (.operand 6) (.operand 2), rfl, rfl⟩
  exact ((reduceTracing_agrees_with_run true _).1 (6 - 2) [.operand 9] hreduce).1

end ReversePolish

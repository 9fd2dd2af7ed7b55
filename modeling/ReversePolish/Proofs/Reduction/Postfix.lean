import ReversePolish.Expression
import ReversePolish.Proofs.Reduction.Simulation
import Mathlib.Data.Set.Subsingleton

/-!
# Reduction reads the code of one expression

A stack has at most one expression on top of it: the tokens determine the tree
and what lies below. Reducing finds that expression, with its value and the
tokens below it, and finds nothing exactly where there is none. So the stacks
that reduce completely are the codes of single expressions.
-/

namespace ReversePolish

namespace Expression

/-! ### One expression on top -/

theorem onto_inj {e e' : Expression} {stack stack' : Stack} (h : e.onto stack = e'.onto stack') :
    e = e' ∧ stack = stack' := by
  induction e generalizing e' stack stack' with
  | operand value =>
    cases e' with
    | operand value' =>
      simp only [onto_operand, List.cons.injEq, Token.operand.injEq] at h
      obtain ⟨rfl, rfl⟩ := h
      exact ⟨rfl, rfl⟩
    | _ => simp [onto_operand, onto_constant, onto_unary, onto_binary] at h
  | constant symbol value =>
    cases e' with
    | constant symbol' value' =>
      simp only [onto_constant, List.cons.injEq, Token.operation.injEq, Operation.mk.injEq,
        Action.constant.injEq] at h
      obtain ⟨⟨rfl, rfl⟩, rfl⟩ := h
      exact ⟨rfl, rfl⟩
    | _ => simp [onto_operand, onto_constant, onto_unary, onto_binary] at h
  | unary symbol apply argument ih =>
    cases e' with
    | unary symbol' apply' argument' =>
      simp only [onto_unary, List.cons.injEq, Token.operation.injEq, Operation.mk.injEq,
        Action.unary.injEq] at h
      obtain ⟨⟨rfl, rfl⟩, hargument⟩ := h
      obtain ⟨rfl, rfl⟩ := ih hargument
      exact ⟨rfl, rfl⟩
    | _ => simp [onto_operand, onto_constant, onto_unary, onto_binary] at h
  | binary symbol apply left right ihleft ihright =>
    cases e' with
    | binary symbol' apply' left' right' =>
      simp only [onto_binary, List.cons.injEq, Token.operation.injEq, Operation.mk.injEq,
        Action.binary.injEq] at h
      obtain ⟨⟨rfl, rfl⟩, hsides⟩ := h
      -- The right side is on top; once it is known, so is the stack that the left side tops.
      obtain ⟨rfl, hleft⟩ := ihright hsides
      obtain ⟨rfl, rfl⟩ := ihleft hleft
      exact ⟨rfl, rfl⟩
    | _ => simp [onto_operand, onto_constant, onto_unary, onto_binary] at h

theorem reverse_eq_onto_iff (tokens rest : List Token) (e : Expression) :
    tokens.reverse = e.onto rest.reverse ↔ tokens = rest ++ e.code := by
  have hcode : (rest ++ e.code).reverse = e.onto rest.reverse := by
    rw [List.reverse_append]
    rfl
  rw [← hcode, List.reverse_inj]

theorem append_code_inj {e e' : Expression} {rest rest' : List Token}
    (h : rest ++ e.code = rest' ++ e'.code) : rest = rest' ∧ e = e' := by
  have hreverse := (reverse_eq_onto_iff (rest ++ e.code) rest' e').mpr h
  rw [(reverse_eq_onto_iff (rest ++ e.code) rest e).mpr rfl] at hreverse
  obtain ⟨he, hrest⟩ := onto_inj hreverse
  exact ⟨List.reverse_inj.mp hrest, he⟩

theorem code_ne_nil (e : Expression) : e.code ≠ [] := by
  cases e <;> simp [code]

theorem code_inj {e e' : Expression} (h : e.code = e'.code) : e = e' := by
  have happend : [] ++ e.code = [] ++ e'.code := by rw [h]
  exact (append_code_inj happend).2

/-! ### Reducing an expression -/

theorem reduce_onto (e : Expression) (stack : Stack) :
    Rule.reduce (e.onto stack) = ⟨some e.value, stack⟩ := by
  induction e generalizing stack with
  | operand value => rw [onto_operand, Rule.reduce_operand]; rfl
  | constant symbol value => rw [onto_constant, Rule.reduce_constant]; rfl
  | unary symbol apply argument ih => rw [onto_unary, Rule.reduce_unary, ih]; rfl
  | binary symbol apply left right ihleft ihright =>
    rw [onto_binary, Rule.reduce_binary, ihright]
    dsimp only
    rw [ihleft]
    rfl

theorem exists_onto {stack : Stack} {x : Float} (h : (Rule.reduce stack).result = some x) :
    ∃ e : Expression, e.value = x ∧ stack = e.onto (Rule.reduce stack).remaining := by
  induction stack using Rule.call_induction generalizing x with
  | empty => simp at h
  | operand value below =>
    rw [Rule.reduce_operand] at h ⊢
    exact ⟨operand value, Option.some.inj h, rfl⟩
  | constant symbol value below =>
    rw [Rule.reduce_constant] at h ⊢
    exact ⟨constant symbol value, Option.some.inj h, rfl⟩
  | unary symbol apply below ih =>
    rcases Rule.reduce_unary_cases symbol apply below with ⟨-, hreduce⟩ | ⟨a, hb, hreduce⟩
    · simp [hreduce] at h
    · rw [hreduce] at h ⊢
      obtain ⟨argument, hvalue, hargument⟩ := ih hb
      refine ⟨unary symbol apply argument, ?_, ?_⟩
      · rw [value, hvalue]
        exact Option.some.inj h
      · rw [onto_unary, ← hargument]
  | binary symbol apply below ih₁ ih₂ =>
    rcases Rule.reduce_binary_cases symbol apply below with
      ⟨-, hreduce⟩ | ⟨first, -, -, hreduce⟩ | ⟨first, second, hb, hr, hreduce⟩
    · simp [hreduce] at h
    · simp [hreduce] at h
    · rw [hreduce] at h ⊢
      obtain ⟨right, hrightValue, hright⟩ := ih₁ hb
      obtain ⟨left, hleftValue, hleft⟩ := ih₂ hr
      refine ⟨binary symbol apply left right, ?_, ?_⟩
      · rw [value, hrightValue, hleftValue]
        exact Option.some.inj h
      · rw [onto_binary, ← hleft, ← hright]

end Expression

/-! ### The two ways a reduction goes -/

theorem Rule.reduce_cases (stack : Stack) :
    (∃ (e : Expression) (rest : Stack),
      stack = e.onto rest ∧ Rule.reduce stack = ⟨some e.value, rest⟩) ∨
    Rule.reduce stack = .starved stack := by
  cases h : (Rule.reduce stack).result with
  | none => exact Or.inr (Rule.reduce_eq_starved h)
  | some x =>
    obtain ⟨e, -, hstack⟩ := Expression.exists_onto h
    refine Or.inl ⟨e, (Rule.reduce stack).remaining, hstack, ?_⟩
    have hreduce := e.reduce_onto (Rule.reduce stack).remaining
    rwa [← hstack] at hreduce

theorem Rule.reduce_eq_some_iff (stack rest : Stack) (x : Float) :
    Rule.reduce stack = ⟨some x, rest⟩ ↔ ∃ e : Expression, stack = e.onto rest ∧ e.value = x := by
  constructor
  · intro h
    obtain ⟨e, hvalue, hstack⟩ := Expression.exists_onto (congrArg Reduction.result h)
    rw [h] at hstack
    exact ⟨e, hstack, hvalue⟩
  · intro h
    obtain ⟨e, rfl, rfl⟩ := h
    exact e.reduce_onto rest

theorem Rule.reduce_eq_starved_iff (stack : Stack) :
    Rule.reduce stack = .starved stack ↔
      ∀ (e : Expression) (rest : Stack), stack ≠ e.onto rest := by
  constructor
  · intro h e rest hstack
    have hresult := congrArg Reduction.result h
    rw [hstack, e.reduce_onto] at hresult
    cases hresult
  · intro h
    rcases Rule.reduce_cases stack with ⟨e, rest, hstack, -⟩ | hstarved
    · exact absurd hstack (h e rest)
    · exact hstarved

theorem Rule.isComplete_reduce_iff (stack : Stack) :
    (Rule.reduce stack).isComplete = true ↔ ∃ e : Expression, stack = e.onto [] := by
  rw [Reduction.isComplete, Bool.and_eq_true, List.isEmpty_iff]
  constructor
  · intro h
    obtain ⟨x, hresult⟩ := Option.isSome_iff_exists.mp h.1
    obtain ⟨e, -, hstack⟩ := Expression.exists_onto hresult
    rw [h.2] at hstack
    exact ⟨e, hstack⟩
  · intro h
    obtain ⟨e, rfl⟩ := h
    rw [e.reduce_onto]
    exact ⟨rfl, rfl⟩

/-! ### Tokens in reading order -/

theorem Rule.reduce_reverse_eq_some_iff (tokens rest : List Token) (x : Float) :
    Rule.reduce tokens.reverse = ⟨some x, rest.reverse⟩ ↔
      ∃ e : Expression, tokens = rest ++ e.code ∧ e.value = x := by
  simp only [Rule.reduce_eq_some_iff, Expression.reverse_eq_onto_iff]

theorem Rule.reduce_reverse_code (rest : List Token) (e : Expression) :
    Rule.reduce (rest ++ e.code).reverse = ⟨some e.value, rest.reverse⟩ :=
  (Rule.reduce_reverse_eq_some_iff (rest ++ e.code) rest e.value).mpr ⟨e, rfl, rfl⟩

theorem Rule.reduce_reverse_eq_starved_iff (tokens : List Token) :
    Rule.reduce tokens.reverse = .starved tokens.reverse ↔
      ¬ ∃ (rest : List Token) (e : Expression), tokens = rest ++ e.code := by
  rw [Rule.reduce_eq_starved_iff]
  constructor
  · intro h hcode
    obtain ⟨rest, e, htokens⟩ := hcode
    exact h e rest.reverse ((Expression.reverse_eq_onto_iff tokens rest e).mpr htokens)
  · intro h e rest hstack
    rw [← List.reverse_reverse rest, Expression.reverse_eq_onto_iff] at hstack
    exact h ⟨rest.reverse, e, hstack⟩

theorem Rule.isComplete_reduce_reverse_iff (tokens : List Token) :
    (Rule.reduce tokens.reverse).isComplete = true ↔ ∃ e : Expression, tokens = e.code := by
  have hcode : ∀ e : Expression, tokens.reverse = e.onto [] ↔ tokens = e.code :=
    fun e => Expression.reverse_eq_onto_iff tokens [] e
  simp only [Rule.isComplete_reduce_iff, hcode]

/-- Tokens end in the code of at most one expression. A reduction gives that expression's value and
leaves what stands before its code; without one it gives nothing and leaves all. It is complete
for the code of a single expression. -/
theorem reduceTracing_accepts_postfix (tracing : Bool) (tokens : List Token) :
    {p : List Token × Expression | tokens = p.1 ++ p.2.code}.Subsingleton ∧
    (∀ (rest : List Token) (value : Float),
      (reduceTracing tracing tokens.reverse).1 = ⟨some value, rest.reverse⟩ ↔
        ∃ e : Expression, tokens = rest ++ e.code ∧ e.value = value) ∧
    ((reduceTracing tracing tokens.reverse).1 = ⟨none, tokens.reverse⟩ ↔
      ¬ ∃ (rest : List Token) (e : Expression), tokens = rest ++ e.code) ∧
    ((reduceTracing tracing tokens.reverse).1.isComplete = true ↔
      ∃! e : Expression, tokens = e.code) := by
  rw [reduceTracing_fst]
  refine ⟨?_, Rule.reduce_reverse_eq_some_iff tokens, Rule.reduce_reverse_eq_starved_iff tokens, ?_⟩
  · intro p hp q hq
    have hleft : tokens = p.1 ++ p.2.code := hp
    have hright : tokens = q.1 ++ q.2.code := hq
    obtain ⟨hrest, he⟩ := Expression.append_code_inj (hleft.symm.trans hright)
    exact Prod.ext hrest he
  · rw [Rule.isComplete_reduce_reverse_iff]
    constructor
    · intro h
      obtain ⟨e, he⟩ := h
      have hunique : ∀ e' : Expression, tokens = e'.code → e' = e :=
        fun e' he' => Expression.code_inj (he'.symm.trans he)
      exact ⟨e, he, hunique⟩
    · exact ExistsUnique.exists

end ReversePolish

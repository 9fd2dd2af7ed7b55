import ReversePolish.Calculator.Call
import ReversePolish.Proofs.Reduction.LeftToRight

/-!
# A calculator and its ledger

A calculator reduces its whole stack anew at every entry. A ledger does without:
it keeps the accepted tokens, and a value stack that each of them updates once.
Each call takes the ledger of a calculator to the ledger of the next state, and
its answer is the top of the ledger's value stack. So a run of any length shows
what the ledger shows, and calls that leave the ledger as it is, or begin it
anew, leave no other mark on what is shown later.
-/

namespace ReversePolish

/-- The tokens accepted since the last clearing, in order, and their value stack, newest first. -/
structure Ledger where
  tokens : List Token
  values : List Float

/-- The value stack after one more call. Only an accepted token and clearing change it. -/
def Call.valued (registry : Registry) (values : List Float) : Call → List Float
  | clear => []
  | call =>
    match call.token? registry with
    | none => values
    | some token => ValueStack.enter values token

/-- Whether the answer to a call is the value of the stack. -/
def Call.asksValue : Call → Bool
  | enterOperand _ => true
  | enterSymbol _ => true
  | enterWord _ => true
  | evaluate => true
  | reduce => true
  | updateHistory => false
  | readHistory => false
  | clear => false

theorem Call.eq_of_not_asksValue {call : Call} (h : ¬ call.asksValue = true) :
    call = .updateHistory ∨ call = .readHistory ∨ call = .clear := by
  cases call with
  | updateHistory => exact Or.inl rfl
  | readHistory => exact Or.inr (Or.inl rfl)
  | clear => exact Or.inr (Or.inr rfl)
  | _ => exact absurd rfl h

namespace Ledger

def empty : Ledger := ⟨[], []⟩

def after (registry : Registry) (ledger : Ledger) (call : Call) : Ledger :=
  ⟨call.entered registry ledger.tokens, call.valued registry ledger.values⟩

def answer (ledger : Ledger) (call : Call) : Option Float :=
  if call.asksValue then ledger.values.head? else none

/-- The tokens after each call of a run, and the value of each answer. -/
def observe (registry : Registry) (ledger : Ledger) : List Call → List (List Token × Option Float)
  | [] => []
  | call :: calls =>
    let next := ledger.after registry call
    (next.tokens, next.answer call) :: next.observe registry calls

end Ledger

namespace Calculator

def ledger (c : Calculator) : Ledger := ⟨c.stack.reverse, Stack.values c.stack⟩

/-- The stack after each call of a run, in reading order, and the value of each answer. -/
def observe (c : Calculator) (calls : List Call) : List (List Token × Option Float) :=
  (c.answers calls).map fun answer => (answer.calculator.stack.reverse, answer.value)

/-! ### What one call does -/

theorem reduce_value (c : Calculator) : c.reduce.value = Rule.reduce c.stack :=
  reduceTracing_fst c.tracing c.stack

theorem answer_value (c : Calculator) (events : List Event) :
    (c.answer events).value = (Rule.reduce c.stack).result := by
  rw [← reduce_value]
  rfl

theorem calculator_enterSymbol (c : Calculator) (symbol : String) :
    (c.enterSymbol symbol).calculator =
      match c.registry.resolve symbol with
      | some op => c.push (.operation op)
      | none => c := by
  rw [enterSymbol]
  cases c.registry.resolve symbol with
  | none => rfl
  | some op => rfl

theorem value_enterSymbol (c : Calculator) (symbol : String) :
    (c.enterSymbol symbol).value =
      (Rule.reduce (c.enterSymbol symbol).calculator.stack).result := by
  rw [enterSymbol]
  cases c.registry.resolve symbol with
  | none => exact answer_value c _
  | some op => exact answer_value (c.push (.operation op)) _

theorem calculator_call (c : Calculator) {call : Call} (h : call.asksValue = true) :
    (c.call call).calculator =
      match call.token? c.registry with
      | some token => c.push token
      | none => c := by
  cases call with
  | enterOperand value => rfl
  | enterSymbol symbol =>
    rw [Calculator.call, calculator_enterSymbol, Call.token?]
    cases c.registry.resolve symbol <;> rfl
  | enterWord word =>
    rw [Calculator.call, enterWord, Call.token?]
    cases Decimal.read? word with
    | some value => rfl
    | none =>
      dsimp only
      rw [calculator_enterSymbol]
      cases c.registry.resolve (spelledSymbol word) <;> rfl
  | evaluate => rfl
  | reduce => rfl
  | updateHistory => cases h
  | readHistory => cases h
  | clear => cases h

theorem value_call (c : Calculator) {call : Call} (h : call.asksValue = true) :
    (c.call call).value = (Rule.reduce (c.call call).calculator.stack).result := by
  cases call with
  | enterOperand value => exact answer_value (c.push (.operand value)) []
  | enterSymbol symbol => exact value_enterSymbol c symbol
  | enterWord word =>
    rw [Calculator.call, enterWord]
    cases Decimal.read? word with
    | some value => exact answer_value (c.push (.operand value)) []
    | none => exact value_enterSymbol c (spelledSymbol word)
  | evaluate => exact answer_value c []
  | reduce => exact congrArg Reduction.result (reduce_value c)
  | updateHistory => cases h
  | readHistory => cases h
  | clear => cases h

theorem registry_call (c : Calculator) (call : Call) :
    (c.call call).calculator.registry = c.registry := by
  by_cases h : call.asksValue = true
  · rw [calculator_call c h]
    cases call.token? c.registry <;> rfl
  · rcases Call.eq_of_not_asksValue h with rfl | rfl | rfl <;> rfl

/-! ### Calls and ledgers -/

theorem ledger_push (c : Calculator) (token : Token) :
    (c.push token).ledger =
      ⟨c.ledger.tokens ++ [token], ValueStack.enter c.ledger.values token⟩ := by
  simp only [ledger, push, List.reverse_cons, Stack.values_cons]

end Calculator

/-- A call that enters no token and does not clear leaves the ledger as it is. -/
theorem Ledger.after_of_token?_eq_none {registry : Registry} {call : Call} (ledger : Ledger)
    (htoken : call.token? registry = none) (hclear : call ≠ .clear) :
    ledger.after registry call = ledger := by
  cases call with
  | clear => exact absurd rfl hclear
  | _ => simp only [Ledger.after, Call.entered, Call.valued, htoken, Option.toList_none,
      List.append_nil]

theorem Ledger.after_of_token?_eq_some {registry : Registry} {call : Call} {token : Token}
    (ledger : Ledger) (htoken : call.token? registry = some token) :
    ledger.after registry call =
      ⟨ledger.tokens ++ [token], ValueStack.enter ledger.values token⟩ := by
  cases call with
  | clear => cases htoken
  | _ => simp only [Ledger.after, Call.entered, Call.valued, htoken, Option.toList_some]

namespace Calculator

theorem ledger_call (c : Calculator) (call : Call) :
    (c.call call).calculator.ledger = c.ledger.after c.registry call := by
  by_cases h : call.asksValue = true
  · rw [calculator_call c h]
    cases htoken : call.token? c.registry with
    | none =>
      have hclear : call ≠ .clear := by
        intro hclear
        rw [hclear] at h
        cases h
      rw [Ledger.after_of_token?_eq_none c.ledger htoken hclear]
    | some token => rw [ledger_push, Ledger.after_of_token?_eq_some c.ledger htoken]
  · rcases Call.eq_of_not_asksValue h with rfl | rfl | rfl
    · rw [Ledger.after_of_token?_eq_none c.ledger rfl (by simp)]
      rfl
    · rw [Ledger.after_of_token?_eq_none c.ledger rfl (by simp)]
      rfl
    · rfl

theorem value_call_eq_answer (c : Calculator) (call : Call) :
    (c.call call).value = (c.call call).calculator.ledger.answer call := by
  by_cases h : call.asksValue = true
  · rw [value_call c h, ← Stack.head?_values, Ledger.answer, if_pos h]
    rfl
  · rcases Call.eq_of_not_asksValue h with rfl | rfl | rfl <;> rfl

/-! ### Runs -/

theorem observe_eq (c : Calculator) (calls : List Call) :
    c.observe calls = c.ledger.observe c.registry calls := by
  induction calls generalizing c with
  | nil => rfl
  | cons call calls ih =>
    have hrest := ih (c.call call).calculator
    rw [ledger_call, registry_call] at hrest
    rw [Ledger.observe, ← hrest, ← ledger_call, ← value_call_eq_answer]
    rfl

theorem registry_after (c : Calculator) (calls : List Call) :
    (c.after calls).registry = c.registry := by
  induction calls generalizing c with
  | nil => rfl
  | cons call calls ih => rw [after_cons, ih, registry_call]

theorem stack_after (c : Calculator) (calls : List Call) :
    (c.after calls).stack.reverse = calls.foldl (Call.entered c.registry) c.stack.reverse := by
  induction calls generalizing c with
  | nil => rfl
  | cons call calls ih =>
    have hcall := congrArg Ledger.tokens (ledger_call c call)
    change (c.call call).calculator.stack.reverse = call.entered c.registry c.stack.reverse at hcall
    rw [after_cons, ih, registry_call, hcall, List.foldl_cons]

theorem after_append (c : Calculator) (a b : List Call) :
    c.after (a ++ b) = (c.after a).after b := by
  simp only [after, List.foldl_append]

theorem observe_eq_of_ledger_eq {c d : Calculator} (hregistry : c.registry = d.registry)
    (hledger : c.ledger = d.ledger) (calls : List Call) : c.observe calls = d.observe calls := by
  rw [observe_eq, observe_eq, hregistry, hledger]

/-- A calculator shows what its ledger shows, over every registry and with tracing on or off, and
its stack holds the tokens accepted since the last clearing. What a run shows later depends neither
on anything before its last clearing nor on a call that entered no token. -/
theorem observe_fresh_eq_ledger (registry : Registry) (tracing : Bool) (calls : List Call) :
    (fresh registry tracing).observe calls = Ledger.empty.observe registry calls ∧
    ((fresh registry tracing).after calls).stack = (enteredTokens registry calls).reverse ∧
    (∀ more, ((fresh registry tracing).after (calls ++ [.clear])).observe more =
      (fresh registry tracing).observe more) ∧
    ∀ call, call.token? registry = none → call ≠ .clear → ∀ more,
      ((fresh registry tracing).after (calls ++ [call])).observe more =
        ((fresh registry tracing).after calls).observe more := by
  have hregistry := registry_after (fresh registry tracing)
  refine ⟨observe_eq (fresh registry tracing) calls, ?_, ?_, ?_⟩
  · have hstack := stack_after (fresh registry tracing) calls
    rw [← List.reverse_reverse ((fresh registry tracing).after calls).stack, hstack]
    rfl
  · intro more
    refine observe_eq_of_ledger_eq (hregistry (calls ++ [.clear])) ?_ more
    rw [after_append]
    rfl
  · intro call htoken hclear more
    refine observe_eq_of_ledger_eq
      ((hregistry (calls ++ [call])).trans (hregistry calls).symm) ?_ more
    rw [after_append, after_cons, after_nil, ledger_call, hregistry]
    exact Ledger.after_of_token?_eq_none _ htoken hclear

/-- A symbol that no operation has does not show, even behind an operation that lacks a value. -/
theorem observe_unknown_symbol :
    ((fresh Registry.standard true).after
        [.enterOperand 2, .enterSymbol "×", .enterSymbol "foo"]).observe
          [.enterOperand 5, .evaluate] =
      ((fresh Registry.standard true).after [.enterOperand 2, .enterSymbol "×"]).observe
        [.enterOperand 5, .evaluate] :=
  (observe_fresh_eq_ledger Registry.standard true [.enterOperand 2, .enterSymbol "×"]).2.2.2
    (.enterSymbol "foo") (by rfl) (by simp) [.enterOperand 5, .evaluate]

end Calculator

end ReversePolish

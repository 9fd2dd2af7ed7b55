import ReversePolish.Proofs.Calculator.Ledger
import ReversePolish.Proofs.Reduction.Below

/-!
# A starved stack is a barrier

Once the stack has no value, what is entered later cannot reach it. A calculator
that goes on above such a stack and a fresh one that is asked the same stay in
step: as long as neither is cleared, they hold the same tokens, but that the
first has the starved ones below, and they give the same answers. The starved
tokens are never consumed.
-/

namespace ReversePolish.Calculator

/-- One calculator holds what another one holds, above further tokens. -/
structure Above (below : Stack) (upper own : Calculator) : Prop where
  registry : upper.registry = own.registry
  stack : upper.stack = own.stack ++ below

variable {below : Stack} {upper own : Calculator}

/-! ### One call -/

theorem Above.push (h : Above below upper own) (token : Token) :
    Above below (upper.push token) (own.push token) where
  registry := h.registry
  stack := congrArg (token :: ·) h.stack

theorem Above.call (h : Above below upper own) {call : Call} (hclear : call ≠ .clear) :
    Above below (upper.call call).calculator (own.call call).calculator := by
  by_cases hvalue : call.asksValue = true
  · rw [calculator_call upper hvalue, calculator_call own hvalue, h.registry]
    cases call.token? own.registry with
    | none => exact h
    | some token => exact h.push token
  · rcases Call.eq_of_not_asksValue hvalue with rfl | rfl | rfl
    · exact ⟨h.registry, h.stack⟩
    · exact h
    · exact absurd rfl hclear

theorem Above.reduce_value (h : Above below upper own)
    (hstarved : (Rule.reduce below).result = none) :
    upper.reduce.value =
      ⟨own.reduce.value.result, own.reduce.value.remaining ++ below⟩ := by
  rw [Calculator.reduce_value, Calculator.reduce_value, h.stack]
  exact Rule.reduce_append_of_starved hstarved own.stack

theorem Above.value_call (h : Above below upper own) (hstarved : (Rule.reduce below).result = none)
    {call : Call} (hclear : call ≠ .clear) :
    (upper.call call).value = (own.call call).value := by
  by_cases hvalue : call.asksValue = true
  · have hnext := (h.call hclear).reduce_value hstarved
    rw [Calculator.reduce_value, Calculator.reduce_value] at hnext
    rw [Calculator.value_call upper hvalue, Calculator.value_call own hvalue, hnext]
  · rcases Call.eq_of_not_asksValue hvalue with rfl | rfl | rfl <;> rfl

/-! ### Runs -/

theorem Above.after (h : Above below upper own) {calls : List Call}
    (hkept : ∀ call ∈ calls, call ≠ .clear) :
    Above below (upper.after calls) (own.after calls) := by
  induction calls generalizing upper own with
  | nil => exact h
  | cons call calls ih =>
    have hcall := h.call (hkept call List.mem_cons_self)
    exact ih hcall fun later hlater => hkept later (List.mem_cons_of_mem call hlater)

theorem Above.answers (h : Above below upper own) (hstarved : (Rule.reduce below).result = none)
    {calls : List Call} (hkept : ∀ call ∈ calls, call ≠ .clear) :
    (upper.answers calls).map Answer.value = (own.answers calls).map Answer.value := by
  induction calls generalizing upper own with
  | nil => rfl
  | cons call calls ih =>
    have hfirst := hkept call List.mem_cons_self
    have hlater : ∀ later ∈ calls, later ≠ .clear :=
      fun later hmem => hkept later (List.mem_cons_of_mem call hmem)
    have hrest := ih (h.call hfirst) hlater
    have hvalue := h.value_call hstarved hfirst
    simp only [Calculator.answers, List.map_cons, hvalue, hrest]

theorem evaluate_value (c : Calculator) : c.evaluate.value = (Rule.reduce c.stack).result := by
  rw [← reduce_value]
  rfl

/-- Above a starved stack a calculator answers like a fresh one until it is cleared. After every
part of the run the starved tokens remain, below what remains in the fresh calculator, and the
reduction is not complete. -/
theorem answers_above_starved (c : Calculator) (tracing : Bool) (calls : List Call)
    (hstarved : c.evaluate.value = none) (hnonempty : c.stack ≠ [])
    (hkept : ∀ call ∈ calls, call ≠ .clear) :
    (c.answers calls).map Answer.value =
      ((fresh c.registry tracing).answers calls).map Answer.value ∧
    ∀ done, done <+: calls →
      let reduction := (c.after done).reduce.value
      let own := ((fresh c.registry tracing).after done).reduce.value
      reduction.result = own.result ∧
      reduction.remaining = own.remaining ++ c.stack ∧
      reduction.remaining.length = c.stack.length + own.remaining.length ∧
      reduction.isComplete = false := by
  rw [evaluate_value] at hstarved
  have hbegin : Above c.stack c (fresh c.registry tracing) := ⟨rfl, rfl⟩
  refine ⟨hbegin.answers hstarved hkept, ?_⟩
  intro done hdone reduction own
  have hkeptDone : ∀ call ∈ done, call ≠ .clear :=
    fun call hcall => hkept call (hdone.subset hcall)
  have hreduction : reduction = ⟨own.result, own.remaining ++ c.stack⟩ :=
    (hbegin.after hkeptDone).reduce_value hstarved
  have hremaining : reduction.remaining ≠ [] := by
    rw [hreduction]
    exact List.append_ne_nil_of_right_ne_nil own.remaining hnonempty
  refine ⟨by rw [hreduction], by rw [hreduction], ?_, ?_⟩
  · rw [hreduction, List.length_append, Nat.add_comm]
  · rw [Reduction.isComplete, List.isEmpty_eq_false_iff.mpr hremaining, Bool.and_false]

/-- Behind `2 ×`, a run that is starved once more answers like a run from the beginning. -/
theorem answers_above_product :
    let c := (standard true).after [.enterOperand 2, .enterSymbol "×"]
    let calls : List Call :=
      [.enterOperand 5, .enterSymbol "−", .updateHistory, .enterOperand 7, .evaluate]
    (c.answers calls).map Answer.value =
      ((fresh Registry.standard false).answers calls).map Answer.value ∧
    (c.after calls).reduce.value.remaining =
      ((fresh Registry.standard false).after calls).reduce.value.remaining ++ c.stack := by
  intro c calls
  have hstack : c.stack = [.operation Operation.multiply, .operand 2] := rfl
  have hstarved : c.evaluate.value = none := by
    rw [evaluate_value, hstack, Operation.multiply, Rule.reduce_binary, Rule.reduce_operand,
      Rule.reduce_nil]
    rfl
  have hmain := answers_above_starved c false calls hstarved (by simp [hstack]) (by simp [calls])
  exact ⟨hmain.1, (hmain.2 calls (List.prefix_refl calls)).2.1⟩

end ReversePolish.Calculator

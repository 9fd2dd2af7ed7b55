import ReversePolish.Proofs.Calculator.Formula
import ReversePolish.Proofs.History.Retelling

/-!
# The history of a calculator

A calculator's run makes its history step by step: each accepted token is
recorded once, in the moment when it comes on the stack, and an update or a
clearing passes on to the history. So the tokens on the stack are the recorded
ones, and each of them is told by the text or waits on a track.
-/

namespace ReversePolish

/-! ### What a call does to the history -/

/-- What a call does to the history. -/
def Call.historySteps (registry : Registry) : Call → List HistoryStep
  | updateHistory => [.update]
  | clear => [.clear]
  | call => ((call.token? registry).map .record).toList

theorem Call.historySteps_of_asksValue (registry : Registry) {call : Call}
    (h : call.asksValue = true) :
    call.historySteps registry = ((call.token? registry).map .record).toList := by
  cases call with
  | updateHistory | readHistory | clear => cases h
  | _ => rfl

theorem Call.recorded_historySteps (registry : Registry) (tokens : List Token) (call : Call) :
    (call.historySteps registry).foldl HistoryStep.recorded tokens =
      call.entered registry tokens := by
  by_cases h : call.asksValue = true
  · have hentered : call.entered registry tokens = tokens ++ (call.token? registry).toList := by
      cases call with
      | clear => cases h
      | _ => rfl
    rw [historySteps_of_asksValue registry h, hentered]
    cases call.token? registry with
    | none => exact (List.append_nil tokens).symm
    | some token => rfl
  · rcases Call.eq_of_not_asksValue h with rfl | rfl | rfl
    · exact (List.append_nil tokens).symm
    · exact (List.append_nil tokens).symm
    · rfl

namespace Calculator

theorem history_call (c : Calculator) (call : Call) :
    (c.call call).calculator.history =
      (call.historySteps c.registry).foldl History.after c.history := by
  by_cases h : call.asksValue = true
  · rw [calculator_call c h, Call.historySteps_of_asksValue c.registry h]
    cases call.token? c.registry with
    | none => rfl
    | some token => rfl
  · rcases Call.eq_of_not_asksValue h with rfl | rfl | rfl <;> rfl

/-! ### Runs -/

theorem history_after (c : Calculator) (calls : List Call) :
    (c.after calls).history =
      (calls.flatMap (Call.historySteps c.registry)).foldl History.after c.history := by
  induction calls generalizing c with
  | nil => rfl
  | cons call calls ih =>
    rw [after_cons, ih, registry_call, history_call, List.flatMap_cons, List.foldl_append]

theorem recorded_flatMap_historySteps (registry : Registry) (tokens : List Token)
    (calls : List Call) :
    (calls.flatMap (Call.historySteps registry)).foldl HistoryStep.recorded tokens =
      calls.foldl (Call.entered registry) tokens := by
  induction calls generalizing tokens with
  | nil => rfl
  | cons call calls ih =>
    rw [List.flatMap_cons, List.foldl_append, Call.recorded_historySteps, ih, List.foldl_cons]

theorem history_after_of_token? {c : Calculator} {calls : List Call} {tokens : List Token}
    (h : calls.map (Call.token? c.registry) = tokens.map some) :
    (c.after calls).history = tokens.foldl History.record c.history := by
  have hsteps : calls.flatMap (Call.historySteps c.registry) = tokens.map .record := by
    calc calls.flatMap (Call.historySteps c.registry)
        = calls.flatMap fun call => ((call.token? c.registry).map .record).toList :=
          List.flatMap_congr fun call hcall =>
            Call.historySteps_of_asksValue c.registry (Call.asksValue_of_map_token? h call hcall)
      _ = (calls.map (Call.token? c.registry)).flatMap fun token => (token.map .record).toList := by
          rw [List.flatMap_map]
      _ = tokens.map .record := by
          rw [h, List.flatMap_map]
          exact List.flatMap_pure_eq_map _ _
  rw [history_after, hsteps, List.foldl_map]
  rfl

end Calculator

/-- The text of a history is a running calculation. It tells some of the operands and operations
recorded since the last clearing, the others wait in recording order; an update leaves all as it is
where the tracks do not hold what it writes, and otherwise adds to the text. A calculator records
each token of its stack once, so all of them are told or wait. -/
theorem history_retells_recorded :
    (∀ steps : List HistoryStep, ∃ values ops,
      (History.ofSteps steps).Retells (recordedTokens steps) values ops) ∧
    (∀ history : History,
      (history.update = history ↔
        history.operations = [] ∨
          history.operands.length < if history.text = "" then 2 else 1) ∧
      (history.update = history ∨
        ∃ written, written ≠ "" ∧ history.update.text = history.text ++ written)) ∧
    ∀ (registry : Registry) (tracing : Bool) (calls : List Call),
      let c := (Calculator.fresh registry tracing).after calls
      let steps := calls.flatMap (Call.historySteps registry)
      c.history = History.ofSteps steps ∧
      recordedTokens steps = enteredTokens registry calls ∧
      c.stack.reverse = enteredTokens registry calls ∧
      ∃ values ops, c.history.Retells c.stack.reverse values ops ∧
        c.stack.length = values.length + ops.length +
          c.history.operands.length + c.history.operations.length := by
  refine ⟨fun steps => ?_, fun history => ⟨history.update_eq_self_iff, ?_⟩, ?_⟩
  · exact History.Retells.of_empty.foldl_after steps
  · by_cases hstarved : history.Starved
    · exact Or.inl (History.update_of_starved hstarved)
    · exact Or.inr (History.text_update_of_not_starved hstarved)
  · intro registry tracing calls c steps
    have hhistory : c.history = History.ofSteps steps := Calculator.history_after _ calls
    have hrecorded : recordedTokens steps = enteredTokens registry calls :=
      Calculator.recorded_flatMap_historySteps registry [] calls
    have hstack : c.stack.reverse = enteredTokens registry calls :=
      Calculator.stack_after (Calculator.fresh registry tracing) calls
    obtain ⟨values, ops, htold⟩ := History.Retells.of_empty.foldl_after steps
    have htold' : c.history.Retells c.stack.reverse values ops := by
      rw [hhistory, hstack, ← hrecorded]
      exact htold
    refine ⟨hhistory, hrecorded, hstack, values, ops, htold', ?_⟩
    rw [← htold'.length_eq, List.length_reverse]

end ReversePolish

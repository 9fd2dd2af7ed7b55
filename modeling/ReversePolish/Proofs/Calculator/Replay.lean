import ReversePolish.Proofs.Calculator.History
import ReversePolish.Proofs.Decimal.RoundTrip
import ReversePolish.Text.Row

/-!
# A shown stack can be typed in again

The text of a stack is a row of words. Typed one by one, each word enters the
token that it shows: a number is read back to the bit, and no symbol of a
standard operation reads as a number, is a second spelling of another one, or
holds the comma that divides the row.
-/

namespace ReversePolish

/-! ### Tokens of a registry -/

/-- An operation that its symbol belongs to in the registry, or any operand. -/
def Registry.Owns (registry : Registry) : Token → Prop
  | .operand _ => True
  | .operation op => registry.resolve op.symbol = some op

theorem Registry.owns_of_resolve {registry : Registry} {symbol : String} {token : Token}
    (h : (registry.resolve symbol).map .operation = some token) : registry.Owns token := by
  obtain ⟨op, hop, rfl⟩ := Option.map_eq_some_iff.mp h
  change registry.resolve op.symbol = some op
  rw [symbol_of_resolve hop, hop]

theorem Call.owns_of_token? {registry : Registry} {call : Call} {token : Token}
    (h : call.token? registry = some token) : registry.Owns token := by
  cases call with
  | enterOperand value =>
    cases h
    trivial
  | enterSymbol symbol => exact Registry.owns_of_resolve h
  | enterWord word =>
    rw [token?] at h
    cases hread : Decimal.read? word with
    | some value =>
      rw [hread] at h
      cases h
      trivial
    | none =>
      rw [hread] at h
      exact Registry.owns_of_resolve h
  | _ => cases h

namespace Calculator

theorem owns_of_mem_stack_call {c : Calculator} (h : ∀ token ∈ c.stack, c.registry.Owns token)
    (call : Call) : ∀ token ∈ (c.call call).calculator.stack, c.registry.Owns token := by
  by_cases hvalue : call.asksValue = true
  · rw [calculator_call c hvalue]
    cases htoken : call.token? c.registry with
    | none => exact h
    | some entered =>
      intro token hmem
      rcases List.mem_cons.mp hmem with rfl | hstack
      · exact Call.owns_of_token? htoken
      · exact h token hstack
  · rcases Call.eq_of_not_asksValue hvalue with rfl | rfl | rfl
    · exact h
    · exact h
    · exact fun _ hmem => absurd hmem List.not_mem_nil

theorem owns_of_mem_stack_after {c : Calculator} (h : ∀ token ∈ c.stack, c.registry.Owns token)
    (calls : List Call) : ∀ token ∈ (c.after calls).stack, c.registry.Owns token := by
  induction calls generalizing c with
  | nil => exact h
  | cons call calls ih =>
    rw [after_cons, ← registry_call c call]
    exact ih (registry_call c call ▸ owns_of_mem_stack_call h call)

end Calculator

/-! ### Typing what is shown -/

theorem Registry.mem_operations_of_owns {registry : Registry} {op : Operation}
    (h : registry.Owns (.operation op)) : op ∈ registry.operations :=
  List.mem_of_find?_eq_some h

/-- Among typed words the symbols of the standard operations stand for themselves. -/
theorem Operation.standard_symbol :
    ∀ op ∈ standard, Decimal.read? op.symbol = none ∧ spelledSymbol op.symbol = op.symbol ∧
      ',' ∉ op.symbol.toList := by
  simp only [standard, List.forall_mem_cons]
  refine ⟨?_, ?_, ?_, ?_, ?_, ?_, ?_, ?_, fun _ h => absurd h List.not_mem_nil⟩
  all_goals exact ⟨by decide +kernel, rfl, by decide⟩

theorem Registry.symbol_of_owns {op : Operation} (h : standard.Owns (.operation op)) :
    Decimal.read? op.symbol = none ∧ spelledSymbol op.symbol = op.symbol ∧
      ',' ∉ op.symbol.toList := by
  have hoperations : standard.operations = Operation.standard := rfl
  exact Operation.standard_symbol op (hoperations ▸ mem_operations_of_owns h)

theorem Token.comma_not_mem_text {token : Token} (h : Registry.standard.Owns token) :
    ',' ∉ token.text.toList := by
  cases token with
  | operand value =>
    intro hcomma
    have hplain := List.all_eq_true.mp (Decimal.all_isPlain_plain_write value) ',' hcomma
    exact absurd hplain (by decide)
  | operation op => exact (Registry.symbol_of_owns h).2.2

theorem Call.token?_enterWord_text {token : Token} (h : Registry.standard.Owns token) :
    (enterWord token.text).token? Registry.standard = some token := by
  cases token with
  | operand value =>
    have hread : Decimal.read? (Token.operand value).text = some value :=
      Decimal.read?_plain_write value
    rw [token?, hread]
  | operation op =>
    obtain ⟨hread, hspelled, -⟩ := Registry.symbol_of_owns h
    have hresolve : Registry.standard.resolve op.symbol = some op := h
    rw [token?, Token.text, hread]
    dsimp only
    rw [hspelled, hresolve, Option.map_some]

namespace Calculator

/-- The words of an empty row are the empty word, which enters nothing. -/
theorem after_empty_row (tracing : Bool) :
    (standard tracing).after ((Text.rowWords (Token.rowText [])).map .enterWord) =
      standard tracing := by
  have hwords : Text.rowWords (Token.rowText []) = [""] := by decide
  have htoken : (Call.enterWord "").token? (standard tracing).registry = none := rfl
  rw [hwords, List.map_singleton, after_cons, after_nil, calculator_call _ rfl, htoken]

theorem map_token?_rowWords {row : List Token} (hne : row ≠ [])
    (howned : ∀ token ∈ row, Registry.standard.Owns token) :
    ((Text.rowWords (Token.rowText row)).map .enterWord).map (Call.token? Registry.standard) =
      row.map some := by
  have hwords : Text.rowWords (Token.rowText row) = row.map Token.text := by
    refine Text.rowWords_brackets (mt List.map_eq_nil_iff.mp hne) fun word hword => ?_
    obtain ⟨token, htoken, rfl⟩ := List.mem_map.mp hword
    exact Token.comma_not_mem_text (howned token htoken)
  rw [hwords, List.map_map, List.map_map]
  exact List.map_congr_left fun token htoken => Call.token?_enterWord_text (howned token htoken)

theorem after_row {row : List Token} (howned : ∀ token ∈ row, Registry.standard.Owns token)
    (tracing : Bool) :
    ((standard tracing).after ((Text.rowWords (Token.rowText row)).map .enterWord)).stack =
      row.reverse ∧
    ((standard tracing).after ((Text.rowWords (Token.rowText row)).map .enterWord)).history =
      row.foldl History.record History.empty := by
  by_cases hempty : row = []
  · rw [hempty, after_empty_row]
    exact ⟨rfl, rfl⟩
  · have htokens := map_token?_rowWords hempty howned
    refine ⟨?_, history_after_of_token? (c := standard tracing) htokens⟩
    rw [stack_after_of_token? (c := standard tracing) htokens]
    exact List.append_nil row.reverse

/-- The text of a stack is taken apart into its words, and these are typed into a fresh calculator.
Its stack is the same, token by token and bit by bit, so it reduces to the same; its history tells
nothing yet, and all tokens wait there in order. -/
theorem typing_stack_text_rebuilds (tracing tracing' : Bool) (calls : List Call) :
    let c := (standard tracing).after calls
    let d := (standard tracing').after ((Text.rowWords c.stack.text).map .enterWord)
    d.stack = c.stack ∧ d.reduce.value = c.reduce.value ∧
    d.history.operands.reverse = Token.operands c.stack.reverse ∧
    d.history.operations.reverse = Token.operations c.stack.reverse ∧ d.history.text = "" := by
  intro c d
  have howned : ∀ token ∈ c.stack.reverse, Registry.standard.Owns token := by
    intro token htoken
    exact owns_of_mem_stack_after (c := standard tracing) (fun _ h => absurd h List.not_mem_nil)
      calls token (List.mem_reverse.mp htoken)
  obtain ⟨hstack, hhistory⟩ : d.stack = c.stack.reverse.reverse ∧
      d.history = c.stack.reverse.foldl History.record History.empty := after_row howned tracing'
  rw [List.reverse_reverse] at hstack
  rw [History.foldl_record_empty] at hhistory
  refine ⟨hstack, by rw [reduce_value, reduce_value, hstack], ?_, ?_, by rw [hhistory]⟩
  · rw [hhistory, List.reverse_reverse]
  · rw [hhistory, List.reverse_reverse]

end Calculator

end ReversePolish

import ReversePolish.History.Run
import ReversePolish.Proofs.Decimal.RoundTrip
import Mathlib.Data.List.Perm.Basic

/-!
# The history retells what was recorded

At every point the text of a history tells some of the recorded operands and
operations as a running calculation, and the others wait on the two tracks: none
is lost and none is used twice. An update either does nothing, because the tracks
do not hold what it writes, or it adds to the text; it never takes a token off a
track without writing it.
-/

namespace ReversePolish

/-! ### Rows of tokens -/

namespace Token

theorem operands_append (a b : List Token) : operands (a ++ b) = operands a ++ operands b :=
  List.filterMap_append

theorem operations_append (a b : List Token) :
    operations (a ++ b) = operations a ++ operations b :=
  List.filterMap_append

theorem operands_map_operand (values : List Float) : operands (values.map .operand) = values := by
  rw [operands, List.filterMap_map]
  exact List.filterMap_some

theorem operations_map_operand (values : List Float) : operations (values.map .operand) = [] := by
  rw [operations, List.filterMap_map]
  exact List.filterMap_eq_nil_iff.mpr fun _ _ => rfl

theorem length_operands_add_operations (tokens : List Token) :
    (operands tokens).length + (operations tokens).length = tokens.length := by
  induction tokens with
  | nil => rfl
  | cons token rest ih =>
    simp only [operands, operations] at ih
    cases token with
    | operand value =>
      simp only [operands, operations, List.filterMap_cons, operand?, operation?, List.length_cons]
      omega
    | operation op =>
      simp only [operands, operations, List.filterMap_cons, operand?, operation?, List.length_cons]
      omega

theorem text_operand_ne_empty (value : Float) : (operand value).text ≠ "" :=
  Decimal.plain_write_ne_empty value

end Token

/-! ### Running calculations -/

theorem running_concat {values : List Float} {ops : List Operation}
    (h : values.length = ops.length + 1) (value : Float) (op : Operation) :
    running (values ++ [value]) (ops ++ [op]) =
      running values ops ++ [.operation op, .operand value] := by
  induction ops generalizing values with
  | nil =>
    obtain ⟨first, rfl⟩ := List.length_eq_one_iff.mp h
    rfl
  | cons other ops ih =>
    cases values with
    | nil => cases h
    | cons first values =>
      have hlength : values.length = ops.length + 1 := Nat.succ.inj h
      simp only [List.cons_append, running, ih hlength]

theorem runningText_concat {values : List Float} {ops : List Operation}
    (h : values.length = ops.length + 1) (value : Float) (op : Operation) :
    runningText (values ++ [value]) (ops ++ [op]) =
      runningText values ops ++ op.symbol ++ (Token.operand value).text := by
  rw [runningText, running_concat h, List.map_append, String.join_append, ← runningText]
  simp only [List.map_cons, List.map_nil, String.join_cons, String.join_nil, String.append_empty,
    String.append_assoc]
  rfl

theorem runningText_pair (first last : Float) (op : Operation) :
    runningText [first, last] [op] =
      (Token.operand first).text ++ op.symbol ++ (Token.operand last).text := by
  have hsingle : runningText [first] [] = (Token.operand first).text := by
    simp [runningText, running]
  rw [← hsingle]
  exact @runningText_concat [first] [] rfl last op

theorem runningText_ne_empty {values : List Float} (hvalues : values ≠ []) (ops : List Operation) :
    runningText values ops ≠ "" := by
  obtain ⟨first, rest, rfl⟩ := List.exists_cons_of_ne_nil hvalues
  have hfirst : ∃ tokens, running (first :: rest) ops = .operand first :: tokens := by
    cases ops with
    | nil => exact ⟨_, rfl⟩
    | cons op ops => exact ⟨_, rfl⟩
  obtain ⟨tokens, htokens⟩ := hfirst
  rw [runningText, htokens, List.map_cons, String.join_cons]
  intro hempty
  exact Token.text_operand_ne_empty first (String.append_eq_empty_iff.mp hempty).1

namespace History

/-! ### What an update does -/

/-- The tracks do not hold what an update writes: an operation, and one operand, or two for the
first time. -/
def Starved (history : History) : Prop :=
  history.operations = [] ∨ history.operands.length < if history.text = "" then 2 else 1

theorem update_of_starved {history : History} (h : history.Starved) :
    history.update = history := by
  obtain ⟨operands, operations, text⟩ := history
  rcases h with hoperations | hoperands
  · change operations = [] at hoperations
    subst hoperations
    simp [update]
  · change operands.length < if text = "" then 2 else 1 at hoperands
    by_cases htext : text = ""
    · rw [if_pos htext] at hoperands
      match operands with
      | [] => simp [update]
      | [_] => simp [update, htext]
      | _ :: _ :: _ => simp at hoperands
    · rw [if_neg htext] at hoperands
      rw [List.length_eq_zero_iff.mp (Nat.lt_one_iff.mp hoperands)]
      simp [update]

/-- An update that is not starved writes what it takes off the tracks: for the first time an
operation between two operands, later an operation with an operand behind it. -/
theorem update_cases {history : History} (h : ¬ history.Starved) :
    (∃ first last operands op operations,
      history = ⟨last :: first :: operands, op :: operations, ""⟩ ∧
      history.update = ⟨operands, operations, runningText [first, last] [op]⟩) ∨
    (∃ last operands op operations text,
      history = ⟨last :: operands, op :: operations, text⟩ ∧ text ≠ "" ∧
      history.update =
        ⟨operands, operations, text ++ op.symbol ++ (Token.operand last).text⟩) := by
  obtain ⟨operands, operations, text⟩ := history
  obtain ⟨hoperations, hoperands⟩ := not_or.mp h
  obtain ⟨op, operations, rfl⟩ := List.exists_cons_of_ne_nil hoperations
  by_cases htext : text = ""
  · subst htext
    match operands with
    | [] => simp at hoperands
    | [_] => simp at hoperands
    | last :: first :: operands =>
      refine Or.inl ⟨first, last, operands, op, operations, rfl, ?_⟩
      rw [runningText_pair]
      rfl
  · match operands with
    | [] => simp [htext] at hoperands
    | last :: operands =>
      refine Or.inr ⟨last, operands, op, operations, text, rfl, htext, ?_⟩
      simp [update, htext]

theorem text_update_of_not_starved {history : History} (h : ¬ history.Starved) :
    ∃ written, written ≠ "" ∧ history.update.text = history.text ++ written := by
  rcases update_cases h with ⟨first, last, _, op, _, rfl, hupdate⟩ |
    ⟨last, _, op, _, text, rfl, -, hupdate⟩
  · refine ⟨runningText [first, last] [op], runningText_ne_empty (List.cons_ne_nil _ _) _, ?_⟩
    rw [hupdate, String.empty_append]
  · refine ⟨op.symbol ++ (Token.operand last).text, ?_, ?_⟩
    · intro hempty
      exact Token.text_operand_ne_empty last (String.append_eq_empty_iff.mp hempty).2
    · rw [hupdate, String.append_assoc]

theorem update_eq_self_iff (history : History) : history.update = history ↔ history.Starved := by
  refine ⟨fun hsame => ?_, update_of_starved⟩
  by_contra hstarved
  obtain ⟨written, hwritten, htext⟩ := text_update_of_not_starved hstarved
  rw [hsame] at htext
  exact hwritten (String.append_eq_left_iff.mp htext.symm)

/-! ### Recording -/

theorem foldl_record (history : History) (tokens : List Token) :
    tokens.foldl record history =
      ⟨(Token.operands tokens).reverse ++ history.operands,
        (Token.operations tokens).reverse ++ history.operations, history.text⟩ := by
  induction tokens generalizing history with
  | nil => rfl
  | cons token tokens ih =>
    rw [List.foldl_cons, ih, ← List.singleton_append, Token.operands_append,
      Token.operations_append, List.reverse_append, List.reverse_append, List.append_assoc,
      List.append_assoc]
    cases token with
    | operand value => rfl
    | operation op => rfl

theorem foldl_record_empty (tokens : List Token) :
    tokens.foldl record empty =
      ⟨(Token.operands tokens).reverse, (Token.operations tokens).reverse, ""⟩ := by
  rw [foldl_record, empty, List.append_nil, List.append_nil]

/-! ### A track -/

/-- Of what has been recorded on a track, newest first, a part has been written; the rest waits in
recording order. -/
structure Kept {α : Type} (written track recorded : List α) : Prop where
  perm : (written ++ track).Perm recorded
  order : track.reverse.Sublist recorded

namespace Kept

variable {α : Type} {written track recorded : List α}

theorem record (h : Kept written track recorded) (a : α) :
    Kept written (a :: track) (recorded ++ [a]) where
  perm :=
    List.perm_middle.trans ((h.perm.cons a).trans (List.perm_append_singleton a recorded).symm)
  order := by
    rw [List.reverse_cons]
    exact h.order.append (List.Sublist.refl [a])

theorem write (taken : List α) (h : Kept written (taken ++ track) recorded) :
    Kept (written ++ taken.reverse) track recorded where
  perm := by
    have htaken : (written ++ taken.reverse ++ track).Perm (written ++ taken ++ track) :=
      ((List.reverse_perm taken).append_left written).append_right track
    rw [List.append_assoc written taken track] at htaken
    exact htaken.trans h.perm
  order := by
    have horder := h.order
    rw [List.reverse_append] at horder
    exact (List.sublist_append_left track.reverse taken.reverse).trans horder

end Kept

/-! ### What a history tells of the recorded tokens -/

/-- The text of a history tells these operands and operations, all others wait. -/
structure Retells (history : History) (tokens : List Token) (values : List Float)
    (ops : List Operation) : Prop where
  text : (history.text = "" ∧ values = [] ∧ ops = []) ∨
    (values.length = ops.length + 1 ∧ 2 ≤ values.length ∧ history.text = runningText values ops)
  operands : Kept values history.operands (Token.operands tokens)
  operations : Kept ops history.operations (Token.operations tokens)

namespace Retells

theorem of_empty : empty.Retells [] [] [] where
  text := Or.inl ⟨rfl, rfl, rfl⟩
  operands := ⟨List.Perm.nil, List.Sublist.slnil⟩
  operations := ⟨List.Perm.nil, List.Sublist.slnil⟩

variable {history : History} {tokens : List Token} {values : List Float} {ops : List Operation}

theorem record (h : history.Retells tokens values ops) (token : Token) :
    (history.record token).Retells (tokens ++ [token]) values ops := by
  refine ⟨?_, ?_, ?_⟩
  · cases token <;> exact h.text
  · rw [Token.operands_append]
    cases token with
    | operand value => exact h.operands.record value
    | operation op => exact (List.append_nil (Token.operands tokens)).symm ▸ h.operands
  · rw [Token.operations_append]
    cases token with
    | operand value => exact (List.append_nil (Token.operations tokens)).symm ▸ h.operations
    | operation op => exact h.operations.record op

theorem update (h : history.Retells tokens values ops) :
    ∃ values' ops', history.update.Retells tokens values' ops' := by
  by_cases hstarved : history.Starved
  · exact ⟨values, ops, (update_of_starved hstarved).symm ▸ h⟩
  · rcases update_cases hstarved with ⟨first, last, operands, op, operations, rfl, hupdate⟩ |
      ⟨last, operands, op, operations, text, rfl, htext, hupdate⟩
    · -- Nothing has been told yet: a text with an operand is not empty.
      have hnothing : values = [] ∧ ops = [] := by
        rcases h.text with ⟨-, hnone⟩ | ⟨-, htwo, htext⟩
        · exact hnone
        · have hvalues : values ≠ [] := List.ne_nil_of_length_pos (by omega)
          exact absurd htext.symm (runningText_ne_empty hvalues ops)
      obtain ⟨rfl, rfl⟩ := hnothing
      refine ⟨[first, last], [op], ?_⟩
      rw [hupdate]
      refine ⟨Or.inr ⟨rfl, Nat.le_refl 2, rfl⟩, ?_, ?_⟩
      · exact h.operands.write [last, first]
      · exact h.operations.write [op]
    · have htold : values.length = ops.length + 1 ∧ 2 ≤ values.length ∧
          text = runningText values ops := by
        rcases h.text with ⟨hempty, -⟩ | htold
        · exact absurd hempty htext
        · exact htold
      obtain ⟨hlength, htwo, rfl⟩ := htold
      refine ⟨values ++ [last], ops ++ [op], ?_⟩
      rw [hupdate, ← runningText_concat hlength]
      refine ⟨Or.inr ⟨?_, ?_, rfl⟩, ?_, ?_⟩
      · rw [List.length_append, List.length_append, hlength]
        rfl
      · exact Nat.le_trans htwo (List.sublist_append_left values [last]).length_le
      · exact h.operands.write [last]
      · exact h.operations.write [op]

theorem after (h : history.Retells tokens values ops) (step : HistoryStep) :
    ∃ values' ops', (history.after step).Retells (step.recorded tokens) values' ops' := by
  cases step with
  | record token => exact ⟨values, ops, h.record token⟩
  | update => exact h.update
  | clear => exact ⟨[], [], of_empty⟩

theorem foldl_after (h : history.Retells tokens values ops) (steps : List HistoryStep) :
    ∃ values' ops', (steps.foldl History.after history).Retells
      (steps.foldl HistoryStep.recorded tokens) values' ops' := by
  induction steps generalizing history tokens values ops with
  | nil => exact ⟨values, ops, h⟩
  | cons step steps ih =>
    obtain ⟨values', ops', hnext⟩ := h.after step
    exact ih hnext

/-- Nothing is lost and nothing is used twice. -/
theorem length_eq (h : history.Retells tokens values ops) :
    tokens.length =
      values.length + ops.length + history.operands.length + history.operations.length := by
  have hoperands := h.operands.perm.length_eq
  have hoperations := h.operations.perm.length_eq
  rw [List.length_append] at hoperands hoperations
  have htokens := Token.length_operands_add_operations tokens
  omega

end Retells

end History

end ReversePolish

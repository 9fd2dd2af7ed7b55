import ReversePolish.Calculator.Report
import ReversePolish.Proofs.Calculator.Ledger
import ReversePolish.Proofs.Reduction.Demand

/-!
# The note behind the stack

A shown stack carries a note on its shape: none if it is empty or the code of one
expression, that operands are missing if it does not end in the code of an
expression, and else how many tokens stand before the one it ends in. The note is
decided by the kinds of the tokens, so an expression whose value is NaN is as
complete as any other.
-/

namespace ReversePolish

/-! ### The texts of the notes -/

theorem leftOver_ne_missing (count : Nat) :
    " (" ++ toString count ++ " left over)" ≠ " (missing operands)" := by
  intro h
  have hv : 'v' ∈ (" (" ++ toString count ++ " left over)").toList := by
    rw [String.toList_append]
    exact List.mem_append_right _ (by decide)
  rw [h] at hv
  exact absurd hv (by decide)

theorem leftOver_ne_empty (count : Nat) : " (" ++ toString count ++ " left over)" ≠ "" := by
  intro h
  have hover := (String.append_eq_empty_iff.mp h).2
  exact absurd hover (by decide)

namespace Calculator

variable {c d : Calculator}

theorem describeStack_value (c : Calculator) :
    c.describeStack.value = c.stack.text ++ c.stackNote (Rule.reduce c.stack) := by
  rw [← reduce_value]
  rfl

/-! ### The three notes -/

theorem stackNote_onto {e : Expression} {rest : Stack} (h : c.stack = e.onto rest) :
    c.stackNote (Rule.reduce c.stack) =
      if rest = [] then "" else " (" ++ toString rest.length ++ " left over)" := by
  have hnonempty : c.stack ≠ [] := by
    rw [h]
    simp [Expression.onto, e.code_ne_nil]
  have hreduce : Rule.reduce c.stack = ⟨some e.value, rest⟩ := by rw [h, e.reduce_onto]
  rw [hreduce]
  simp [stackNote, Reduction.isComplete, hnonempty]

theorem stackNote_of_starved (hstack : c.stack ≠ [])
    (h : Rule.reduce c.stack = .starved c.stack) :
    c.stackNote (Rule.reduce c.stack) = " (missing operands)" := by
  rw [h]
  simp [stackNote, Reduction.isComplete, Reduction.starved, hstack]

theorem stackNote_of_nil (h : c.stack = []) (r : Reduction) : c.stackNote r = "" := by
  simp [stackNote, h]

theorem stackNote_eq_empty_iff (c : Calculator) :
    c.stackNote (Rule.reduce c.stack) = "" ↔
      c.stack = [] ∨ ∃ e : Expression, c.stack = e.onto [] := by
  constructor
  · intro hnote
    rcases Rule.reduce_cases c.stack with ⟨e, rest, hstack, -⟩ | hstarved
    · by_cases hrest : rest = []
      · exact Or.inr ⟨e, hrest ▸ hstack⟩
      · rw [stackNote_onto hstack, if_neg hrest] at hnote
        exact absurd hnote (leftOver_ne_empty rest.length)
    · by_contra hother
      rw [stackNote_of_starved (fun hnil => hother (Or.inl hnil)) hstarved] at hnote
      exact absurd hnote (by decide)
  · rintro (hnil | ⟨e, hstack⟩)
    · exact stackNote_of_nil hnil _
    · rw [stackNote_onto hstack, if_pos rfl]

theorem stackNote_eq_missing_iff (c : Calculator) :
    c.stackNote (Rule.reduce c.stack) = " (missing operands)" ↔
      c.stack ≠ [] ∧ Rule.reduce c.stack = .starved c.stack := by
  constructor
  · intro hnote
    have hnonempty : c.stack ≠ [] := by
      intro hnil
      rw [stackNote_of_nil hnil] at hnote
      exact absurd hnote (by decide)
    refine ⟨hnonempty, ?_⟩
    rcases Rule.reduce_cases c.stack with ⟨e, rest, hstack, -⟩ | hstarved
    · rw [stackNote_onto hstack] at hnote
      by_cases hrest : rest = []
      · rw [if_pos hrest] at hnote
        exact absurd hnote (by decide)
      · rw [if_neg hrest] at hnote
        exact absurd hnote (leftOver_ne_missing rest.length)
    · exact hstarved
  · rintro ⟨hnonempty, hstarved⟩
    exact stackNote_of_starved hnonempty hstarved

/-! ### Notes and kinds -/

theorem isEmpty_eq_of_length_eq {a b : Stack} (h : a.length = b.length) :
    a.isEmpty = b.isEmpty := by
  rw [Bool.eq_iff_iff, List.isEmpty_iff, List.isEmpty_iff, ← List.length_eq_zero_iff,
    ← List.length_eq_zero_iff, h]

theorem stackNote_eq_of_kinds (h : c.stack.map Token.kind = d.stack.map Token.kind) :
    c.stackNote (Rule.reduce c.stack) = d.stackNote (Rule.reduce d.stack) := by
  have hresult := Rule.result_isSome_eq_of_kinds h
  have hremaining := Rule.length_remaining_eq_of_kinds h
  have hstack : c.stack.length = d.stack.length := by simpa using congrArg List.length h
  unfold stackNote Reduction.isComplete
  rw [← Option.not_isSome, ← Option.not_isSome, hresult, hremaining,
    isEmpty_eq_of_length_eq hremaining, isEmpty_eq_of_length_eq hstack]

/-- A stack is shown without a note if it is empty or the code of one expression, as lacking
operands if it is not empty and ends in no code, and otherwise with the number of tokens before the
one code in which it ends: at least one, and not all. Stacks of the same kinds of tokens have the
same note. -/
theorem describeStack_classifies (c : Calculator) :
    let shown := c.describeStack.value
    let tokens := c.stack.reverse
    (shown = c.stack.text ↔ tokens = [] ∨ ∃! e : Expression, tokens = e.code) ∧
    (shown = c.stack.text ++ " (missing operands)" ↔
      tokens ≠ [] ∧ ¬ ∃ (rest : List Token) (e : Expression), tokens = rest ++ e.code) ∧
    (shown = c.stack.text ∨ shown = c.stack.text ++ " (missing operands)" ∨
      ∃ (rest : List Token) (e : Expression), tokens = rest ++ e.code ∧
        (∀ rest' e', tokens = rest' ++ Expression.code e' → rest' = rest ∧ e' = e) ∧
        let k := tokens.length - e.code.length
        shown = c.stack.text ++ (" (" ++ toString k ++ " left over)") ∧
          k = rest.length ∧ 1 ≤ k ∧ k < tokens.length) ∧
    ∀ d : Calculator, c.stack.map Token.kind = d.stack.map Token.kind →
      ∃ note, shown = c.stack.text ++ note ∧ d.describeStack.value = d.stack.text ++ note := by
  intro shown tokens
  have hshown : shown = c.stack.text ++ c.stackNote (Rule.reduce c.stack) := c.describeStack_value
  have hstack : c.stack = tokens.reverse := (List.reverse_reverse c.stack).symm
  have hends (rest : List Token) (e : Expression) :
      c.stack = e.onto rest.reverse ↔ tokens = rest ++ e.code := by
    rw [hstack]
    exact Expression.reverse_eq_onto_iff tokens rest e
  refine ⟨?_, ?_, ?_, ?_⟩
  · rw [hshown, String.append_eq_left_iff, stackNote_eq_empty_iff, ← List.reverse_eq_nil_iff]
    refine or_congr Iff.rfl ⟨?_, ?_⟩
    · rintro ⟨e, he⟩
      have hcode : tokens = e.code := (hends [] e).mp he
      exact ⟨e, hcode, fun e' he' => Expression.code_inj (he'.symm.trans hcode)⟩
    · rintro ⟨e, hcode, -⟩
      exact ⟨e, (hends [] e).mpr hcode⟩
  · rw [hshown, String.append_right_inj, stackNote_eq_missing_iff, hstack,
      Rule.reduce_reverse_eq_starved_iff, ne_eq, List.reverse_eq_nil_iff]
  · rw [hshown]
    rcases Rule.reduce_cases c.stack with ⟨e, rest, honto, -⟩ | hstarved
    · by_cases hrest : rest = []
      · left
        rw [stackNote_onto honto, if_pos hrest, String.append_empty]
      · right; right
        have hcode : tokens = rest.reverse ++ e.code :=
          (hends rest.reverse e).mp ((List.reverse_reverse rest).symm ▸ honto)
        have hlength : tokens.length = rest.length + e.code.length := by
          rw [hcode, List.length_append, List.length_reverse]
        have hcount : tokens.length - e.code.length = rest.length := by omega
        have hrestPos : 0 < rest.length := List.length_pos_iff.mpr hrest
        have hcodePos : 0 < e.code.length := List.length_pos_iff.mpr e.code_ne_nil
        refine ⟨rest.reverse, e, hcode, ?_, ?_⟩
        · intro rest' e' hcode'
          exact Expression.append_code_inj (hcode'.symm.trans hcode)
        · rw [stackNote_onto honto, if_neg hrest, hcount, List.length_reverse]
          exact ⟨rfl, rfl, by omega, by omega⟩
    · by_cases hnil : c.stack = []
      · left
        rw [stackNote_of_nil hnil, String.append_empty]
      · right; left
        rw [stackNote_of_starved hnil hstarved]
  · intro d hkinds
    refine ⟨_, hshown, ?_⟩
    rw [d.describeStack_value, stackNote_eq_of_kinds hkinds]

/-- One divided by two and zero divided by zero stand behind a number left over. -/
theorem describeStack_of_quotients :
    let c := (standard true).after
      [.enterOperand 7, .enterOperand 1, .enterOperand 2, .enterSymbol "÷"]
    let d := (standard false).after
      [.enterOperand 7, .enterOperand 0, .enterOperand 0, .enterSymbol "÷"]
    c.describeStack.value = c.stack.text ++ " (1 left over)" ∧
    d.describeStack.value = d.stack.text ++ " (1 left over)" := by
  intro c d
  have hc : c.stack.reverse = [.operand 7, .operand 1, .operand 2, .operation Operation.divide] :=
    stack_after (standard true) _
  have hd : d.stack.reverse = [.operand 7, .operand 0, .operand 0, .operation Operation.divide] :=
    stack_after (standard false) _
  let quotient : Expression :=
    .binary "÷" (fun top second => second / top) (.operand 1) (.operand 2)
  have honto : c.stack = quotient.onto [.operand 7] := List.reverse_eq_iff.mp hc
  have hshown : c.describeStack.value = c.stack.text ++ " (1 left over)" := by
    rw [describeStack_value, stackNote_onto honto]
    rfl
  have hkinds : c.stack.map Token.kind = d.stack.map Token.kind := by
    rw [List.reverse_eq_iff.mp hc, List.reverse_eq_iff.mp hd]
    rfl
  obtain ⟨-, -, -, hsame⟩ := describeStack_classifies c
  obtain ⟨note, hnote, hother⟩ := hsame d hkinds
  rw [hshown, String.append_right_inj] at hnote
  rw [hother, ← hnote]
  exact ⟨hshown, rfl⟩

end Calculator

end ReversePolish

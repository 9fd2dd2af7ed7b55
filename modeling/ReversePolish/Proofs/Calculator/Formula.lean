import ReversePolish.Formula
import ReversePolish.Proofs.Calculator.Ledger
import ReversePolish.Proofs.Reduction.Below

/-!
# Entering a formula

The calls of a formula enter the tokens of its tree, one each. So a calculator
with the standard operations ends with the formula's value on top of whatever it
held before, and at each point of the way the tokens entered so far are the codes
of whole expressions: no call on the way reaches the tokens that were there.
-/

namespace ReversePolish

/-! ### The tree of a formula -/

namespace Formula

def expression : Formula → Expression
  | number value => .operand value
  | circleConstant => .constant "π" pi
  | root argument => .unary "√" Float.sqrt argument.expression
  | sine degrees => .unary "sin" (fun x => Float.sin (x * radiansPerDegree)) degrees.expression
  | cosine degrees => .unary "cos" (fun x => Float.cos (x * radiansPerDegree)) degrees.expression
  | product left right =>
    .binary "×" (fun top second => second * top) left.expression right.expression
  | quotient left right =>
    .binary "÷" (fun top second => second / top) left.expression right.expression
  | sum left right => .binary "+" (fun top second => second + top) left.expression right.expression
  | difference left right =>
    .binary "−" (fun top second => second - top) left.expression right.expression

theorem value_expression (e : Formula) : e.expression.value = e.value := by
  induction e with
  | number _ | circleConstant => rfl
  | root _ ih | sine _ ih | cosine _ ih => rw [expression, Expression.value, ih, value]
  | product _ _ ihleft ihright | quotient _ _ ihleft ihright | sum _ _ ihleft ihright
  | difference _ _ ihleft ihright => rw [expression, Expression.value, ihleft, ihright, value]

theorem code_expression (e : Formula) : e.expression.code = e.code := by
  induction e with
  | number _ | circleConstant => rfl
  | root _ ih | sine _ ih | cosine _ ih =>
    rw [expression, Expression.code, ih]
    rfl
  | product _ _ ihleft ihright | quotient _ _ ihleft ihright | sum _ _ ihleft ihright
  | difference _ _ ihleft ihright =>
    rw [expression, Expression.code, ihleft, ihright]
    rfl

/-- Each call of a formula enters one token: the next one of its code. -/
theorem map_token?_calls (e : Formula) :
    e.calls.map (Call.token? Registry.standard) = e.code.map some := by
  induction e with
  | number _ | circleConstant => rfl
  | root _ ih | sine _ ih | cosine _ ih =>
    rw [calls, code, List.map_append, List.map_append, ih]
    rfl
  | product _ _ ihleft ihright | quotient _ _ ihleft ihright | sum _ _ ihleft ihright
  | difference _ _ ihleft ihright =>
    simp only [calls, code, List.map_append, ihleft, ihright]
    rfl

end Formula

/-! ### Where the code of an expression is cut -/

namespace Expression

theorem exists_codes_of_prefix {e : Expression} {tokens : List Token} (h : tokens <+: e.code) :
    ∃ es : List Expression, tokens = es.flatMap code := by
  induction e generalizing tokens with
  | operand value =>
    rcases List.prefix_concat_iff.mp (show tokens <+: [] ++ [.operand value] from h) with
      hwhole | hpart
    · exact ⟨[operand value], hwhole⟩
    · exact ⟨[], List.prefix_nil.mp hpart⟩
  | constant symbol value =>
    rcases List.prefix_concat_iff.mp
      (show tokens <+: [] ++ [.operation ⟨symbol, .constant value⟩] from h) with hwhole | hpart
    · exact ⟨[constant symbol value], hwhole⟩
    · exact ⟨[], List.prefix_nil.mp hpart⟩
  | unary symbol apply argument ih =>
    rcases List.prefix_concat_iff.mp h with hwhole | hpart
    · exact ⟨[unary symbol apply argument], by rw [hwhole, List.flatMap_singleton]; rfl⟩
    · exact ih hpart
  | binary symbol apply left right ihleft ihright =>
    rcases List.prefix_concat_iff.mp h with hwhole | hpart
    · exact ⟨[binary symbol apply left right], by rw [hwhole, List.flatMap_singleton]; rfl⟩
    · -- The cut leaves a part of the left side's code and a part of the right side's.
      rw [List.prefix_iff_eq_take, List.take_append] at hpart
      obtain ⟨lefts, hlefts⟩ := ihleft (List.take_prefix tokens.length left.code)
      obtain ⟨rights, hrights⟩ :=
        ihright (List.take_prefix (tokens.length - left.code.length) right.code)
      exact ⟨lefts ++ rights, by rw [hpart, hlefts, hrights, List.flatMap_append]⟩

end Expression

theorem Rule.reduce_codes {es : List Expression} (h : es ≠ []) (stack : Stack) :
    ∃ x rest, Rule.reduce ((es.flatMap Expression.code).reverse ++ stack) =
      ⟨some x, rest ++ stack⟩ := by
  rcases List.eq_nil_or_concat' es with hnil | ⟨front, last, rfl⟩
  · exact absurd hnil h
  · have honto : ((front ++ [last]).flatMap Expression.code).reverse ++ stack =
        last.onto ((front.flatMap Expression.code).reverse ++ stack) := by
      rw [List.flatMap_append, List.flatMap_singleton, List.reverse_append, List.append_assoc]
      rfl
    exact ⟨last.value, (front.flatMap Expression.code).reverse, by rw [honto, last.reduce_onto]⟩

/-! ### Calls that each enter a token -/

theorem Call.asksValue_of_token? {registry : Registry} {call : Call} {token : Token}
    (h : call.token? registry = some token) : call.asksValue = true := by
  cases call with
  | updateHistory | readHistory | clear => cases h
  | _ => rfl

theorem Call.asksValue_of_map_token? {registry : Registry} {calls : List Call}
    {tokens : List Token} (h : calls.map (Call.token? registry) = tokens.map some) :
    ∀ call ∈ calls, call.asksValue = true := by
  intro call hcall
  have hmem : call.token? registry ∈ tokens.map some := h ▸ List.mem_map_of_mem hcall
  obtain ⟨token, -, htoken⟩ := List.mem_map.mp hmem
  exact asksValue_of_token? htoken.symm

namespace Calculator

theorem answers_append (c : Calculator) (a b : List Call) :
    c.answers (a ++ b) = c.answers a ++ (c.after a).answers b := by
  induction a generalizing c with
  | nil => rfl
  | cons call calls ih => rw [List.cons_append, answers, ih]; rfl

theorem stack_after_of_token? {c : Calculator} {calls : List Call} {tokens : List Token}
    (h : calls.map (Call.token? c.registry) = tokens.map some) :
    (c.after calls).stack = tokens.reverse ++ c.stack := by
  induction tokens generalizing c calls with
  | nil =>
    rw [List.map_nil, List.map_eq_nil_iff] at h
    rw [h]
    rfl
  | cons token tokens ih =>
    rw [List.map_cons, List.map_eq_cons_iff] at h
    obtain ⟨call, rest, rfl, hcall, hrest⟩ := h
    have hpush : (c.call call).calculator = c.push token := by
      rw [calculator_call c (Call.asksValue_of_token? hcall), hcall]
    have hafter : ((c.push token).after rest).stack = tokens.reverse ++ (token :: c.stack) :=
      ih (c := c.push token) hrest
    rw [after_cons, hpush, hafter, List.reverse_cons, List.append_assoc]
    rfl

theorem value_getLast?_answers (c : Calculator) {calls : List Call} (hne : calls ≠ [])
    (hasks : ∀ call ∈ calls, call.asksValue = true) :
    (c.answers calls).getLast?.map Answer.value =
      some (Rule.reduce (c.after calls).stack).result := by
  rcases List.eq_nil_or_concat' calls with hnil | ⟨front, last, rfl⟩
  · exact absurd hnil hne
  · have hlast : last.asksValue = true :=
      hasks last (List.mem_append_right front (List.mem_singleton_self last))
    have hanswers : (c.answers (front ++ [last])).getLast? = some ((c.after front).call last) := by
      rw [answers_append]
      exact List.getLast?_concat
    rw [hanswers, Option.map_some, value_call (c.after front) hlast, after_append]
    rfl

/-- With the standard operations, and whatever has been entered before, the last call of a formula
gives its value. Afterwards the stack is what it was, followed by the tokens of the formula, and a
reduction leaves what it was. After each call on the way there is a value too, and a reduction
leaves the earlier tokens where they are. -/
theorem answers_calls_formula (c : Calculator) (hstandard : c.registry = Registry.standard)
    (e : Formula) :
    (c.answers e.calls).getLast?.map Answer.value = some (some e.value) ∧
    (c.after e.calls).reduce.value = ⟨some e.value, c.stack⟩ ∧
    (c.after e.calls).stack.reverse = c.stack.reverse ++ e.code ∧
    ∀ k, (c.after (e.calls.take (k + 1))).stack.reverse =
        c.stack.reverse ++ e.code.take (k + 1) ∧
      ∃ x rest, (c.after (e.calls.take (k + 1))).reduce.value = ⟨some x, rest ++ c.stack⟩ := by
  have htokens : e.calls.map (Call.token? c.registry) = e.code.map some := by
    rw [hstandard, e.map_token?_calls]
  have hcode : e.code ≠ [] := e.code_expression ▸ e.expression.code_ne_nil
  have hcalls : e.calls ≠ [] := by
    intro hnil
    rw [hnil, List.map_nil] at htokens
    exact hcode (List.map_eq_nil_iff.mp htokens.symm)
  have hstack : (c.after e.calls).stack = e.code.reverse ++ c.stack := stack_after_of_token? htokens
  have hreduce : Rule.reduce (c.after e.calls).stack = ⟨some e.value, c.stack⟩ := by
    rw [hstack, ← e.code_expression, ← e.value_expression]
    exact e.expression.reduce_onto c.stack
  refine ⟨?_, ?_, ?_, ?_⟩
  · rw [value_getLast?_answers c hcalls (Call.asksValue_of_map_token? htokens), hreduce]
  · rw [reduce_value, hreduce]
  · rw [hstack, List.reverse_append, List.reverse_reverse]
  · intro k
    have hpart : (e.calls.take (k + 1)).map (Call.token? c.registry) =
        (e.code.take (k + 1)).map some := by
      rw [List.map_take, htokens, List.map_take]
    have hstackPart := stack_after_of_token? hpart
    have hprefix : e.code.take (k + 1) <+: e.expression.code := by
      rw [e.code_expression]
      exact List.take_prefix (k + 1) e.code
    obtain ⟨es, hes⟩ := Expression.exists_codes_of_prefix hprefix
    have hne : es ≠ [] := by
      intro hnil
      rw [hnil, List.flatMap_nil, List.take_eq_nil_iff] at hes
      rcases hes with hzero | hempty
      · exact Nat.succ_ne_zero k hzero
      · exact hcode hempty
    refine ⟨by rw [hstackPart, List.reverse_append, List.reverse_reverse], ?_⟩
    rw [reduce_value, hstackPart, hes]
    exact Rule.reduce_codes hne c.stack

/-- A quotient over a difference, entered behind `2 ×`, which has no value. -/
theorem answers_calls_quotient :
    let c := (standard true).after [.enterOperand 2, .enterSymbol "×"]
    let e : Formula := .quotient (.difference (.number 9) (.number 3)) (.sine (.number 30))
    (c.answers e.calls).getLast?.map Answer.value =
      some (some ((9 - 3) / (30 * radiansPerDegree).sin)) ∧
    (c.after e.calls).reduce.value.remaining =
      [.operation Operation.multiply, .operand 2] := by
  intro c e
  have hmain := answers_calls_formula c rfl e
  exact ⟨hmain.1, congrArg Reduction.remaining hmain.2.1⟩

end Calculator

end ReversePolish

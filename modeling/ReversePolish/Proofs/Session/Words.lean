import ReversePolish.Program
import ReversePolish.Proofs.Calculator.Formula

/-!
# Words entered one after the other

Entering words is a run of calls, one for each word, and the value that stands
behind the last of them is the value of the stack that they leave. So the words
of a command line, and the words of a line in a session, are worth what one
reduction of the accepted tokens gives.
-/

namespace ReversePolish

namespace Answer

theorem calculator_enterWords (answer : Answer) (words : List String) :
    (answer.enterWords words).calculator = answer.calculator.after (words.map .enterWord) := by
  induction words generalizing answer with
  | nil => rfl
  | cons word words ih => exact ih (answer.calculator.enterWord word)

theorem value_enterWords {answer : Answer}
    (h : answer.value = (Rule.reduce answer.calculator.stack).result) (words : List String) :
    (answer.enterWords words).value =
      (Rule.reduce (answer.calculator.after (words.map .enterWord)).stack).result := by
  induction words generalizing answer with
  | nil => exact h
  | cons word words ih =>
    have hword : (answer.calculator.enterWord word).value =
        (Rule.reduce (answer.calculator.enterWord word).calculator.stack).result :=
      @Calculator.value_call answer.calculator (.enterWord word) rfl
    exact ih hword

end Answer

namespace Calculator

theorem stack_after_fresh (registry : Registry) (tracing : Bool) (calls : List Call) :
    ((fresh registry tracing).after calls).stack = (enteredTokens registry calls).reverse := by
  rw [← List.reverse_eq_iff]
  exact stack_after (fresh registry tracing) calls

theorem stack_after_congr {c d : Calculator} (hregistry : c.registry = d.registry)
    (hstack : c.stack = d.stack) (calls : List Call) :
    (c.after calls).stack = (d.after calls).stack := by
  apply List.reverse_injective
  rw [stack_after, stack_after, hregistry, hstack]

/-- The value that a run of entries ends with. -/
theorem value_of_last_answer (c : Calculator) {words : List String} (hne : words ≠ []) :
    ((c.answers (words.map .enterWord)).getLast?.bind Answer.value) =
      (Rule.reduce (c.after (words.map .enterWord)).stack).result := by
  have hasks : ∀ call ∈ words.map Call.enterWord, call.asksValue = true := by
    intro call hcall
    obtain ⟨word, -, rfl⟩ := List.mem_map.mp hcall
    rfl
  have hlast := c.value_getLast?_answers (mt List.map_eq_nil_iff.mp hne) hasks
  obtain ⟨answer, hanswer, hvalue⟩ := Option.map_eq_some_iff.mp hlast
  rw [hanswer, ← hvalue]
  rfl

/-! ### Lines of words -/

theorem calculator_enterLine (c : Calculator) (words : List String) :
    (c.enterLine words).calculator = (c.after (words.map .enterWord)).updateHistory := by
  rw [enterLine, Answer.calculator_enterWords]
  rfl

theorem shown_enterLine (c : Calculator) (words : List String) :
    (c.enterLine words).shown =
      some (resultLine (Rule.reduce (c.after (words.map .enterWord)).stack).result
        (c.enterLine words).calculator.history.text) := by
  have hvalue : ((c.answer []).enterWords words).value =
      (Rule.reduce (c.after (words.map .enterWord)).stack).result :=
    Answer.value_enterWords (answer_value c []) words
  rw [enterLine, hvalue]

end Calculator

theorem output_calculateWords (options : Options) (words : List String) :
    (calculateWords options words).output =
      unlines [valueText
        (Rule.reduce ((Calculator.standard options.tracing).after (words.map .enterWord)).stack).result] := by
  have hbegin : (⟨.standard options.tracing, none, []⟩ : Answer).value =
      (Rule.reduce (Calculator.standard options.tracing).stack).result :=
    (congrArg Reduction.result Rule.reduce_nil).symm
  rw [calculateWords, Answer.value_enterWords hbegin]

theorem run_double_hyphen (words : List String) (hne : words ≠ []) (input : List UInt8) :
    run ("--" :: words) input = calculateWords ⟨false, 0⟩ words := by
  obtain ⟨word, rest, rfl⟩ := List.exists_cons_of_ne_nil hne
  rfl

end ReversePolish

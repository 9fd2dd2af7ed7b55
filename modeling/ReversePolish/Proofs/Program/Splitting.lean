import ReversePolish.Proofs.Session.Lines
import ReversePolish.Proofs.Session.Words

/-!
# Words in one command line or over many lines

A session evaluates before each line and writes its history behind each line,
the command line does neither. Still both show the same value for the same
words, however these are spread over lines: after each line the stack holds what
has been accepted so far, and the value shown is the value of that stack.
-/

namespace ReversePolish

namespace Calculator

theorem stack_after_enterLine (c : Calculator) (words : List String) (calls : List Call) :
    ((c.enterLine words).calculator.after calls).stack =
      (c.after (words.map .enterWord ++ calls)).stack := by
  rw [calculator_enterLine, after_append]
  refine stack_after_congr ?_ ?_ calls
  · rfl
  · rfl

/-- Over lines of words the last line shown has the value of the stack. So that there is a last line
from the beginning, one that shows the value of the first stack stands before all. -/
theorem converse_words (c : Calculator) {lines : List (List Char)}
    (hplain : ∀ line ∈ lines, '\x08' ∉ line)
    (hcommand : ∀ line ∈ lines, String.ofList (Text.trim line) ∉ commandNames) :
    let transcript := c.converse (lines.map Text.utf8)
    let words := (lines.flatMap Text.words).map String.ofList
    transcript.failure = none ∧
    transcript.shown.length = lines.countP (fun line => !(Text.trim line).isEmpty) ∧
    ∀ text, ∃ history,
      (resultLine (Rule.reduce c.stack).result text :: transcript.shown).getLast? =
        some (resultLine (Rule.reduce (c.after (words.map .enterWord)).stack).result history) := by
  induction lines generalizing c with
  | nil => exact ⟨rfl, rfl, fun text => ⟨text, rfl⟩⟩
  | cons line lines ih =>
    intro transcript words
    rw [List.forall_mem_cons] at hplain hcommand
    have hrequest := Request.ofBytes_utf8 hplain.1
    rw [Request.ofLine_eq hcommand.1] at hrequest
    by_cases hblank : (Text.trim line).isEmpty = true
    · obtain ⟨hfailure, hlength, hlast⟩ := ih c hplain.2 hcommand.2
      have htranscript : transcript = c.converse (lines.map Text.utf8) := by
        rw [if_pos hblank] at hrequest
        exact converse_cons _ (replyTo?_eq hrequest)
      have hnone : Text.words line = [] := by
        rw [← Text.words_trim, List.isEmpty_iff.mp hblank, Text.words_nil]
      have hwords : words = (lines.flatMap Text.words).map String.ofList := by
        rw [← List.nil_append (lines.flatMap Text.words), ← hnone]
        rfl
      rw [List.countP_cons_of_neg (by simp [hblank]), htranscript, hwords]
      exact ⟨hfailure, hlength, hlast⟩
    · let first := (Text.words line).map String.ofList
      obtain ⟨hfailure, hlength, hlast⟩ := ih (c.enterLine first).calculator hplain.2 hcommand.2
      have htranscript : transcript =
          .after (c.enterLine first) ((c.enterLine first).calculator.converse (lines.map Text.utf8)) := by
        rw [if_neg hblank] at hrequest
        exact converse_cons _ (replyTo?_eq hrequest)
      have hwords : words = first ++ (lines.flatMap Text.words).map String.ofList :=
        List.map_append
      rw [List.countP_cons_of_pos (by simpa using hblank), ← hlength, htranscript, hwords,
        List.map_append, ← stack_after_enterLine, Transcript.after, shown_enterLine]
      refine ⟨hfailure, rfl, fun text => ?_⟩
      have hvalue : (c.enterLine first).calculator.stack = (c.after (first.map .enterWord)).stack := by
        rw [calculator_enterLine]
        rfl
      rw [hvalue] at hlast
      exact hlast _

end Calculator

theorem resultLine_cases (value : Option Float) (history : String) :
    resultLine value history = valueText value ∨
      resultLine value history = valueText value ++ "    [" ++ history ++ "]" := by
  unfold resultLine
  split
  · exact Or.inl rfl
  · exact Or.inr rfl

/-- The last line of a text may be empty and missing from the input, which makes no difference to the
words and to the lines that have some. -/
theorem exists_inputLines_utf8 (text : List Char) :
    ∃ lines : List (List Char), inputLines (Text.utf8 text) = lines.map Text.utf8 ∧
      (∀ line ∈ lines, line ∈ text.splitOn '\n') ∧
      (text.splitOn '\n').countP (fun line => !(Text.trim line).isEmpty) =
        lines.countP (fun line => !(Text.trim line).isEmpty) ∧
      lines.flatMap Text.words = Text.words text := by
  obtain ⟨lines, hinput, hsplit⟩ := inputLines_utf8 text
  refine ⟨lines, hinput, ?_⟩
  rw [← Text.flatMap_words_splitOn]
  rcases hsplit with hsplit | hsplit
  · rw [hsplit]
    exact ⟨fun _ hline => hline, rfl, rfl⟩
  · rw [hsplit, List.countP_append, List.flatMap_append, List.flatMap_singleton, Text.words_nil,
      List.append_nil]
    exact ⟨fun _ hline => List.mem_append_left _ hline, rfl, rfl⟩

/-- A session over a text without commands and backspaces. -/
theorem holdSession_words (options : Options) {text : List Char} (hplain : '\x08' ∉ text)
    (hcommand : ∀ line ∈ text.splitOn '\n', String.ofList (Text.trim line) ∉ commandNames)
    (hne : Text.words text ≠ []) :
    let words := (Text.words text).map String.ofList
    let outcome := holdSession options (Text.utf8 text)
    outcome.exitCode = 0 ∧
    ∃ earlier history, outcome.output = unlines (banner :: (earlier ++
        [resultLine (Rule.reduce ((Calculator.standard options.tracing).after
          (words.map .enterWord)).stack).result history])) ∧
      earlier.length + 1 = (text.splitOn '\n').countP (fun line => !(Text.trim line).isEmpty) := by
  intro words outcome
  obtain ⟨lines, hinput, hmem, hcount, hwords⟩ := exists_inputLines_utf8 text
  obtain ⟨hfailure, hlength, hlast⟩ := (Calculator.standard options.tracing).converse_words
    (fun line hline hback => hplain (mem_of_mem_splitOn (hmem line hline) hback))
    fun line hline => hcommand line (hmem line hline)
  rw [hwords] at hlast
  rw [← hinput] at hfailure hlength hlast
  obtain ⟨history, hvalue⟩ := hlast ""
  rcases List.eq_nil_or_concat' ((Calculator.standard options.tracing).converse
    (inputLines (Text.utf8 text))).shown with hnil | ⟨earlier, last, hshown⟩
  · -- Where no line is shown, no line has words.
    rw [hnil, List.length_nil] at hlength
    have hblank := List.countP_eq_zero.mp hlength.symm
    refine absurd (hwords ▸ List.flatMap_eq_nil_iff.mpr fun line hline => ?_) hne
    have htrim : Text.trim line = [] := by simpa using hblank line hline
    rw [← Text.words_trim, htrim, Text.words_nil]
  · rw [hshown, ← List.cons_append, List.getLast?_concat, Option.some.injEq] at hvalue
    refine ⟨?_, earlier, history, ?_, ?_⟩
    · change Option.elim _ _ _ = _
      rw [hfailure]
      rfl
    · rw [← hvalue, ← hshown]
      rfl
    · rw [hcount, ← hlength, hshown, List.length_append, List.length_singleton]

/-- However words are spread over the lines of a session, as long as no line is a command, the last
line that is shown, the one for the last line with words, begins with the value that the command
line shows for these words. Both values are that of one reduction of the accepted tokens. -/
theorem session_agrees_with_command_line {words : List String} {text : List Char}
    (hne : words ≠ []) (hspaced : Text.Spaced (words.map String.toList) text)
    (hplain : ∀ word ∈ words, '\x08' ∉ word.toList)
    (hcommand : ∀ line ∈ text.splitOn '\n', String.ofList (Text.trim line) ∉ commandNames)
    (input : List UInt8) :
    let accepted := enteredTokens Registry.standard (words.map .enterWord)
    let value := (reduce accepted.reverse).result
    (run ("--" :: words) input).exitCode = 0 ∧
    (run ("--" :: words) input).output = unlines [valueText value] ∧
    (run [] (Text.utf8 text)).exitCode = 0 ∧
    ∃ earlier last, (run [] (Text.utf8 text)).output = unlines (banner :: (earlier ++ [last])) ∧
      earlier.length + 1 =
        (text.splitOn '\n').countP (fun line => !(Text.trim line).isEmpty) ∧
      (last = valueText value ∨ ∃ history, last = valueText value ++ "    [" ++ history ++ "]") := by
  intro accepted value
  have hvalue : value = (Rule.reduce
      ((Calculator.standard false).after (words.map .enterWord)).stack).result := by
    rw [Calculator.standard, Calculator.stack_after_fresh, ← reduceTracing_fst false]
    rfl
  have hrun := run_double_hyphen words hne input
  have hshown := output_calculateWords ⟨false, 0⟩ words
  rw [← hvalue] at hshown
  have hwords : Text.words text = words.map String.toList := hspaced.words_eq
  have hback : '\x08' ∉ text := by
    intro hmem
    rcases hspaced.isBlank_or_mem hmem with hblank | ⟨letters, hletters, hin⟩
    · exact absurd hblank (by decide)
    · obtain ⟨word, hword, rfl⟩ := List.mem_map.mp hletters
      exact hplain word hword hin
  have hnonempty : Text.words text ≠ [] := by
    rw [hwords]
    exact mt List.map_eq_nil_iff.mp hne
  obtain ⟨hexit, earlier, history, houtput, hlength⟩ :=
    holdSession_words ⟨false, 0⟩ hback hcommand hnonempty
  have hsame : (words.map String.toList).map String.ofList = words := by
    rw [List.map_map]
    exact (List.map_congr_left fun word _ => String.ofList_toList).trans (List.map_id words)
  rw [hwords, hsame, ← hvalue] at houtput
  refine ⟨by rw [hrun]; rfl, by rw [hrun, hshown], hexit, earlier, _, houtput, hlength, ?_⟩
  exact (resultLine_cases value history).imp_right fun h => ⟨history, h⟩

/-- Four words over five lines. One word spells no operation, though it begins like a command, and
one line is blank. -/
theorem session_of_numbers_over_lines :
    let words := ["6", ":x", "π", "7"]
    let text := "6 \t:x\n\n π\r\n7\n".toList
    Text.Spaced (words.map String.toList) text ∧
    (∀ line ∈ text.splitOn '\n', String.ofList (Text.trim line) ∉ commandNames) ∧
    (run ["--", "6", ":x", "π", "7"] []).output = "7\n" ∧
    ∃ earlier last, (run [] (Text.utf8 text)).output = unlines (banner :: (earlier ++ [last])) ∧
      earlier.length = 2 ∧ (last = "7" ∨ ∃ history, last = "7" ++ "    [" ++ history ++ "]") := by
  intro words text
  have hspaced : Text.Spaced (words.map String.toList) text :=
    Text.words_eq_iff_spaced.mp (by decide)
  have hcommand : ∀ line ∈ text.splitOn '\n', String.ofList (Text.trim line) ∉ commandNames := by
    decide
  obtain ⟨-, houtput, -, earlier, last, hsession, hlength, hlast⟩ :=
    session_agrees_with_command_line (List.cons_ne_nil _ _) hspaced (by decide) hcommand []
  have hseven : Decimal.read? "7" = some 7 := by decide +kernel
  have haccepted : (enteredTokens Registry.standard (words.map .enterWord)).reverse =
      .operand 7 :: (enteredTokens Registry.standard
        (["6", ":x", "π"].map .enterWord)).reverse := by
    simp [words, enteredTokens, Call.entered, Call.token?, hseven]
  have hvalue : valueText (some 7) = "7" := by decide +kernel
  rw [haccepted, reduce, reduceTracing_fst, Rule.reduce_operand, hvalue] at houtput hlast
  refine ⟨hspaced, hcommand, houtput, earlier, last, hsession, ?_, hlast⟩
  exact Nat.succ.inj hlength

end ReversePolish

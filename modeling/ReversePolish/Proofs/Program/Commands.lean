import ReversePolish.Proofs.Session.Commands

/-!
# Commands in a session

What the commands of a session do to everything that it shows: nothing but their
own output for those that only show something, a fresh start for a clearing, and
the end for quitting. Words add to the history that is shown, up to a clearing.
-/

namespace ReversePolish

/-! ### Lines with a history -/

theorem blank_not_mem_valueText (value : Option Float) : ' ' ∉ (valueText value).toList := by
  intro hblank
  have hplain := List.all_eq_true.mp (Decimal.all_isPlain_plain_write (value.getD 0)) ' ' hblank
  exact absurd hplain (by decide)

theorem resultLine_of_ne_empty (value : Option Float) {text : String} (h : text ≠ "") :
    resultLine value text = valueText value ++ "    [" ++ text ++ "]" := by
  rw [resultLine, if_neg]
  simpa using h

theorem dropWhile_append_blank {word : List Char} (h : ' ' ∉ word) (rest : List Char) :
    (word ++ ' ' :: rest).dropWhile (· != ' ') = ' ' :: rest := by
  have hword : ∀ c ∈ word, (c != ' ') = true := by
    intro c hc
    exact bne_iff_ne.mpr (ne_of_mem_of_not_mem hc h)
  rw [List.dropWhile_append_of_pos hword, List.dropWhile_cons_of_neg (by decide)]

/-- A value has no blanks, so the history of a line can be told from its value. -/
theorem text_of_resultLine {value value' : Option Float} {text history : String}
    (h : resultLine value text = valueText value' ++ "    [" ++ history ++ "]") :
    text = history ∧ text ≠ "" := by
  have hright : (valueText value' ++ "    [" ++ history ++ "]").toList =
      (valueText value').toList ++ ' ' :: ("   [".toList ++ history.toList ++ [']']) := by
    simp
  by_cases htext : text = ""
  · have hblank : ' ' ∈ (valueText value' ++ "    [" ++ history ++ "]").toList := by
      rw [hright]
      exact List.mem_append_right _ List.mem_cons_self
    rw [← h, htext] at hblank
    exact absurd hblank (blank_not_mem_valueText value)
  · refine ⟨?_, htext⟩
    have hleft : (resultLine value text).toList =
        (valueText value).toList ++ ' ' :: ("   [".toList ++ text.toList ++ [']']) := by
      rw [resultLine_of_ne_empty value htext]
      simp
    have hrest := congrArg (List.dropWhile (· != ' ')) (congrArg String.toList h)
    rw [hleft, hright, dropWhile_append_blank (blank_not_mem_valueText value),
      dropWhile_append_blank (blank_not_mem_valueText value')] at hrest
    have hletters := List.append_cancel_left (List.append_cancel_right (List.cons.inj hrest).2)
    exact String.toList_injective hletters

theorem Calculator.getElem?_shownFor_later (c : Calculator) {before middle after : List (List UInt8)}
    {line later : List UInt8} (hline : Reads (· ∉ "" :: commandNames) line)
    (hmiddle : ∀ between ∈ middle, Reads (· ∉ [":quit", ":q", ":clear", ":c"]) between)
    (hlater : Reads (· ∉ "" :: commandNames) later) {value : Option Float} {history : String}
    (h : (c.shownFor (before ++ line :: middle ++ later :: after))[before.length]? =
      some (some (valueText value ++ "    [" ++ history ++ "]"))) :
    ∃ value' more,
      (c.shownFor (before ++ line :: middle ++ later :: after))[(before ++ line :: middle).length]? =
        some (some (valueText value' ++ "    [" ++ (history ++ more) ++ "]")) := by
  rw [List.append_assoc, List.cons_append, getElem?_shownFor] at h
  obtain ⟨d, hbefore, h⟩ := Option.bind_eq_some_iff.mp (Option.some.inj h)
  obtain ⟨words, hreply⟩ := d.replyTo?_of_words hline
  rw [hreply, Option.bind_some, shown_enterLine] at h
  obtain ⟨htext, hne⟩ := text_of_resultLine (Option.some.inj h)
  obtain ⟨e, more, hbehind, hmore⟩ := (d.enterLine words).calculator.text_behind? hmiddle
  have hmiddle' : c.behind? (before ++ line :: middle) = some e := by
    rw [behind?_append hbefore, behind?_cons middle hreply, hbehind]
  obtain ⟨words', hreply'⟩ := e.replyTo?_of_words hlater
  obtain ⟨more', hmore'⟩ := e.text_enterLine words'
  have hgrown : (e.enterLine words').calculator.history.text = history ++ (more ++ more') := by
    rw [hmore', hmore, htext, String.append_assoc]
  have hnonempty : history ++ (more ++ more') ≠ "" := by
    intro hempty
    exact hne (htext.trans (String.append_eq_empty_iff.mp hempty).1)
  rw [getElem?_shownFor, hmiddle', Option.bind_some, hreply', Option.bind_some, shown_enterLine,
    hgrown, resultLine_of_ne_empty _ hnonempty]
  exact ⟨_, more ++ more', rfl⟩

/-! ### Sessions over inputs -/

theorem output_holdSession (options : Options) (input : List UInt8) :
    (holdSession options input).output = unlines (banner ::
      ((Calculator.standard options.tracing).shownFor (inputLines input)).reduceOption) := by
  rw [← Calculator.shown_converse]
  rfl

theorem exitCode_holdSession_congr (options : Options) {input other : List UInt8}
    (h : ((Calculator.standard options.tracing).converse (inputLines input)).failure =
      ((Calculator.standard options.tracing).converse (inputLines other)).failure) :
    (holdSession options input).exitCode = (holdSession options other).exitCode := by
  rw [holdSession, holdSession, h]

/-- What a session shows is put together from what it shows for each of its lines. Leaving out blank
lines and commands that only show something takes away their own output and nothing else. Behind a
clearing everything is as in a new session, and what stands behind quitting has no effect. From the
first history on, up to a clearing, each line of words shows one that continues it. -/
theorem session_commands_act_openly (options : Options) (input : List UInt8) :
    let c := Calculator.standard options.tracing
    let lines := inputLines input
    let shown := c.shownFor lines
    let outcome := holdSession options input
    (shown.length = lines.length ∧ outcome.output = unlines (banner :: shown.reduceOption)) ∧
    (∀ (kept : Nat → Bool) (thinned : List UInt8), inputLines thinned = keepAt kept lines →
      (∀ place line, lines[place]? = some line → kept place = false →
        Reads (· ∈ ["", ":stack", ":s", ":ops"]) line) →
      (holdSession options thinned).output = unlines (banner :: (keepAt kept shown).reduceOption) ∧
      (holdSession options thinned).exitCode = outcome.exitCode) ∧
    (∀ before line rest, lines = before ++ line :: inputLines rest →
      (∀ earlier ∈ before, Reads (· ∉ [":quit", ":q"]) earlier) →
      Reads (· ∈ [":clear", ":c"]) line →
      ∃ later, (holdSession options rest).output = unlines (banner :: later) ∧
        outcome.output = unlines (banner :: ((c.shownFor before).reduceOption ++ "0" :: later)) ∧
        outcome.exitCode = (holdSession options rest).exitCode) ∧
    (∀ before line after other after', lines = before ++ line :: after →
      inputLines other = before ++ line :: after' → Reads (· ∈ [":quit", ":q"]) line →
      holdSession options other = outcome) ∧
    ∀ before line middle later after, lines = before ++ line :: middle ++ later :: after →
      Reads (· ∉ "" :: commandNames) line →
      (∀ between ∈ middle, Reads (· ∉ [":quit", ":q", ":clear", ":c"]) between) →
      Reads (· ∉ "" :: commandNames) later → ∀ value history,
      shown[before.length]? = some (some (valueText value ++ "    [" ++ history ++ "]")) →
      ∃ value' more, shown[(before ++ line :: middle).length]? =
        some (some (valueText value' ++ "    [" ++ (history ++ more) ++ "]")) := by
  intro c lines shown outcome
  refine ⟨⟨c.length_shownFor lines, output_holdSession options input⟩, ?_, ?_, ?_, ?_⟩
  · intro kept thinned hthinned hinspects
    obtain ⟨hshown, hfailure⟩ := c.shownFor_keepAt hinspects
    rw [← hthinned] at hshown hfailure
    refine ⟨?_, exitCode_holdSession_congr options hfailure⟩
    rw [output_holdSession, hshown]
  · intro before line rest hlines hbefore hclear
    -- The calculator of a new session is a cleared one.
    have hfresh : c.clear = c := rfl
    obtain ⟨hshown, hfailure⟩ := c.shownFor_clear hbefore hclear (inputLines rest)
    rw [hfresh, ← hlines] at hshown hfailure
    refine ⟨_, output_holdSession options rest, ?_, exitCode_holdSession_congr options hfailure⟩
    have houtput : outcome.output = unlines (banner :: (c.shownFor lines).reduceOption) :=
      output_holdSession options input
    rw [houtput, hshown, List.reduceOption_append, List.reduceOption_cons_of_some]
  · intro before line after other after' hlines hother hquit
    have hsame : c.converse (inputLines other) = c.converse lines := by
      rw [hlines, hother, c.converse_of_quit before hquit after,
        c.converse_of_quit before hquit after']
    change holdSession options other = holdSession options input
    rw [holdSession, holdSession, hsame]
  · intro before line middle later after hlines hline hmiddle hlater value history hshown
    change (c.shownFor lines)[before.length]? = _ at hshown
    rw [hlines] at hshown
    obtain ⟨value', more, hlater'⟩ := c.getElem?_shownFor_later hline hmiddle hlater hshown
    rw [← hlines] at hlater'
    exact ⟨value', more, hlater'⟩

/-- A session with two sums, the stack between them, a clearing and a line behind the end. -/
theorem session_of_sums :
    let bytes := fun text : String => Text.utf8 text.toList
    let outcome := holdSession ⟨false, 0⟩ (bytes "1 2 +\n:s\n3 +\n:c\n5\n:q\n6\n")
    let shown := (Calculator.standard false).shownFor
      (inputLines (bytes "1 2 +\n:s\n3 +\n:c\n5\n:q\n6\n"))
    (holdSession ⟨false, 0⟩ (bytes "1 2 +\n3 +\n:c\n5\n:q\n6\n")).output =
      unlines (banner :: (keepAt (· != 1) shown).reduceOption) ∧
    (∃ earlier later, (holdSession ⟨false, 0⟩ (bytes "5\n:q\n6\n")).output =
        unlines (banner :: later) ∧
      outcome.output = unlines (banner :: (earlier ++ "0" :: later))) ∧
    holdSession ⟨false, 0⟩ (bytes "1 2 +\n:s\n3 +\n:c\n5\n:q\n7 8\n9") = outcome ∧
    ∃ value value' more,
      shown[0]? = some (some (valueText value ++ "    [" ++ "1+2" ++ "]")) ∧
      shown[2]? = some (some (valueText value' ++ "    [" ++ ("1+2" ++ more) ++ "]")) := by
  intro bytes outcome shown
  have hlines : inputLines (bytes "1 2 +\n:s\n3 +\n:c\n5\n:q\n6\n") =
      [bytes "1 2 +", bytes ":s", bytes "3 +", bytes ":c", bytes "5", bytes ":q", bytes "6"] := by
    decide +kernel
  obtain ⟨-, hthinned, hclear, hquit, hhistory⟩ := session_commands_act_openly ⟨false, 0⟩
    (bytes "1 2 +\n:s\n3 +\n:c\n5\n:q\n6\n")
  rw [hlines] at hthinned hclear hquit hhistory
  have hread : ∀ {p : String → Prop} {text : String}, '\x08' ∉ text.toList →
      p (String.ofList (Text.trim text.toList)) → Reads p (bytes text) := reads_utf8
  refine ⟨?_, ?_, ?_, ?_⟩
  · refine (hthinned (· != 1) _ (by decide +kernel) ?_).1
    intro place line hline hplace
    have hone : place = 1 := by simpa using hplace
    subst hone
    cases hline
    exact hread (by decide) (by decide)
  · have hrest : inputLines (bytes "5\n:q\n6\n") = [bytes "5", bytes ":q", bytes "6"] := by
      decide +kernel
    have hbefore : ∀ earlier ∈ [bytes "1 2 +", bytes ":s", bytes "3 +"],
        Reads (· ∉ [":quit", ":q"]) earlier := by
      rw [List.forall_mem_cons, List.forall_mem_cons, List.forall_mem_singleton]
      exact ⟨hread (by decide) (by decide), hread (by decide) (by decide),
        hread (by decide) (by decide)⟩
    obtain ⟨later, hlater, houtput, -⟩ := hclear _ (bytes ":c") (bytes "5\n:q\n6\n")
      (by rw [hrest]; rfl) hbefore (hread (by decide) (by decide))
    exact ⟨_, later, hlater, houtput⟩
  · exact hquit [bytes "1 2 +", bytes ":s", bytes "3 +", bytes ":c", bytes "5"] (bytes ":q")
      [bytes "6"] _ [bytes "7 8", bytes "9"] rfl (by decide +kernel) (hread (by decide) (by decide))
  · have hrequest : Request.ofBytes (bytes "1 2 +") = .ok (.enter ["1", "2", "+"]) :=
      Request.ofBytes_utf8 (by decide)
    have htext : ((Calculator.standard false).enterLine ["1", "2", "+"]).calculator.history.text =
        "1+2" := by
      decide +kernel
    have hfirst : shown[0]? = some ((Calculator.standard false).enterLine ["1", "2", "+"]).shown := by
      change ((Calculator.standard false).shownFor (inputLines _))[0]? = _
      rw [hlines, Calculator.shownFor_cons _ (Calculator.replyTo?_eq hrequest)]
      rfl
    rw [Calculator.shown_enterLine, htext, resultLine_of_ne_empty _ (by decide)] at hfirst
    have hmiddle : ∀ between ∈ [bytes ":s"],
        Reads (· ∉ [":quit", ":q", ":clear", ":c"]) between := by
      rw [List.forall_mem_singleton]
      exact hread (by decide) (by decide)
    obtain ⟨value', more, hsecond⟩ := hhistory [] (bytes "1 2 +") [bytes ":s"] (bytes "3 +") _ rfl
      (hread (by decide) (by decide)) hmiddle (hread (by decide) (by decide)) _ _ hfirst
    exact ⟨_, value', more, hfirst, hsecond⟩

end ReversePolish

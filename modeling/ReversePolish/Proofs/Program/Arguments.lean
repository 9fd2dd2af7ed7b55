import ReversePolish.Proofs.Decimal.RoundTrip
import ReversePolish.Proofs.Program.Diagnostics
import ReversePolish.Proofs.Session.Words

/-!
# Expressions as arguments

On the command line a hyphen with anything behind it begins an option, so a
negative number is not taken for a word: `rpncalc -5` is refused, although `-5`
is a number. All other words that stand for a token are calculated as given,
a lone hyphen among them, and behind a double hyphen negative numbers are too.
-/

namespace ReversePolish

/-- A word that stands for a token: a number, a standard symbol, or a second spelling of one. -/
def IsEntry (word : String) : Prop :=
  (Decimal.read? word).isSome = true ∨ word ∈ Operation.standard.map Operation.symbol ∨
    word ∈ secondSpellings

/-- Whether a word begins with a hyphen and does not end there. -/
def isHyphenated (word : String) : Bool :=
  match word.toList with
  | '-' :: _ :: _ => true
  | _ => false

theorem isHyphenated_iff (word : String) :
    isHyphenated word = true ↔ ∃ c rest, word.toList = '-' :: c :: rest := by
  unfold isHyphenated
  split
  next c rest h => exact iff_of_true rfl ⟨c, rest, h⟩
  next h => exact iff_of_false Bool.false_ne_true fun ⟨c, rest, htext⟩ => h c rest htext

/-! ### Numbers that begin with a hyphen -/

namespace Decimal

theorem numeral?_eq_none {c : Char} (hdigit : c.isDigit = false) (hpoint : c ≠ '.')
    (rest : List Char) : numeral? (c :: rest) = none := by
  have hspan : ([] ++ c :: rest).span Char.isDigit = ([], c :: rest) :=
    span_isDigit (c :: rest) (by simp) (by simpa using hdigit)
  rw [List.nil_append] at hspan
  have hfraction : fraction (c :: rest) = ([], c :: rest) := by
    rw [fraction]
    exact fun _ h => absurd (List.cons.inj h).1 hpoint
  rw [numeral?, hspan]
  dsimp only
  rw [hfraction]
  rfl

/-- How an unsigned number begins. -/
theorem head_of_magnitude? {c : Char} {rest : List Char}
    (h : (magnitude? (c :: rest)).isSome = true) :
    c.isDigit = true ∨ c = '.' ∨ c.toLower = 'i' ∨ c.toLower = 'n' := by
  have hhead : ∀ (word : String) d ds, word.toList = d :: ds →
      String.ofList ((c :: rest).map Char.toLower) = word → c.toLower = d := by
    intro word d ds hword heq
    have hlists := congrArg String.toList heq
    rw [String.toList_ofList, hword, List.map_cons] at hlists
    exact (List.cons.inj hlists).1
  rw [magnitude?] at h
  split at h
  next hinf =>
    rcases hinf with hinf | hinfinity
    · exact Or.inr (Or.inr (Or.inl (hhead "inf" 'i' _ rfl hinf)))
    · exact Or.inr (Or.inr (Or.inl (hhead "infinity" 'i' _ rfl hinfinity)))
  next =>
    split at h
    next hnan => exact Or.inr (Or.inr (Or.inr (hhead "nan" 'n' _ rfl hnan)))
    next =>
      by_contra hother
      obtain ⟨hdigit, hpoint, -⟩ : ¬ c.isDigit = true ∧ c ≠ '.' ∧ _ := by
        simpa only [not_or] using hother
      rw [numeral?_eq_none (Bool.eq_false_of_not_eq_true hdigit) hpoint] at h
      cases h

end Decimal

namespace Argument

theorem of_eq_word {argument : String} (h : isHyphenated argument = false) :
    of argument = word := by
  have hnone := mt (isHyphenated_iff argument).mpr (Bool.not_eq_true _ ▸ h)
  unfold of
  split
  next name htext => exact absurd ⟨'-', name, htext⟩ hnone
  next c rest _ htext => exact absurd ⟨c, rest, htext⟩ hnone
  next => rfl

/-- No number begins like an option that there is. -/
theorem of_eq_invalid {argument : String} (h : isHyphenated argument = true)
    (hnumber : (Decimal.read? argument).isSome = true) : of argument = invalid := by
  obtain ⟨c, rest, htext⟩ := (isHyphenated_iff argument).mp h
  have hmagnitude : (Decimal.magnitude? (c :: rest)).isSome = true := by
    rw [Decimal.read?, htext] at hnumber
    simpa [Decimal.signed] using hnumber
  have hhead := Decimal.head_of_magnitude? hmagnitude
  have hother : ∀ d : Char, d.isDigit = false → d ≠ '.' → d.toLower ≠ 'i' → d.toLower ≠ 'n' →
      c ≠ d := by
    rintro d hdigit hpoint hi hn rfl
    simp_all
  have hhyphen : c ≠ '-' := hother '-' rfl (by decide) (by decide) (by decide)
  have hv : c ≠ 'v' := hother 'v' rfl (by decide) (by decide) (by decide)
  have hV : c ≠ 'V' := hother 'V' rfl (by decide) (by decide) (by decide)
  have hh : c ≠ 'h' := hother 'h' rfl (by decide) (by decide) (by decide)
  simp [of, htext, ofCluster, hv, hV, hh]

end Argument

/-! ### Command lines of entries -/

theorem IsEntry.isNumber {word : String} (h : IsEntry word) (hhyphen : isHyphenated word = true) :
    (Decimal.read? word).isSome = true := by
  have hplain : ∀ word ∈ Operation.standard.map Operation.symbol ++ secondSpellings,
      isHyphenated word = false := by decide
  rcases h with hnumber | hsymbol | hspelling
  · exact hnumber
  · rw [hplain word (List.mem_append_left _ hsymbol)] at hhyphen
    cases hhyphen
  · rw [hplain word (List.mem_append_right _ hspelling)] at hhyphen
    cases hhyphen

theorem IsEntry.ne_double_hyphen {word : String} (h : IsEntry word) : word ≠ "--" := by
  rintro rfl
  have hnumber := h.isNumber rfl
  revert hnumber
  decide +kernel

theorem Command.read_entries (options : Options) {words : List String}
    (h : ∀ word ∈ words, IsEntry word) :
    read options words = if words.any isHyphenated then invalid else calculate options words := by
  induction words with
  | nil => rfl
  | cons word words ih =>
    rw [List.forall_mem_cons] at h
    rw [read_cons h.1.ne_double_hyphen, List.any_cons]
    cases hhyphen : isHyphenated word with
    | true => rw [Argument.of_eq_invalid hhyphen (h.1.isNumber hhyphen), Bool.true_or, if_pos rfl]
    | false =>
      rw [Argument.of_eq_word hhyphen, Bool.false_or, ih h.2]
      dsimp only
      rw [apply_ite (withWord word)]
      rfl

/-- What a command line of entries alone does. If none of them is a negative number, they are
calculated: the exit code is 0, and the value that entering them in order ends with is shown. If one
of them is, the command line is refused. Behind a double hyphen all entries are calculated. -/
theorem run_entries {words : List String} (hne : words ≠ []) (hentries : ∀ word ∈ words, IsEntry word)
    (input : List UInt8) :
    let answers := (Calculator.standard false).answers (words.map .enterWord)
    let shown := unlines [valueText (answers.getLast?.bind Answer.value)]
    (words.any isHyphenated = false →
      (run words input).exitCode = 0 ∧ (run words input).output = shown) ∧
    (words.any isHyphenated = true → run words input = ⟨2, "", []⟩) ∧
    (run ("--" :: words) input).exitCode = 0 ∧ (run ("--" :: words) input).output = shown := by
  intro answers shown
  have hshown : (calculateWords ⟨false, 0⟩ words).output = shown := by
    rw [output_calculateWords, ← Calculator.value_of_last_answer (.standard false) hne]
  have hread := Command.read_entries ⟨false, 0⟩ hentries
  refine ⟨fun hplain => ?_, fun hhyphen => ?_, ?_⟩
  · have hrun : run words input = calculateWords ⟨false, 0⟩ words := by
      obtain ⟨word, rest, rfl⟩ := List.exists_cons_of_ne_nil hne
      rw [run, Command.ofArguments, hread, hplain]
      rfl
    rw [hrun]
    exact ⟨rfl, hshown⟩
  · rw [run, Command.ofArguments, hread, if_pos hhyphen]
  · rw [run_double_hyphen words hne]
    exact ⟨rfl, hshown⟩

/-- A difference of two numbers, and the same with the second number negative. -/
theorem run_difference_of_numbers :
    (∀ word ∈ ["9", "5", "-"], IsEntry word) ∧ (∀ word ∈ ["9", "-5", "-"], IsEntry word) ∧
    (run ["9", "5", "-"] []).exitCode = 0 ∧
    run ["9", "-5", "-"] [] = ⟨2, "", []⟩ ∧ (run ["--", "9", "-5", "-"] []).exitCode = 0 := by
  have hnine : IsEntry "9" := Or.inl (by decide +kernel)
  have hfive : IsEntry "5" := Or.inl (by decide +kernel)
  have hnegative : IsEntry "-5" := Or.inl (by decide +kernel)
  have hhyphen : IsEntry "-" := Or.inr (Or.inr (by decide))
  have hplain : ∀ word ∈ ["9", "5", "-"], IsEntry word := by simp [hnine, hfive, hhyphen]
  have hsigned : ∀ word ∈ ["9", "-5", "-"], IsEntry word := by simp [hnine, hnegative, hhyphen]
  obtain ⟨hcalculated, -, -⟩ := run_entries (by simp) hplain []
  obtain ⟨-, hrefused, hbehind, -⟩ := run_entries (by simp) hsigned []
  exact ⟨hplain, hsigned, (hcalculated (by decide)).1, hrefused (by decide), hbehind⟩

/-- Not every list of entries is calculated: `-5` is a number, and entering it shows `-5`, but as an
argument it is refused. -/
theorem negative_number_refused :
    IsEntry "-5" ∧ run ["-5"] [] = ⟨2, "", []⟩ ∧
    unlines [valueText (((Calculator.standard false).answers
      [.enterWord "-5"]).getLast?.bind Answer.value)] = "-5\n" ∧
    ¬ ∀ words : List String, words ≠ [] → (∀ word ∈ words, IsEntry word) → ∀ input,
      (run words input).exitCode = 0 ∧
      (run words input).output = unlines [valueText (((Calculator.standard false).answers
        (words.map .enterWord)).getLast?.bind Answer.value)] := by
  have hnumber : IsEntry "-5" := Or.inl (by decide +kernel)
  have hrun : run ["-5"] [] = ⟨2, "", []⟩ := rfl
  refine ⟨hnumber, hrun, ?_, ?_⟩
  · have hread : Decimal.read? "-5" = some (-5) := by decide +kernel
    have hstack : ((Calculator.standard false).after [.enterWord "-5"]).stack =
        [.operand (-5)] := by
      rw [Calculator.standard, Calculator.stack_after_fresh]
      simp [enteredTokens, Call.entered, Call.token?, hread]
    have hvalue := (Calculator.standard false).value_of_last_answer (List.cons_ne_nil "-5" [])
    rw [List.map_singleton, hstack, Rule.reduce_operand] at hvalue
    rw [hvalue]
    decide +kernel
  · intro hall
    have hexit := (hall ["-5"] (by simp) (by simpa using hnumber) []).1
    rw [hrun] at hexit
    exact absurd hexit (by decide)

end ReversePolish

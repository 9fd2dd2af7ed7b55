import ReversePolish.Text.Blank

/-!
# Spaced words

A text has given words when these stand in it in order, with blanks around them
and at least one blank between each two. These are the words that it is cut
into: every text has exactly one row of words, and line ends are blanks too, so
it does not matter to the words over how many lines they are spread.
-/

namespace ReversePolish.Text

/-- At least one character, and no blank. -/
structure IsWord (word : List Char) : Prop where
  ne_nil : word ≠ []
  not_blank : ∀ c ∈ word, isBlank c = false

/-- The words of a text, in order. -/
inductive Spaced : List (List Char) → List Char → Prop where
  | nil : Spaced [] []
  | blank {c : Char} {row : List (List Char)} {rest : List Char} :
    isBlank c = true → Spaced row rest → Spaced row (c :: rest)
  | last {word : List Char} : IsWord word → Spaced [word] word
  | word {word : List Char} {c : Char} {row : List (List Char)} {rest : List Char} :
    IsWord word → isBlank c = true → Spaced row rest → Spaced (word :: row) (word ++ c :: rest)

/-! ### The words of a text -/

@[simp] theorem words_nil : words [] = [] := rfl

theorem words_append_blank (a b : List Char) {c : Char} (h : isBlank c = true) :
    words (a ++ c :: b) = words a ++ words b := by
  rw [words, List.splitOnP_append_cons a b h, List.filter_append]
  rfl

theorem words_cons_blank {c : Char} (h : isBlank c = true) (rest : List Char) :
    words (c :: rest) = words rest := words_append_blank [] rest h

theorem words_of_isWord {word : List Char} (h : IsWord word) : words word = [word] := by
  rw [words, List.splitOnP_eq_singleton h.not_blank]
  simp [h.ne_nil]

theorem Spaced.words_eq {row : List (List Char)} {text : List Char} (h : Spaced row text) :
    words text = row := by
  induction h with
  | nil => rfl
  | blank hc _ ih => rw [words_cons_blank hc, ih]
  | last hword => exact words_of_isWord hword
  | word hword hc _ ih => rw [words_append_blank _ _ hc, words_of_isWord hword, ih]; rfl

theorem IsWord.cons {c : Char} {word : List Char} (hc : isBlank c = false) (h : IsWord word) :
    IsWord (c :: word) where
  ne_nil := List.cons_ne_nil c word
  not_blank := List.forall_mem_cons.mpr ⟨hc, h.not_blank⟩

theorem IsWord.singleton {c : Char} (hc : isBlank c = false) : IsWord [c] where
  ne_nil := List.cons_ne_nil c []
  not_blank := List.forall_mem_singleton.mpr hc

theorem exists_spaced (text : List Char) : ∃ row, Spaced row text := by
  induction text with
  | nil => exact ⟨[], .nil⟩
  | cons c rest ih =>
    obtain ⟨row, hrow⟩ := ih
    cases hc : isBlank c with
    | true => exact ⟨row, .blank hc hrow⟩
    | false =>
      -- The character begins a word of its own, or the word that follows it.
      cases hrow with
      | nil => exact ⟨[[c]], .last (.singleton hc)⟩
      | blank hblank hrest => exact ⟨[c] :: row, .word (.singleton hc) hblank hrest⟩
      | last hword => exact ⟨[c :: rest], .last (hword.cons hc)⟩
      | @word word _ row _ hword hblank hrest =>
        exact ⟨(c :: word) :: row, .word (hword.cons hc) hblank hrest⟩

theorem words_eq_iff_spaced {text : List Char} {row : List (List Char)} :
    words text = row ↔ Spaced row text := by
  constructor
  · rintro rfl
    obtain ⟨row, hrow⟩ := exists_spaced text
    rw [hrow.words_eq]
    exact hrow
  · exact Spaced.words_eq

theorem Spaced.isBlank_or_mem {row : List (List Char)} {text : List Char} (h : Spaced row text)
    {c : Char} (hc : c ∈ text) : isBlank c = true ∨ ∃ word ∈ row, c ∈ word := by
  induction h with
  | nil => cases hc
  | blank hblank _ ih =>
    rcases List.mem_cons.mp hc with rfl | hrest
    · exact Or.inl hblank
    · exact ih hrest
  | last => exact Or.inr ⟨_, List.mem_singleton_self _, hc⟩
  | word _ hblank _ ih =>
    rcases List.mem_append.mp hc with hword | hrest
    · exact Or.inr ⟨_, List.mem_cons_self, hword⟩
    · rcases List.mem_cons.mp hrest with rfl | hrest
      · exact Or.inl hblank
      · exact (ih hrest).imp_right fun ⟨other, hmem, hin⟩ =>
          ⟨other, List.mem_cons_of_mem _ hmem, hin⟩

/-! ### Lines and blanks at the ends -/

theorem words_intercalate {c : Char} (h : isBlank c = true) (lines : List (List Char)) :
    words ([c].intercalate lines) = lines.flatMap words := by
  induction lines with
  | nil => rfl
  | cons line lines ih =>
    cases lines with
    | nil => simp
    | cons next lines =>
      rw [List.intercalate_cons_cons, List.append_assoc, List.singleton_append,
        words_append_blank _ _ h, ih]
      rfl

theorem flatMap_words_splitOn (text : List Char) :
    (text.splitOn '\n').flatMap words = words text := by
  have hblank : isBlank '\n' = true := by decide
  rw [← words_intercalate hblank, List.intercalate_splitOn]

theorem words_append_blanks (text : List Char) {gap : List Char}
    (h : ∀ c ∈ gap, isBlank c = true) : words (text ++ gap) = words text := by
  cases gap with
  | nil => rw [List.append_nil]
  | cons c gap =>
    rw [List.forall_mem_cons] at h
    have hgap : words gap = [] := by
      induction gap with
      | nil => rfl
      | cons d gap ih =>
        rw [List.forall_mem_cons] at h
        rw [words_cons_blank h.2.1]
        exact ih ⟨h.1, h.2.2⟩
    rw [words_append_blank _ _ h.1, hgap, List.append_nil]

theorem words_dropWhile (text : List Char) : words (text.dropWhile isBlank) = words text := by
  induction text with
  | nil => rfl
  | cons c rest ih =>
    cases hc : isBlank c with
    | true => rw [List.dropWhile_cons_of_pos hc, ih, words_cons_blank hc]
    | false => rw [List.dropWhile_cons_of_neg (by simp [hc])]

theorem words_trim (text : List Char) : words (trim text) = words text := by
  have hends := (text.dropWhile isBlank).reverse.takeWhile_append_dropWhile (p := isBlank)
  have hsplit : trim text ++ ((text.dropWhile isBlank).reverse.takeWhile isBlank).reverse =
      text.dropWhile isBlank := by
    rw [trim, ← List.reverse_append, hends, List.reverse_reverse]
  rw [← words_dropWhile text, ← hsplit, words_append_blanks]
  intro c hc
  exact List.all_eq_true.mp List.all_takeWhile c (List.mem_reverse.mp hc)

end ReversePolish.Text

/-!
# Rows of words

A row of words is written in brackets, with a comma and a blank between each two
words. Words without commas are found again where the text is cut.
-/

namespace ReversePolish.Text

/-- The parts of a text between the places where a comma and a blank stand. -/
def parts : List Char → List (List Char)
  | [] => [[]]
  | ',' :: ' ' :: rest => [] :: parts rest
  | c :: rest => (parts rest).modifyHead (c :: ·)

/-- The words of a row. The first and the last character are its brackets. -/
def rowWords (row : String) : List String :=
  (parts row.toList.tail.dropLast).map String.ofList

theorem parts_cons_of_ne {c : Char} (h : c ≠ ',') (rest : List Char) :
    parts (c :: rest) = (parts rest).modifyHead (c :: ·) := by
  rw [parts]
  exact fun _ hcomma _ => absurd hcomma h

theorem parts_word {word : List Char} (h : ',' ∉ word) : parts word = [word] := by
  induction word with
  | nil => rfl
  | cons c rest ih =>
    obtain ⟨hc, hrest⟩ := not_or.mp (mt List.mem_cons.mpr h)
    rw [parts_cons_of_ne (Ne.symm hc), ih hrest]
    rfl

theorem parts_word_append {word : List Char} (h : ',' ∉ word) (rest : List Char) :
    parts (word ++ ',' :: ' ' :: rest) = word :: parts rest := by
  induction word with
  | nil => rfl
  | cons c word ih =>
    obtain ⟨hc, hword⟩ := not_or.mp (mt List.mem_cons.mpr h)
    rw [List.cons_append, parts_cons_of_ne (Ne.symm hc), ih hword]
    rfl

theorem parts_intercalate {words : List (List Char)} (hne : words ≠ [])
    (h : ∀ word ∈ words, ',' ∉ word) : parts ([',', ' '].intercalate words) = words := by
  induction words with
  | nil => exact absurd rfl hne
  | cons word words ih =>
    have hword := h word List.mem_cons_self
    cases words with
    | nil => rw [List.intercalate_singleton, parts_word hword]
    | cons next words =>
      have hrest := ih (List.cons_ne_nil next words)
        fun other hother => h other (List.mem_cons_of_mem word hother)
      rw [List.intercalate_cons_cons, List.append_assoc, List.cons_append, List.cons_append,
        List.nil_append, parts_word_append hword, hrest]

theorem rowWords_brackets {words : List String} (hne : words ≠ [])
    (h : ∀ word ∈ words, ',' ∉ word.toList) :
    rowWords ("[" ++ ", ".intercalate words ++ "]") = words := by
  have hparts : parts ([',', ' '].intercalate (words.map String.toList)) =
      words.map String.toList := by
    refine parts_intercalate (mt List.map_eq_nil_iff.mp hne) fun letters hletters => ?_
    obtain ⟨word, hword, rfl⟩ := List.mem_map.mp hletters
    exact h word hword
  have htext : ("[" ++ ", ".intercalate words ++ "]").toList.tail.dropLast =
      [',', ' '].intercalate (words.map String.toList) := by
    rw [String.toList_append, String.toList_append, String.toList_intercalate]
    exact List.dropLast_concat
  rw [rowWords, htext, hparts, List.map_map]
  exact (List.map_congr_left fun word _ => String.ofList_toList).trans (List.map_id words)

end ReversePolish.Text

import ReversePolish.Session.Exchange
import ReversePolish.Text.Spacing

/-!
# Lines of text as input

A text goes into a session as its bytes. No byte of another character is a line
feed, so the input is cut where the text is, and each line is read as it was
written unless it holds backspaces. A line that is no command asks for its words.
-/

namespace ReversePolish

/-- The bytes of a text. -/
def Text.utf8 (text : List Char) : List UInt8 := text.flatMap String.utf8EncodeChar

/-! ### Bytes of characters -/

theorem line_feed_mem_utf8EncodeChar {c : Char} (h : 10 ∈ String.utf8EncodeChar c) : c = '\n' := by
  have hbyte : ∀ n, (10 : UInt8) = UInt8.ofNat n → n % 256 = 10 := by
    intro n heq
    have hnat := congrArg UInt8.toNat heq
    rw [UInt8.toNat_ofNat'] at hnat
    exact hnat.symm
  unfold String.utf8EncodeChar at h
  dsimp only at h
  split at h
  next hsmall =>
    have hvalue := hbyte _ (List.mem_singleton.mp h)
    refine Char.ext (UInt32.toNat_inj.mp ?_)
    change c.val.toNat = 10
    omega
  next =>
    -- All bytes of a longer character have their highest bit set.
    exfalso
    split at h
    · simp only [List.mem_cons, List.not_mem_nil, or_false] at h
      rcases h with h | h <;> have := hbyte _ h <;> omega
    · split at h
      · simp only [List.mem_cons, List.not_mem_nil, or_false] at h
        rcases h with h | h | h <;> have := hbyte _ h <;> omega
      · simp only [List.mem_cons, List.not_mem_nil, or_false] at h
        rcases h with h | h | h | h <;> have := hbyte _ h <;> omega

theorem Text.utf8_eq_nil {text : List Char} (h : utf8 text = []) : text = [] := by
  cases text with
  | nil => rfl
  | cons c rest =>
    rw [utf8, List.flatMap_cons, List.append_eq_nil_iff] at h
    exact absurd h.1 String.utf8EncodeChar_ne_nil

/-! ### Lines of an input -/

theorem mem_of_mem_splitOn {a c : Char} {line text : List Char} (hline : line ∈ text.splitOn a)
    (hc : c ∈ line) : c ∈ text := by
  induction text generalizing line with
  | nil =>
    rw [List.splitOn_nil, List.mem_singleton] at hline
    rw [hline] at hc
    exact hc
  | cons d rest ih =>
    rw [List.splitOn_cons_eq_if_modifyHead] at hline
    split at hline
    · rcases List.mem_cons.mp hline with rfl | hrest
      · exact absurd hc List.not_mem_nil
      · exact List.mem_cons_of_mem d (ih hrest hc)
    · obtain ⟨first, others, hsplit⟩ := List.exists_cons_of_ne_nil (List.splitOn_ne_nil a rest)
      rw [hsplit, List.modifyHead_cons, List.mem_cons] at hline
      rw [hsplit] at ih
      rcases hline with rfl | hother
      · rcases List.mem_cons.mp hc with rfl | hfirst
        · exact List.mem_cons_self
        · exact List.mem_cons_of_mem d (ih List.mem_cons_self hfirst)
      · exact List.mem_cons_of_mem d (ih (List.mem_cons_of_mem first hother) hc)

theorem splitOn_append_of_not_mem {bytes : List UInt8} (h : 10 ∉ bytes) (rest : List UInt8) :
    (bytes ++ rest).splitOn 10 = (rest.splitOn 10).modifyHead (bytes ++ ·) := by
  obtain ⟨first, others, hsplit⟩ := List.exists_cons_of_ne_nil (List.splitOn_ne_nil 10 rest)
  induction bytes with
  | nil => rw [List.nil_append, hsplit]; rfl
  | cons byte bytes ih =>
    rw [List.mem_cons, not_or] at h
    have hbyte : ¬ (byte == 10) = true := by simpa using Ne.symm h.1
    rw [List.cons_append, List.splitOn_cons_eq_if_modifyHead, if_neg hbyte, ih h.2, hsplit]
    rfl

theorem splitOn_utf8 (text : List Char) :
    (Text.utf8 text).splitOn 10 = (text.splitOn '\n').map Text.utf8 := by
  induction text with
  | nil => rfl
  | cons c rest ih =>
    obtain ⟨first, others, hsplit⟩ := List.exists_cons_of_ne_nil (List.splitOn_ne_nil '\n' rest)
    have hcons : Text.utf8 (c :: rest) = String.utf8EncodeChar c ++ Text.utf8 rest := rfl
    by_cases hc : c = '\n'
    · have hbyte : String.utf8EncodeChar '\n' = [10] := rfl
      rw [hcons, hc, hbyte, List.singleton_append, List.splitOn_cons_eq_if_modifyHead,
        if_pos (beq_self_eq_true 10), List.splitOn_cons_eq_if_modifyHead,
        if_pos (beq_self_eq_true '\n'), ih]
      rfl
    · rw [hcons, splitOn_append_of_not_mem (mt line_feed_mem_utf8EncodeChar hc), ih,
        List.splitOn_cons_eq_if_modifyHead, if_neg (by simpa using hc), hsplit]
      rfl

/-- The lines of an input are those of the text, without an empty one at the end. -/
theorem inputLines_utf8 (text : List Char) :
    ∃ lines, inputLines (Text.utf8 text) = lines.map Text.utf8 ∧
      (text.splitOn '\n' = lines ∨ text.splitOn '\n' = lines ++ [[]]) := by
  unfold inputLines
  rw [splitOn_utf8]
  by_cases hend : (((text.splitOn '\n').map Text.utf8).getLast?.any List.isEmpty) = true
  · have hlast := hend
    rw [List.getLast?_map, Option.any_map, Option.any_eq_true] at hlast
    obtain ⟨line, hline, hempty⟩ := hlast
    have hnil : line = [] := Text.utf8_eq_nil (List.isEmpty_iff.mp hempty)
    obtain ⟨lines, hlines⟩ := List.getLast?_eq_some_iff.mp hline
    refine ⟨lines, ?_, Or.inr (hnil ▸ hlines)⟩
    rw [if_pos hend, ← List.map_dropLast, hlines, List.dropLast_concat]
  · exact ⟨text.splitOn '\n', if_neg hend, Or.inl rfl⟩

theorem lineText_utf8 {line : List Char} (h : '\x08' ∉ line) :
    lineText (Text.utf8 line) = .ok line := by
  have hdecoded : String.fromUTF8? (Text.utf8 line).toByteArray = some (String.ofList line) :=
    dif_pos ByteArray.isValidUTF8_utf8Encode
  have hplain : Text.applyBackspaces? line = some line := by
    rw [Text.applyBackspaces?, if_neg (by simpa using h)]
  rw [lineText, hdecoded]
  dsimp only
  rw [String.toList_ofList, hplain]

theorem Request.ofBytes_utf8 {line : List Char} (h : '\x08' ∉ line) :
    ofBytes (Text.utf8 line) = .ok (ofLine line) := by
  rw [ofBytes, lineText_utf8 h]
  rfl

/-! ### Lines that are no commands -/

/-- The names of the commands. -/
def commandNames : List String := [":quit", ":q", ":clear", ":c", ":stack", ":s", ":ops"]

theorem Request.ofLine_eq {line : List Char} (h : String.ofList (Text.trim line) ∉ commandNames) :
    ofLine line =
      if (Text.trim line).isEmpty then nothing else enter ((Text.words line).map String.ofList) := by
  rw [← Text.words_trim line]
  unfold ofLine
  dsimp only
  split
  · rfl
  · split
    case h_8 => rfl
    all_goals
      next hname => exact absurd (by rw [hname]; decide) h

end ReversePolish

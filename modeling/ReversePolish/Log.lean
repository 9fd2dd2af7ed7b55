import ReversePolish.Event
import ReversePolish.Text.ControlSequence

/-!
# The log as text

The log is a plain text. Each event writes a record that begins a line; if a
symbol holds line feeds, the further lines of the record are indented, so that
only records begin at the margin. A symbol may also leave a string open. The end
of its record is then a part of the string, and what is written next goes on in
the same line: at the margin it is a part of that record, and in an indented line
it is no record at all.
-/

namespace ReversePolish

/-- A text with its further lines four blanks to the right. -/
def indentLines (text : List Char) : List Char :=
  text.flatMap fun c => if c = '\n' then '\n' :: List.replicate 4 ' ' else [c]

/-- What an event's line adds to the text of the log. -/
def recordText (line : String) : List Char := Text.plain (indentLines line.toList ++ ['\n'])

/-- Whether a character is shown and does not end a line. -/
def isInline (c : Char) : Bool := Text.isShown c && c != '\n' && c != '\r'

theorem isShown_of_isInline {c : Char} (h : isInline c = true) : Text.isShown c = true := by
  rw [isInline, Bool.and_assoc, Bool.and_eq_true] at h
  exact h.1

theorem not_mem_of_inline {text : List Char} (h : ∀ c ∈ text, isInline c = true) {c : Char}
    (hc : isInline c = false) : c ∉ text := by
  intro hmem
  rw [h c hmem] at hc
  cases hc

theorem indentLines_of_line (text : List Char) (h : '\n' ∉ text) : indentLines text = text := by
  induction text with
  | nil => rfl
  | cons c rest ih =>
    have hc : c ≠ '\n' := (List.ne_of_not_mem_cons h).symm
    have hr : '\n' ∉ rest := List.not_mem_of_not_mem_cons h
    calc indentLines (c :: rest) = c :: indentLines rest := by simp [indentLines, hc]
      _ = c :: rest := by rw [ih hr]

/-- A line without control characters is written as it is. -/
theorem recordText_of_inline (line : String) (h : ∀ c ∈ line.toList, isInline c = true) :
    recordText line = line.toList ++ ['\n'] := by
  rw [recordText, indentLines_of_line line.toList (not_mem_of_inline h rfl)]
  refine Text.plain_of_shown _ fun c hc => ?_
  rcases List.mem_append.1 hc with hc | hc
  · exact isShown_of_isInline (h c hc)
  · rw [List.mem_singleton.1 hc]
    rfl

/-- A line that is one record of a log: it has no control characters and begins at the margin. -/
structure IsRecord (line : String) : Prop where
  inline : ∀ c ∈ line.toList, isInline c = true
  margin : ∃ c rest, line.toList = c :: rest ∧ c ≠ ' '

/-- A log of which a part has been written. -/
structure LogText where
  /-- The records whose first lines have ended, newest first. -/
  records : List String
  /-- The line that has not ended, newest character first. -/
  line : List Char

namespace LogText

def empty : LogText := ⟨[], []⟩

/-- The record that a line holds; none if it is indented or empty. A carriage return at its
end belongs to the line feed. The line is given newest character first. -/
def record? (line : List Char) : Option String :=
  let text := (if line.head? = some '\r' then line.tail else line).reverse
  match text with
  | [] => none
  | c :: _ => if c = ' ' then none else some (String.ofList text)

/-- The log after one more character. -/
def put (log : LogText) (c : Char) : LogText :=
  if c = '\n' then ⟨(record? log.line).toList ++ log.records, []⟩
  else { log with line := c :: log.line }

/-- The log after one more event. -/
def write (log : LogText) (line : String) : LogText := (recordText line).foldl put log

/-- All records of a log, oldest first. -/
def toList (log : LogText) : List String :=
  ((record? log.line).toList ++ log.records).reverse

/-- The characters of an unfinished line are collected. -/
theorem foldl_put_of_line (text : List Char) (h : '\n' ∉ text) (records : List String)
    (line : List Char) :
    text.foldl put ⟨records, line⟩ = ⟨records, text.reverse ++ line⟩ := by
  induction text generalizing line with
  | nil => rfl
  | cons c rest ih =>
    have hc : c ≠ '\n' := (List.ne_of_not_mem_cons h).symm
    have hr : '\n' ∉ rest := List.not_mem_of_not_mem_cons h
    have hput : put ⟨records, line⟩ c = ⟨records, c :: line⟩ := if_neg hc
    rw [List.foldl_cons, hput, ih hr, List.reverse_cons, List.append_assoc, List.singleton_append]

/-- A line that begins at the margin and does not end in a carriage return is a record. -/
theorem record?_reverse_cons {c : Char} (hc : c ≠ ' ') {rest : List Char} (h : '\r' ∉ c :: rest) :
    record? (c :: rest).reverse = some (String.ofList (c :: rest)) := by
  have hend : (c :: rest).reverse.head? ≠ some '\r' := fun e =>
    h (List.mem_reverse.1 (List.mem_of_head? e))
  rw [record?, if_neg hend, List.reverse_reverse]
  exact if_neg hc

theorem record?_of_isRecord {line : String} (h : IsRecord line) :
    record? line.toList.reverse = some line := by
  obtain ⟨c, rest, htext, hc⟩ := h.margin
  have hreturn : '\r' ∉ line.toList := not_mem_of_inline h.inline rfl
  rw [htext] at hreturn ⊢
  rw [record?_reverse_cons hc hreturn, ← htext, String.ofList_toList]

/-- At the margin, such a line is one more record. -/
theorem write_of_isRecord (records : List String) {line : String} (h : IsRecord line) :
    (LogText.mk records []).write line = ⟨line :: records, []⟩ := by
  have hline := foldl_put_of_line line.toList (not_mem_of_inline h.inline rfl) records []
  rw [write, recordText_of_inline line h.inline, List.foldl_append, hline, List.append_nil]
  show put ⟨records, line.toList.reverse⟩ '\n' = ⟨line :: records, []⟩
  rw [put, if_pos rfl, record?_of_isRecord h]
  rfl

theorem foldl_write_of_isRecord (lines : List String) (h : ∀ line ∈ lines, IsRecord line)
    (records : List String) :
    lines.foldl write ⟨records, []⟩ = ⟨lines.reverse ++ records, []⟩ := by
  induction lines generalizing records with
  | nil => rfl
  | cons line lines ih =>
    rw [List.foldl_cons, write_of_isRecord records (h line List.mem_cons_self),
      ih (fun other hother => h other (List.mem_cons_of_mem line hother)), List.reverse_cons,
      List.append_assoc, List.singleton_append]

end LogText

/-- The name of a level begins at the margin, and so does the line of an event. -/
theorem Level.name_isRecord (level : Level) : IsRecord level.name := by
  cases level with
  | debug =>
    have hinline : "DEBUG".toList.all isInline = true := rfl
    exact ⟨List.all_eq_true.1 hinline, 'D', ['E', 'B', 'U', 'G'], rfl, by decide⟩
  | trace =>
    have hinline : "TRACE".toList.all isInline = true := rfl
    exact ⟨List.all_eq_true.1 hinline, 'T', ['R', 'A', 'C', 'E'], rfl, by decide⟩

theorem Event.line_isRecord {event : Event}
    (h : ∀ c ∈ event.message.toList, isInline c = true) : IsRecord event.line := by
  have htext : event.line.toList = event.level.name.toList ++ ' ' :: event.message.toList := by
    rw [Event.line, String.toList_append, String.toList_append, List.append_assoc]
    rfl
  have hname := event.level.name_isRecord
  obtain ⟨first, rest, hfirst, hmargin⟩ := hname.margin
  refine ⟨fun c hc => ?_, first, rest ++ ' ' :: event.message.toList, ?_, hmargin⟩
  · rw [htext, List.mem_append, List.mem_cons] at hc
    rcases hc with hc | rfl | hc
    · exact hname.inline c hc
    · rfl
    · exact h c hc
  · rw [htext, hfirst, List.cons_append]

/-- The records that a reader finds in the log of a run. -/
def plainLog (verbosity : Verbosity) (events : List Event) : List String :=
  ((verbosity.log events).foldl LogText.write .empty).toList

/-- Unless a message holds control characters, the log is the lines of the events that are
shown, and nothing else. -/
theorem plainLog_of_inline (verbosity : Verbosity) (events : List Event)
    (h : ∀ event ∈ events, ∀ c ∈ event.message.toList, isInline c = true) :
    plainLog verbosity events = verbosity.log events := by
  have hlines : ∀ line ∈ verbosity.log events, IsRecord line := by
    intro line hline
    obtain ⟨event, hevent, rfl⟩ := List.mem_map.1 hline
    exact Event.line_isRecord (h event (List.mem_filter.1 hevent).1)
  have hlog := LogText.foldl_write_of_isRecord _ hlines []
  rw [List.append_nil] at hlog
  rw [plainLog, LogText.empty, hlog]
  exact List.reverse_reverse _

end ReversePolish

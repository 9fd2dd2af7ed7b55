import ReversePolish.Proofs.Calculator.History
import ReversePolish.Proofs.Session.Lines
import ReversePolish.Proofs.Session.Words

/-!
# What the lines of a session do

A line is told by its text between the blanks at its ends. A blank line and a
command that shows something leave the calculator as it is, a clearing makes it
a fresh one, and the words of a line add to its history's text. So a line acts
on what is shown later only through the stack and the history, and a clearing
forgets both.
-/

namespace ReversePolish

/-! ### Lines by their names -/

/-- The texts by which a line asks for something else than words. -/
def Request.names : Request → List String
  | nothing => [""]
  | quit => [":quit", ":q"]
  | clear => [":clear", ":c"]
  | showStack => [":stack", ":s"]
  | showOperations => [":ops"]
  | enter _ => []

/-- A line can be read, and what stands in it between the blanks at its ends has a property. -/
def Reads (p : String → Prop) (line : List UInt8) : Prop :=
  ∃ text, lineText line = .ok text ∧ p (String.ofList (Text.trim text))

theorem reads_utf8 {p : String → Prop} {line : List Char} (hplain : '\x08' ∉ line)
    (h : p (String.ofList (Text.trim line))) : Reads p (Text.utf8 line) :=
  ⟨line, lineText_utf8 hplain, h⟩

namespace Request

theorem ofLine_of_mem_names {request : Request} {line : List Char}
    (h : String.ofList (Text.trim line) ∈ request.names) : ofLine line = request := by
  have htrim : ∀ name, String.ofList (Text.trim line) = name → Text.trim line = name.toList := by
    rintro _ rfl
    exact String.toList_ofList.symm
  cases request with
  | enter words => exact absurd h List.not_mem_nil
  | nothing | showOperations =>
    rw [ofLine, htrim _ (List.mem_singleton.mp h)]
    rfl
  | quit | clear | showStack =>
    rcases List.mem_pair.mp h with h | h
    all_goals
      rw [ofLine, htrim _ h]
      rfl

theorem mem_names_of_ofLine {line : List Char} (h : ∀ words, ofLine line ≠ enter words) :
    String.ofList (Text.trim line) ∈ (ofLine line).names := by
  unfold ofLine at h ⊢
  dsimp only at h ⊢
  split
  next hempty =>
    rw [List.isEmpty_iff.mp hempty]
    decide
  next hne =>
    rw [if_neg hne] at h
    split at h
    case h_8 => exact absurd rfl (h _)
    all_goals
      next hname =>
        rw [hname]
        decide

end Request

theorem Reads.ofBytes_eq {request : Request} {line : List UInt8}
    (h : Reads (· ∈ request.names) line) : Request.ofBytes line = .ok request := by
  obtain ⟨text, htext, hname⟩ := h
  rw [Request.ofBytes, htext, ← Request.ofLine_of_mem_names hname]
  rfl

theorem Reads.exists_request {names : List String} {line : List UInt8}
    (h : Reads (· ∉ names) line) :
    ∃ request, Request.ofBytes line = .ok request ∧
      (request.names ⊆ names → ∃ words, request = .enter words) := by
  obtain ⟨text, htext, hname⟩ := h
  refine ⟨Request.ofLine text, by rw [Request.ofBytes, htext]; rfl, fun hsub => ?_⟩
  by_contra hwords
  exact hname (hsub (Request.mem_names_of_ofLine (not_exists.mp hwords)))

namespace Calculator

/-! ### Lines that only show something -/

theorem replyTo?_of_inspects (c : Calculator) {line : List UInt8}
    (h : Reads (· ∈ ["", ":stack", ":s", ":ops"]) line) :
    ∃ shown events, c.replyTo? line = some ⟨c, shown, events⟩ := by
  obtain ⟨text, htext, hname⟩ := h
  have hnames : ["", ":stack", ":s", ":ops"] =
      Request.nothing.names ++ (Request.showStack.names ++ Request.showOperations.names) := rfl
  rw [hnames, List.mem_append, List.mem_append] at hname
  rcases hname with hname | hname | hname
  all_goals exact ⟨_, _, replyTo?_eq (Reads.ofBytes_eq ⟨text, htext, hname⟩)⟩

/-- Without some of the lines that only show something, the same is shown for the others. -/
theorem shownFor_keepAt (c : Calculator) {lines : List (List UInt8)} {kept : Nat → Bool}
    (h : ∀ place line, lines[place]? = some line → kept place = false →
      Reads (· ∈ ["", ":stack", ":s", ":ops"]) line) :
    c.shownFor (keepAt kept lines) = keepAt kept (c.shownFor lines) ∧
      (c.converse (keepAt kept lines)).failure = (c.converse lines).failure := by
  induction lines generalizing c kept with
  | nil => exact ⟨rfl, rfl⟩
  | cons line lines ih =>
    have hrest := fun d => ih d fun place other hother hleft => h (place + 1) other hother hleft
    cases hkept : kept 0 with
    | false =>
      obtain ⟨shown, events, hreply⟩ := c.replyTo?_of_inspects (h 0 line rfl hkept)
      rw [shownFor_cons lines hreply, converse_cons lines hreply]
      simp only [keepAt, hkept, Bool.false_eq_true, if_false]
      exact hrest c
    | true =>
      have hlines : keepAt kept (line :: lines) =
          line :: keepAt (fun place => kept (place + 1)) lines := by
        simp only [keepAt, hkept, if_true]
      rw [hlines]
      cases hreply : c.replyTo? line with
      | none =>
        -- The session ends with a line that is kept, so it ends in both with this line.
        rw [shownFor_of_ended _ hreply, shownFor_of_ended _ hreply, (converse_of_ended _ hreply).1,
          (converse_of_ended lines hreply).1, ← keepAt_map]
        simp only [keepAt, hkept, if_true, and_self]
      | some reply =>
        obtain ⟨hshown, hfailure⟩ := hrest reply.calculator
        rw [shownFor_cons _ hreply, shownFor_cons _ hreply, converse_cons _ hreply,
          converse_cons _ hreply, hshown]
        simp only [keepAt, hkept, if_true, Transcript.after, hfailure, and_self]

/-! ### Lines that end a session -/

theorem converse_of_quit (c : Calculator) (before : List (List UInt8)) {line : List UInt8}
    (h : Reads (· ∈ [":quit", ":q"]) line) (after : List (List UInt8)) :
    c.converse (before ++ line :: after) = c.converse (before ++ [line]) := by
  induction before generalizing c with
  | nil =>
    have hrequest : Request.ofBytes line = .ok .quit := Reads.ofBytes_eq h
    exact (converse_of_ended after (replyTo?_eq hrequest)).1
  | cons first before ih =>
    rw [List.cons_append, List.cons_append]
    cases hreply : c.replyTo? first with
    | none => rw [(converse_of_ended _ hreply).1, (converse_of_ended (before ++ [line]) hreply).1]
    | some reply => rw [converse_cons _ hreply, converse_cons _ hreply, ih]

theorem exists_replyTo? (c : Calculator) {line : List UInt8}
    (h : Reads (· ∉ [":quit", ":q"]) line) : ∃ reply, c.replyTo? line = some reply := by
  obtain ⟨request, hrequest, hwords⟩ := h.exists_request
  cases request with
  | quit => exact nomatch hwords (List.Subset.refl _)
  | _ => exact ⟨_, replyTo?_eq hrequest⟩

theorem exists_behind? (c : Calculator) {lines : List (List UInt8)}
    (h : ∀ line ∈ lines, Reads (· ∉ [":quit", ":q"]) line) : ∃ d, c.behind? lines = some d := by
  induction lines generalizing c with
  | nil => exact ⟨c, rfl⟩
  | cons line lines ih =>
    rw [List.forall_mem_cons] at h
    obtain ⟨reply, hreply⟩ := c.exists_replyTo? h.1
    rw [behind?_cons lines hreply]
    exact ih reply.calculator h.2

/-! ### Clearing -/

/-- The registry and the tracing, which clearing keeps, stay the same in every call. -/
theorem clear_call (c : Calculator) (call : Call) : (c.call call).calculator.clear = c.clear := by
  by_cases h : call.asksValue = true
  · rw [calculator_call c h]
    cases call.token? c.registry <;> rfl
  · rcases Call.eq_of_not_asksValue h with rfl | rfl | rfl <;> rfl

theorem clear_after (c : Calculator) (calls : List Call) : (c.after calls).clear = c.clear := by
  induction calls generalizing c with
  | nil => rfl
  | cons call calls ih => rw [after_cons, ih, clear_call]

theorem clear_reply? {c : Calculator} {request : Request} {reply : Reply}
    (h : c.reply? request = some reply) : reply.calculator.clear = c.clear := by
  cases request with
  | quit => cases h
  | nothing | clear | showStack | showOperations =>
    cases h
    rfl
  | enter words =>
    cases h
    have hwords := c.clear_after (words.map .enterWord)
    rw [calculator_enterLine, ← hwords]
    rfl

theorem clear_replyTo? {c : Calculator} {line : List UInt8} {reply : Reply}
    (h : c.replyTo? line = some reply) : reply.calculator.clear = c.clear := by
  rw [replyTo?] at h
  cases hrequest : Request.ofBytes line with
  | error failure =>
    rw [hrequest] at h
    cases h
  | ok request =>
    rw [hrequest] at h
    exact clear_reply? h

theorem clear_behind? {c d : Calculator} {lines : List (List UInt8)}
    (h : c.behind? lines = some d) : d.clear = c.clear := by
  induction lines generalizing c with
  | nil =>
    cases h
    rfl
  | cons line lines ih =>
    obtain ⟨reply, hreply, hbehind⟩ := Option.bind_eq_some_iff.mp h
    rw [ih hbehind, clear_replyTo? hreply]

/-- Behind a clearing a session goes on as one that begins there. -/
theorem shownFor_clear (c : Calculator) {before : List (List UInt8)} {line : List UInt8}
    (hbefore : ∀ earlier ∈ before, Reads (· ∉ [":quit", ":q"]) earlier)
    (hclear : Reads (· ∈ [":clear", ":c"]) line) (after : List (List UInt8)) :
    c.shownFor (before ++ line :: after) =
        c.shownFor before ++ some "0" :: c.clear.shownFor after ∧
      (c.converse (before ++ line :: after)).failure = (c.clear.converse after).failure := by
  obtain ⟨d, hbehind⟩ := c.exists_behind? hbefore
  have hrequest : Request.ofBytes line = .ok .clear := Reads.ofBytes_eq hclear
  have hreply : d.replyTo? line = some ⟨c.clear, some "0", []⟩ := by
    rw [replyTo?_eq hrequest, reply?, clear_behind? hbehind]
  rw [shownFor_append hbehind, failure_converse_append hbehind, shownFor_cons after hreply,
    converse_cons after hreply]
  exact ⟨rfl, rfl⟩

/-! ### The history's text -/

theorem text_after_words (c : Calculator) (words : List String) :
    (c.after (words.map .enterWord)).history.text = c.history.text := by
  induction words generalizing c with
  | nil => rfl
  | cons word words ih =>
    have hword : (c.call (.enterWord word)).calculator.history.text = c.history.text := by
      have hcall := @calculator_call c (.enterWord word) rfl
      rw [hcall]
      cases Call.token? c.registry (.enterWord word) with
      | none => rfl
      | some token => cases token <;> rfl
    rw [List.map_cons, after_cons, ih, hword]

theorem text_enterLine (c : Calculator) (words : List String) :
    ∃ more, (c.enterLine words).calculator.history.text = c.history.text ++ more := by
  rw [calculator_enterLine, ← text_after_words c words]
  change ∃ more, ((c.after (words.map .enterWord)).history.update).text = _
  by_cases hstarved : (c.after (words.map .enterWord)).history.Starved
  · exact ⟨"", by rw [History.update_of_starved hstarved, String.append_empty]⟩
  · obtain ⟨written, -, htext⟩ := History.text_update_of_not_starved hstarved
    exact ⟨written, htext⟩

theorem text_replyTo? (c : Calculator) {line : List UInt8}
    (h : Reads (· ∉ [":quit", ":q", ":clear", ":c"]) line) :
    ∃ reply more, c.replyTo? line = some reply ∧
      reply.calculator.history.text = c.history.text ++ more := by
  obtain ⟨request, hrequest, hwords⟩ := h.exists_request
  have hreply := @replyTo?_eq c line request hrequest
  cases request with
  | quit | clear => exact nomatch hwords (by decide)
  | nothing | showStack | showOperations => exact ⟨_, "", hreply, String.append_empty.symm⟩
  | enter words =>
    obtain ⟨more, htext⟩ := c.text_enterLine words
    exact ⟨_, more, hreply, htext⟩

theorem text_behind? (c : Calculator) {lines : List (List UInt8)}
    (h : ∀ line ∈ lines, Reads (· ∉ [":quit", ":q", ":clear", ":c"]) line) :
    ∃ d more, c.behind? lines = some d ∧ d.history.text = c.history.text ++ more := by
  induction lines generalizing c with
  | nil => exact ⟨c, "", rfl, String.append_empty.symm⟩
  | cons line lines ih =>
    rw [List.forall_mem_cons] at h
    obtain ⟨reply, more, hreply, htext⟩ := c.text_replyTo? h.1
    obtain ⟨d, more', hbehind, htext'⟩ := ih reply.calculator h.2
    exact ⟨d, more ++ more', by rw [behind?_cons lines hreply, hbehind],
      by rw [htext', htext, String.append_assoc]⟩

theorem replyTo?_of_words (c : Calculator) {line : List UInt8}
    (h : Reads (· ∉ "" :: commandNames) line) :
    ∃ words, c.replyTo? line = some (c.enterLine words) := by
  obtain ⟨request, hrequest, hwords⟩ := h.exists_request
  have hnames : request.names ⊆ "" :: commandNames := by
    cases request with
    | enter words => exact List.nil_subset _
    | _ => decide
  obtain ⟨words, rfl⟩ := hwords hnames
  exact ⟨words, replyTo?_eq hrequest⟩

end Calculator

end ReversePolish

import ReversePolish.Session.Reply
import Mathlib.Data.List.ReduceOption

/-!
# Exchanges of a session

A session line by line: what a line asks for once it can be read, the reply to
it, what is shown for each line, and the calculator behind the lines so far. A
session ends with the line that asks for it or cannot be read. A session over
two rows of lines is one over the first and then, with the calculator behind
it, one over the second.
-/

namespace ReversePolish

/-- What a line of bytes asks for, if it can be read. -/
def Request.ofBytes (line : List UInt8) : Except LineError Request := (lineText line).map ofLine

/-- The entries of a list at the places that are kept. -/
def keepAt {α : Type} (kept : Nat → Bool) : List α → List α
  | [] => []
  | entry :: rest =>
    let others := keepAt (fun place => kept (place + 1)) rest
    if kept 0 then entry :: others else others

theorem keepAt_map {α β : Type} (f : α → β) (kept : Nat → Bool) (entries : List α) :
    keepAt kept (entries.map f) = (keepAt kept entries).map f := by
  induction entries generalizing kept with
  | nil => rfl
  | cons entry rest ih =>
    simp only [List.map_cons, keepAt, ih]
    split <;> rfl

namespace Calculator

/-- The reply to a line; none if the session ends with it. -/
def replyTo? (c : Calculator) (line : List UInt8) : Option Reply :=
  match Request.ofBytes line with
  | .error _ => none
  | .ok request => c.reply? request

/-- The calculator behind lines; none if the session has ended. -/
def behind? (c : Calculator) : List (List UInt8) → Option Calculator
  | [] => some c
  | line :: lines => (c.replyTo? line).bind fun reply => reply.calculator.behind? lines

/-- What a session shows for each of its lines. Nothing is shown for the line that it ends with and
for those behind it. -/
def shownFor (c : Calculator) : List (List UInt8) → List (Option String)
  | [] => []
  | line :: lines =>
    match c.replyTo? line with
    | none => none :: lines.map fun _ => none
    | some reply => reply.shown :: reply.calculator.shownFor lines

/-! ### Sessions and their first line -/

section Lines

variable {c : Calculator} {line : List UInt8} (lines : List (List UInt8))

theorem replyTo?_eq {request : Request} (h : Request.ofBytes line = .ok request) :
    c.replyTo? line = c.reply? request := by
  rw [replyTo?, h]

theorem converse_cons {reply : Reply} (h : c.replyTo? line = some reply) :
    c.converse (line :: lines) = .after reply (reply.calculator.converse lines) := by
  rw [replyTo?, Request.ofBytes] at h
  rw [converse]
  cases htext : lineText line with
  | error failure =>
    rw [htext] at h
    cases h
  | ok text =>
    rw [htext] at h
    change c.reply? (Request.ofLine text) = some reply at h
    dsimp only
    rw [h]

theorem converse_of_ended (h : c.replyTo? line = none) :
    c.converse (line :: lines) = c.converse [line] ∧ (c.converse [line]).shown = [] := by
  rw [replyTo?, Request.ofBytes] at h
  rw [converse, converse]
  cases htext : lineText line with
  | error failure => exact ⟨rfl, rfl⟩
  | ok text =>
    rw [htext] at h
    change c.reply? (Request.ofLine text) = none at h
    dsimp only
    rw [h]
    exact ⟨rfl, rfl⟩

theorem shownFor_cons {reply : Reply} (h : c.replyTo? line = some reply) :
    c.shownFor (line :: lines) = reply.shown :: reply.calculator.shownFor lines := by
  rw [shownFor, h]

theorem shownFor_of_ended (h : c.replyTo? line = none) :
    c.shownFor (line :: lines) = none :: lines.map fun _ => none := by
  rw [shownFor, h]

theorem behind?_cons {reply : Reply} (h : c.replyTo? line = some reply) :
    c.behind? (line :: lines) = reply.calculator.behind? lines := by
  rw [behind?, h, Option.bind_some]

end Lines

/-! ### Sessions as a whole -/

theorem length_shownFor (c : Calculator) (lines : List (List UInt8)) :
    (c.shownFor lines).length = lines.length := by
  induction lines generalizing c with
  | nil => rfl
  | cons line lines ih =>
    cases h : c.replyTo? line with
    | none => rw [shownFor_of_ended lines h, List.length_cons, List.length_map, List.length_cons]
    | some reply => rw [shownFor_cons lines h, List.length_cons, ih, List.length_cons]

theorem shown_converse (c : Calculator) (lines : List (List UInt8)) :
    (c.converse lines).shown = (c.shownFor lines).reduceOption := by
  induction lines generalizing c with
  | nil => rfl
  | cons line lines ih =>
    cases h : c.replyTo? line with
    | none =>
      obtain ⟨hended, hshown⟩ := converse_of_ended lines h
      rw [hended, hshown, shownFor_of_ended lines h, List.map_const', List.reduceOption_cons_of_none,
        List.reduceOption_replicate_none]
    | some reply =>
      rw [converse_cons lines h, shownFor_cons lines h, Transcript.after, ih]
      cases reply.shown with
      | none => rfl
      | some text => rfl

section Append

variable {c d : Calculator} {before : List (List UInt8)} (h : c.behind? before = some d)
  (lines : List (List UInt8))
include h

theorem shownFor_append : c.shownFor (before ++ lines) = c.shownFor before ++ d.shownFor lines := by
  induction before generalizing c with
  | nil =>
    cases h
    rfl
  | cons line before ih =>
    obtain ⟨reply, hreply, hbehind⟩ := Option.bind_eq_some_iff.mp h
    rw [List.cons_append, shownFor_cons _ hreply, shownFor_cons _ hreply, ih hbehind,
      List.cons_append]

theorem failure_converse_append :
    (c.converse (before ++ lines)).failure = (d.converse lines).failure := by
  induction before generalizing c with
  | nil =>
    cases h
    rfl
  | cons line before ih =>
    obtain ⟨reply, hreply, hbehind⟩ := Option.bind_eq_some_iff.mp h
    rw [List.cons_append, converse_cons _ hreply]
    exact ih hbehind

theorem behind?_append : c.behind? (before ++ lines) = d.behind? lines := by
  induction before generalizing c with
  | nil =>
    cases h
    rfl
  | cons line before ih =>
    obtain ⟨reply, hreply, hbehind⟩ := Option.bind_eq_some_iff.mp h
    rw [List.cons_append, behind?_cons _ hreply, ih hbehind]

end Append

/-- What is shown for one line depends on the calculator that stands behind the lines before. -/
theorem getElem?_shownFor (c : Calculator) (before : List (List UInt8)) (line : List UInt8)
    (after : List (List UInt8)) :
    (c.shownFor (before ++ line :: after))[before.length]? =
      some ((c.behind? before).bind fun d => (d.replyTo? line).bind Reply.shown) := by
  induction before generalizing c with
  | nil =>
    rw [List.nil_append, shownFor, behind?, Option.bind_some]
    cases c.replyTo? line with
    | none => rfl
    | some reply => rfl
  | cons first before ih =>
    rw [List.cons_append, List.length_cons]
    cases h : c.replyTo? first with
    | none =>
      rw [shownFor_of_ended _ h, behind?, h, List.getElem?_cons_succ, List.getElem?_map,
        List.getElem?_append_right (Nat.le_refl _), Nat.sub_self]
      rfl
    | some reply => rw [shownFor_cons _ h, behind?_cons _ h, List.getElem?_cons_succ, ih]

end Calculator

end ReversePolish

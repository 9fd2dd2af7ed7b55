import ReversePolish.Proofs.Calculator.Diagnostics
import ReversePolish.Session.Reply

/-!
# Sessions with and without tracing

What a session shows, and whether it fails, is the same with tracing and without:
each line takes two calculators that differ in tracing only to two such
calculators again, and shows the same text.
-/

namespace ReversePolish

theorem Answer.Agrees.enterWords {tracing : Bool} {answer traced : Answer}
    (h : answer.Agrees tracing traced) (words : List String) :
    (answer.enterWords words).Agrees tracing (traced.enterWords words) := by
  induction words generalizing answer traced with
  | nil => exact h
  | cons word words ih =>
    have hword := ih (answer.calculator.call_agrees tracing (.enterWord word))
    rw [← h.calculator] at hword
    exact ⟨hword.calculator, hword.value⟩

/-- A reply is the same as another one but for tracing and for what is reported. -/
structure Reply.Agrees (tracing : Bool) (reply traced : Reply) : Prop where
  calculator : traced.calculator = reply.calculator.withTracing tracing
  shown : traced.shown = reply.shown

namespace Calculator

theorem enterLine_agrees (c : Calculator) (tracing : Bool) (words : List String) :
    (c.enterLine words).Agrees tracing ((c.withTracing tracing).enterLine words) := by
  have hwords := (c.call_agrees tracing .evaluate).enterWords words
  change ((c.answer []).enterWords words).Agrees tracing
    (((c.withTracing tracing).answer []).enterWords words) at hwords
  refine ⟨?_, ?_⟩
  · rw [enterLine, hwords.calculator]
    rfl
  · simp only [enterLine, hwords.calculator, hwords.value]
    rfl

theorem reply?_agrees (c : Calculator) (tracing : Bool) (request : Request) :
    (c.reply? request = none ∧ (c.withTracing tracing).reply? request = none) ∨
      ∃ reply traced, c.reply? request = some reply ∧
        (c.withTracing tracing).reply? request = some traced ∧ reply.Agrees tracing traced := by
  cases request with
  | quit => exact Or.inl ⟨rfl, rfl⟩
  | nothing | clear | showOperations => exact Or.inr ⟨_, _, rfl, rfl, rfl, rfl⟩
  | showStack =>
    have hshown := congrArg some (describeStack_value_withTracing c tracing)
    exact Or.inr ⟨_, _, rfl, rfl, rfl, hshown⟩
  | enter words => exact Or.inr ⟨_, _, rfl, rfl, c.enterLine_agrees tracing words⟩

theorem converse_withTracing (c : Calculator) (tracing : Bool) (lines : List (List UInt8)) :
    ((c.withTracing tracing).converse lines).shown = (c.converse lines).shown ∧
      ((c.withTracing tracing).converse lines).failure = (c.converse lines).failure := by
  induction lines generalizing c with
  | nil => exact ⟨rfl, rfl⟩
  | cons line lines ih =>
    rw [converse, converse]
    cases lineText line with
    | error failure => exact ⟨rfl, rfl⟩
    | ok text =>
      dsimp only
      rcases c.reply?_agrees tracing (Request.ofLine text) with
        ⟨hquit, hquit'⟩ | ⟨reply, traced, hreply, hreply', hagrees⟩
      · rw [hquit, hquit']
        exact ⟨rfl, rfl⟩
      · have hrest := ih reply.calculator
        rw [← hagrees.calculator] at hrest
        rw [hreply, hreply']
        simp only [Transcript.after, hagrees.shown, hrest, and_self]

end Calculator

end ReversePolish

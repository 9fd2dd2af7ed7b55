import ReversePolish.Program
import ReversePolish.Proofs.Session.Tracing

/-!
# Diagnostics of the program

On the command line diagnostics are asked for by flags. Adding flags changes the
options and nothing else, unless tracing is asked for twice, which is refused; and
what the program shows and its exit code do not depend on the options.
-/

namespace ReversePolish

/-! ### Flags added to a command line -/

/-- Whether an argument asks for diagnostics. -/
def Argument.isDiagnostic : Argument → Bool
  | tracing => true
  | moreDetail _ => true
  | _ => false

namespace Command

/-- One command line is another one with flags added before the double hyphen. -/
inductive Flagged : List String → List String → Prop where
  | nil : Flagged [] []
  | words (rest : List String) : Flagged ("--" :: rest) ("--" :: rest)
  | keep {argument : String} {base flagged : List String} (before : argument ≠ "--") :
    Flagged base flagged → Flagged (argument :: base) (argument :: flagged)
  | add {flag : String} {base flagged : List String}
    (diagnostic : (Argument.of flag).isDiagnostic = true) :
    Flagged base flagged → Flagged base (flag :: flagged)

/-- How often tracing is asked for before the double hyphen. -/
def tracings : List String → Nat
  | [] => 0
  | argument :: rest =>
    if argument = "--" then 0
    else (if Argument.of argument = .tracing then 1 else 0) + tracings rest

/-- A command with the options left out. -/
def withoutOptions : Command → Command
  | calculate _ words => calculate ⟨false, 0⟩ words
  | command => command

theorem withoutOptions_withWord (word : String) (command : Command) :
    (command.withWord word).withoutOptions = command.withoutOptions.withWord word := by
  cases command <;> rfl

theorem read_cons {argument : String} (h : argument ≠ "--") (options : Options)
    (rest : List String) :
    read options (argument :: rest) =
      match Argument.of argument with
      | .word => (read options rest).withWord argument
      | .tracing => if options.tracing then invalid else read { options with tracing := true } rest
      | .moreDetail times => read { options with detail := options.detail + times } rest
      | .version => version
      | .help => help
      | .invalid => invalid :=
  if_neg h

theorem tracings_cons {argument : String} (h : argument ≠ "--") (rest : List String) :
    tracings (argument :: rest) =
      (if Argument.of argument = .tracing then 1 else 0) + tracings rest := by
  rw [tracings, if_neg h]

/-- Flags leave everything but the options as it is, unless tracing is asked for again. -/
theorem read_flagged {base flagged : List String} (h : Flagged base flagged)
    (options options' : Options) (hle : options.tracing = true → options'.tracing = true) :
    (read options' flagged).withoutOptions = (read options base).withoutOptions ∨
      read options' flagged = .invalid ∧ 1 < options'.tracing.toNat + tracings flagged := by
  induction h generalizing options options' with
  | nil => exact Or.inl rfl
  | words rest => exact Or.inl rfl
  | @keep argument base flagged before _ ih =>
    rw [read_cons before, read_cons before, tracings_cons before]
    cases Argument.of argument with
    | word =>
      rcases ih options options' hle with heq | ⟨hinvalid, hcount⟩
      · exact Or.inl (by simp only [withoutOptions_withWord, heq])
      · exact Or.inr ⟨by simp only [hinvalid, withWord], by simpa using hcount⟩
    | tracing =>
      -- Asked for a second time, tracing ends the reading; the first time both go on with it.
      cases htwice : options'.tracing with
      | true => exact Or.inr ⟨rfl, by rw [if_pos rfl, Bool.toNat_true]; omega⟩
      | false =>
        have honce : options.tracing = false := by
          cases honce : options.tracing with
          | false => rfl
          | true => exact absurd (hle honce) (by simp [htwice])
        simpa [honce] using ih { options with tracing := true } { options' with tracing := true }
          fun _ => rfl
    | moreDetail times =>
      simpa using ih { options with detail := options.detail + times }
        { options' with detail := options'.detail + times } hle
    | version | help | invalid => exact Or.inl rfl
  | @add flag base flagged diagnostic _ ih =>
    have before : flag ≠ "--" := by
      rintro rfl
      revert diagnostic
      decide
    rw [read_cons before, tracings_cons before]
    cases hflag : Argument.of flag with
    | tracing =>
      cases htwice : options'.tracing with
      | true => exact Or.inr ⟨rfl, by rw [if_pos rfl, Bool.toNat_true]; omega⟩
      | false => simpa using ih options { options' with tracing := true } fun _ => rfl
    | moreDetail times =>
      simpa using ih options { options' with detail := options'.detail + times } hle
    | word | version | help | invalid =>
      rw [hflag] at diagnostic
      cases diagnostic

end Command

/-! ### What the program shows -/

theorem calculateWords_options (options options' : Options) (words : List String) :
    (calculateWords options words).exitCode = (calculateWords options' words).exitCode ∧
      (calculateWords options words).output = (calculateWords options' words).output := by
  have hbegin : Answer.Agrees options.tracing ⟨.standard options'.tracing, none, []⟩
      ⟨.standard options.tracing, none, []⟩ := ⟨rfl, rfl⟩
  have hvalue := (hbegin.enterWords words).value
  exact ⟨rfl, by rw [calculateWords, calculateWords, hvalue]⟩

theorem holdSession_options (options options' : Options) (input : List UInt8) :
    (holdSession options input).exitCode = (holdSession options' input).exitCode ∧
      (holdSession options input).output = (holdSession options' input).output := by
  obtain ⟨hshown, hfailure⟩ := (Calculator.standard options'.tracing).converse_withTracing
    options.tracing (inputLines input)
  change ((Calculator.standard options.tracing).converse _).shown = _ at hshown
  change ((Calculator.standard options.tracing).converse _).failure = _ at hfailure
  simp only [holdSession, hshown, hfailure, and_self]

theorem run_eq_of_withoutOptions {a b : List String}
    (h : (Command.ofArguments a).withoutOptions = (Command.ofArguments b).withoutOptions)
    (input : List UInt8) :
    (run a input).exitCode = (run b input).exitCode ∧ (run a input).output = (run b input).output := by
  rw [run, run]
  generalize Command.ofArguments a = command at h
  generalize Command.ofArguments b = command' at h
  cases command with
  | calculate options words =>
    cases command' with
    | calculate options' words' =>
      simp only [Command.withoutOptions, Command.calculate.injEq, true_and] at h
      subst h
      cases words with
      | nil => exact holdSession_options options options' input
      | cons word words => exact calculateWords_options options options' (word :: words)
    | version | help | invalid => simp [Command.withoutOptions] at h
  | version | help | invalid =>
    cases command' <;> first
      | exact ⟨rfl, rfl⟩
      | simp [Command.withoutOptions] at h

theorem run_flagged {base flagged : List String} (h : Command.Flagged base flagged)
    (haccepted : Command.tracings flagged ≤ 1 ∨ Command.ofArguments flagged ≠ .invalid)
    (input : List UInt8) :
    (run flagged input).exitCode = (run base input).exitCode ∧
      (run flagged input).output = (run base input).output := by
  have hread := Command.read_flagged h ⟨false, 0⟩ ⟨false, 0⟩ id
  refine run_eq_of_withoutOptions ?_ input
  rcases hread with heq | ⟨hinvalid, hcount⟩
  · exact heq
  · rw [Bool.toNat_false] at hcount
    rcases haccepted with honce | haccepted
    · omega
    · exact absurd hinvalid haccepted

/-- Diagnostics do not interfere. What a run of calls shows is the same under all settings; a
coarser log is the finer one without its detailed records, and an untraced one is the traced one
without its steps. A call that evaluates reports a symbol that is not known, the steps of the
reduction and the outcome, in this order; the other calls report steps at most. And flags added to
a command line change neither what is shown nor the exit code, as long as tracing is asked for once
at most or the command line is accepted at all. -/
theorem diagnostics_do_not_interfere :
    (∀ (c : Calculator) (settings settings' : Settings) (calls : List Call),
      (c.runUnder settings calls).1 = (c.runUnder settings' calls).1) ∧
    (∀ (c : Calculator) (tracing : Bool) (calls : List Call),
      (c.runUnder ⟨tracing, .debug⟩ calls).2 =
        (c.runUnder ⟨tracing, .trace⟩ calls).2.filter fun event => event.level == .debug) ∧
    (∀ (c : Calculator) (verbosity : Verbosity) (calls : List Call),
      (c.runUnder ⟨false, verbosity⟩ calls).2 =
        (c.runUnder ⟨true, verbosity⟩ calls).2.filter fun event => event.level != .trace) ∧
    (∀ (c : Calculator) (call : Call), call.evaluates = true →
      let next := (c.call call).calculator
      let steps := (next.stack.reduce c.tracing).events
      (c.call call).events =
        (call.unknown? c.registry).toList.map Event.unknown ++
          (steps ++ [.evaluated next.stack next.reduce.value]) ∧
      (∀ event ∈ steps, event.level = .trace) ∧
      (c.call call).value = next.reduce.value.result ∧
      next.reduce.value.remaining.reverse <+: next.stack.reverse) ∧
    (∀ (c : Calculator) (call : Call), call.evaluates = false →
      ∀ event ∈ (c.call call).events, event.level = .trace) ∧
    (∀ (c : Calculator), ∀ event ∈ c.describeStack.events, event.level = .trace) ∧
    ∀ (base flagged : List String) (input : List UInt8), Command.Flagged base flagged →
      Command.tracings flagged ≤ 1 ∨ Command.ofArguments flagged ≠ .invalid →
      (run flagged input).exitCode = (run base input).exitCode ∧
        (run flagged input).output = (run base input).output := by
  refine ⟨?_, ?_, ?_, ?_, ?_, ?_, ?_⟩
  · exact fun c settings settings' calls => c.shown_runUnder settings settings' calls
  · exact fun c tracing calls => c.log_runUnder_debug tracing calls
  · exact fun c verbosity calls => c.log_runUnder_untraced verbosity calls
  · intro c call h next steps
    have hasks : call.asksValue = true := Call.asksValue_of_evaluates h
    have hevents := c.events_call h
    rw [Calculator.evaluation, c.tracing_call call] at hevents
    refine ⟨hevents, fun event => Stack.level_of_mem_events_reduce, ?_, ?_⟩
    · rw [Calculator.value_call c hasks, Calculator.reduce_value]
    · rw [Calculator.reduce_value, List.reverse_prefix]
      exact Rule.remaining_suffix next.stack
  · exact fun c call h event => c.level_of_not_evaluates h
  · exact fun c event => Stack.level_of_mem_events_reduce
  · exact fun base flagged input h haccepted => run_flagged h haccepted input

/-- Flags before, between and behind words, with a negative number behind the double hyphen; and the
records of a symbol that is not known, and of a reduction, where nothing has been entered. -/
theorem run_with_flags :
    let base := ["9", "6", "-", "--", "-5"]
    let flagged := ["-v", "9", "--trace", "6", "-", "-vv", "--", "-5"]
    let c := Calculator.standard true
    (Command.Flagged base flagged ∧ Command.tracings flagged ≤ 1 ∧
      (run flagged []).exitCode = (run base []).exitCode ∧
      (run flagged []).output = (run base []).output) ∧
    (c.call (.enterSymbol "foo")).events =
      .unknown "foo" :: ((Stack.reduce true []).events ++ [.evaluated [] c.reduce.value]) ∧
    Event.returned ⟨[], .starved []⟩ ∈ (c.call .reduce).events ∧
    (Event.returned ⟨[], .starved []⟩).level = .trace := by
  intro base flagged c
  have hflagged : Command.Flagged base flagged :=
    .add (by decide) <| .keep (by decide) <| .add (by decide) <| .keep (by decide) <|
      .keep (by decide) <| .add (by decide) <| .words ["-5"]
  have honce : Command.tracings flagged ≤ 1 := by decide
  have hmember : Event.returned ⟨[], .starved []⟩ ∈ (c.call .reduce).events := by
    change Event.returned ⟨[], .starved []⟩ ∈ (Stack.reduce true []).events
    rw [Stack.reduce, reduceTracing_eq, if_pos rfl, Rule.calls, Rule.call, Rule.reduce_nil]
    exact List.mem_singleton_self _
  obtain ⟨-, -, -, hevaluates, hsilent, -, hrun⟩ := diagnostics_do_not_interfere
  exact ⟨⟨hflagged, honce, hrun base flagged [] hflagged (Or.inl honce)⟩,
    (hevaluates c (.enterSymbol "foo") rfl).1, hmember, hsilent c .reduce rfl _ hmember⟩

end ReversePolish

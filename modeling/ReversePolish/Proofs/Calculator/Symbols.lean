import ReversePolish.Proofs.Calculator.Replay
import ReversePolish.Proofs.Registry.FirstOffer

/-!
# Symbols identify operations

Operations are compared by kind and symbol, and two equal ones may well compute
different values. On the stacks of calculators over one registry they do not:
each operation there is the one that its symbol belongs to. So stacks that
cannot be told apart by comparing their tokens are the same stack, and what is
entered on them later is answered in the same way.
-/

namespace ReversePolish

theorem Operation.symbol_eq_of_beq {a b : Operation} (h : (a == b) = true) :
    a.symbol = b.symbol := by
  change (a.kind == b.kind && a.symbol == b.symbol) = true at h
  rw [Bool.and_eq_true] at h
  exact eq_of_beq h.2

/-- Comparing does not tell the operations apart, though they supply different values. -/
example : (Operation.mk "k" (.constant 1) == Operation.mk "k" (.constant 2)) = true := by decide

/-- Tokens that comparing cannot tell apart. Here a number counts as itself alone: the two zeros are
told apart, and NaN is NaN. -/
inductive Token.Alike : Token → Token → Prop where
  | operand (value : Float) : Alike (.operand value) (.operand value)
  | operation {a b : Operation} (same : (a == b) = true) : Alike (.operation a) (.operation b)

namespace Registry

variable {registry : Registry}

theorem Owns.eq_of_symbol_eq {a b : Operation} (ha : registry.Owns (.operation a))
    (hb : registry.Owns (.operation b)) (h : a.symbol = b.symbol) : a = b := by
  change registry.resolve a.symbol = some a at ha
  change registry.resolve b.symbol = some b at hb
  rw [h, hb] at ha
  exact (Option.some.inj ha).symm

theorem Owns.eq_of_alike {a b : Token} (ha : registry.Owns a) (hb : registry.Owns b)
    (h : a.Alike b) : a = b := by
  cases h with
  | operand value => rfl
  | operation same =>
    exact congrArg Token.operation (ha.eq_of_symbol_eq hb (Operation.symbol_eq_of_beq same))

theorem eq_of_alike_rows {a b : List Token} (ha : ∀ token ∈ a, registry.Owns token)
    (hb : ∀ token ∈ b, registry.Owns token) (h : List.Forall₂ Token.Alike a b) : a = b := by
  induction h with
  | nil => rfl
  | @cons x y xs ys hxy _ ih =>
    rw [List.forall_mem_cons] at ha hb
    rw [ha.1.eq_of_alike hb.1 hxy, ih ha.2 hb.2]

end Registry

namespace Calculator

theorem owns_of_mem_stack_after_fresh (registry : Registry) (tracing : Bool) (calls : List Call) :
    ∀ token ∈ ((fresh registry tracing).after calls).stack, registry.Owns token :=
  owns_of_mem_stack_after (c := fresh registry tracing) (fun _ h => absurd h List.not_mem_nil) calls

theorem map_value_answers_of_stack_eq {c d : Calculator} (hregistry : c.registry = d.registry)
    (hstack : c.stack = d.stack) (calls : List Call) :
    (c.answers calls).map Answer.value = (d.answers calls).map Answer.value := by
  have hledger : c.ledger = d.ledger := by rw [ledger, ledger, hstack]
  have hobserved := congrArg (List.map Prod.snd) (observe_eq_of_ledger_eq hregistry hledger calls)
  rw [observe, observe, List.map_map, List.map_map] at hobserved
  exact hobserved

/-- In every state of a calculator each operation on the stack is the one that the registry has
under its symbol, and it stays so. Hence comparing is sound over one registry: of two calculators
whose stacks hold the same numbers and equal operations at the same places, reductions give the same
result and leave the same, and whatever is asked of both next has the same values as answers. -/
theorem alike_stacks_answer_alike (steps : List RegistryStep) (tracing tracing' : Bool)
    (calls calls' : List Call) :
    let registry := Registry.ofSteps steps
    let c := (fresh registry tracing).after calls
    let d := (fresh registry tracing').after calls'
    (∀ op, .operation op ∈ c.stack → registry.resolve op.symbol = some op) ∧
    (∀ more op, .operation op ∈ (c.after more).stack → registry.resolve op.symbol = some op) ∧
    (List.Forall₂ Token.Alike c.stack d.stack →
      c.reduce.value = d.reduce.value ∧
      ∀ more, (c.answers more).map Answer.value = (d.answers more).map Answer.value) := by
  intro registry c d
  have howned : ∀ token ∈ c.stack, registry.Owns token :=
    owns_of_mem_stack_after_fresh registry tracing calls
  have howned' : ∀ token ∈ d.stack, registry.Owns token :=
    owns_of_mem_stack_after_fresh registry tracing' calls'
  have hregistry : c.registry = registry := registry_after (fresh registry tracing) calls
  have hregistry' : d.registry = registry := registry_after (fresh registry tracing') calls'
  refine ⟨fun op hop => howned _ hop, ?_, ?_⟩
  · intro more op hop
    rw [← hregistry] at howned ⊢
    exact owns_of_mem_stack_after howned more _ hop
  · intro halike
    have hstack : c.stack = d.stack := Registry.eq_of_alike_rows howned howned' halike
    refine ⟨by rw [reduce_value, reduce_value, hstack], ?_⟩
    exact map_value_answers_of_stack_eq (hregistry.trans hregistry'.symm) hstack

/-- A registry in which `+` stands for the newer value, and two ways to the stack `2 3 +`. -/
theorem alike_stacks_of_newer_value :
    let newer : Operation := ⟨"+", .binary fun top _ => top⟩
    let registry := Registry.ofSteps [.register (.operation newer), .loadStandard]
    let c := (fresh registry true).after [.enterOperand 2, .enterOperand 3, .enterSymbol "+"]
    let d := (fresh registry false).after
      [.enterSymbol "π", .clear, .enterOperand 2, .enterSymbol "foo", .enterOperand 3, .evaluate,
        .enterSymbol "+"]
    registry.resolve "+" = some newer ∧ List.Forall₂ Token.Alike c.stack d.stack ∧
    (c.answers [.enterSymbol "√"]).map Answer.value =
      (d.answers [.enterSymbol "√"]).map Answer.value := by
  intro newer registry c d
  have hplus : registry.resolve "+" = some newer := by
    rw [Registry.resolve, Registry.operations_ofSteps, find?_firstOfEach]
    rfl
  have hfoo : registry.resolve "foo" = none := by
    rw [Registry.resolve, Registry.operations_ofSteps, find?_firstOfEach]
    rfl
  have hc : c.stack.reverse = [.operand 2, .operand 3, .operation newer] := by
    rw [stack_after]
    simp [Call.entered, Call.token?, fresh, hplus]
  have hd : d.stack.reverse = [.operand 2, .operand 3, .operation newer] := by
    rw [stack_after]
    simp [Call.entered, Call.token?, fresh, hplus, hfoo]
  rw [List.reverse_eq_iff] at hc hd
  have halike : List.Forall₂ Token.Alike c.stack d.stack := by
    rw [hc, hd]
    exact .cons (.operation (by decide)) (.cons (.operand 3) (.cons (.operand 2) .nil))
  have hmain := alike_stacks_answer_alike [.register (.operation newer), .loadStandard] true false
    [.enterOperand 2, .enterOperand 3, .enterSymbol "+"]
    [.enterSymbol "π", .clear, .enterOperand 2, .enterSymbol "foo", .enterOperand 3, .evaluate,
      .enterSymbol "+"]
  exact ⟨hplus, halike, (hmain.2.2 halike).2 [.enterSymbol "√"]⟩

end Calculator

end ReversePolish

import ReversePolish.Calculator.Call
import ReversePolish.Registry.Offers

/-!
# Registering succeeds or changes nothing

A token is registered unless it is an operand or its symbol is taken, and the
error says which of the two it was. A registration that fails leaves no mark, one
that succeeds adds one operation at the end. So the failing ones can be left out
of the making of a registry, and neither the registry nor any calculator over it
tells the difference.
-/

namespace ReversePolish

namespace Registry

variable {registry : Registry} {op : Operation}

/-! ### The outcome of a registration -/

/-- The three ways a registration can go. -/
theorem register_cases (registry : Registry) (token : Token) :
    (∃ value, token = .operand value ∧
      registry.register token = (registry, .error (.notAnOperation token.text))) ∨
    (∃ op existing, token = .operation op ∧ registry.resolve op.symbol = some existing ∧
      registry.register token =
        (registry, .error (.duplicateSymbol op.symbol existing.kind))) ∨
    ∃ op free, token = .operation op ∧
      registry.register token = (registry.insertNew op free, .ok ()) := by
  cases token with
  | operand value => exact Or.inl ⟨value, rfl, rfl⟩
  | operation op =>
    cases h : registry.resolve op.symbol with
    | some existing =>
      exact Or.inr (Or.inl ⟨op, existing, rfl, h, register_of_resolve_eq_some h⟩)
    | none => exact Or.inr (Or.inr ⟨op, h, rfl, register_of_resolve_eq_none h⟩)

theorem register_eq_notAnOperation_iff (registry : Registry) (token : Token) (text : String) :
    (registry.register token).2 = .error (.notAnOperation text) ↔
      token.isOperand = true ∧ text = token.text := by
  rcases registry.register_cases token with
    ⟨value, rfl, h⟩ | ⟨op, existing, rfl, -, h⟩ | ⟨op, free, rfl, h⟩
  · simp [h, Token.isOperand, eq_comm]
  · simp [h, Token.isOperand]
  · simp [h, Token.isOperand]

theorem register_eq_duplicateSymbol_iff (registry : Registry) (token : Token) (symbol : String)
    (kind : Kind) :
    (registry.register token).2 = .error (.duplicateSymbol symbol kind) ↔
      token.symbol? = some symbol ∧
        ∃ existing, registry.resolve symbol = some existing ∧ existing.kind = kind := by
  rcases registry.register_cases token with
    ⟨value, rfl, h⟩ | ⟨op, existing, rfl, htaken, h⟩ | ⟨op, free, rfl, h⟩
  · simp [h, Token.symbol?]
  · simp only [h, Token.symbol?, Except.error.injEq, RegistryError.duplicateSymbol.injEq,
      Option.some.injEq]
    refine and_congr_right fun hsymbol => ?_
    rw [← hsymbol, htaken]
    simp
  · simp only [h, Token.symbol?, Option.some.injEq, reduceCtorEq, false_iff]
    rintro ⟨rfl, existing, hexisting, -⟩
    rw [free] at hexisting
    cases hexisting

theorem register_eq_ok_iff (registry : Registry) (token : Token) :
    (registry.register token).2 = .ok () ↔
      ∃ symbol, token.symbol? = some symbol ∧ registry.resolve symbol = none := by
  rcases registry.register_cases token with
    ⟨value, rfl, h⟩ | ⟨op, existing, rfl, htaken, h⟩ | ⟨op, free, rfl, h⟩
  · simp [h, Token.symbol?]
  · simp [h, Token.symbol?, htaken]
  · simp [h, Token.symbol?, free]

/-- A registration that fails gives back the registry that it was given. -/
theorem register_eq_self_of_error {token : Token} {error : RegistryError}
    (h : (registry.register token).2 = .error error) : (registry.register token).1 = registry := by
  rcases registry.register_cases token with
    ⟨value, -, hregister⟩ | ⟨op, existing, -, -, hregister⟩ | ⟨op, free, -, hregister⟩
  · rw [hregister]
  · rw [hregister]
  · rw [hregister] at h
    cases h

/-! ### What can be asked afterwards -/

/-- One more operation at the end of a registry, and no other change in what can be asked of it. -/
structure ExtendedBy (registry : Registry) (op : Operation) (registered : Registry) : Prop where
  resolve : ∀ symbol, registered.resolve symbol =
    if symbol = op.symbol then some op else registry.resolve symbol
  contains : ∀ symbol, registered.contains symbol =
    (symbol == op.symbol || registry.contains symbol)
  arity : ∀ symbol, registered.arity symbol =
    if symbol = op.symbol then some op.arity else registry.arity symbol
  symbols : registered.symbols = registry.symbols ++ [op.symbol]
  size : registered.size = registry.size + 1
  isEmpty : registered.isEmpty = false

theorem resolve_insertNew (free : registry.resolve op.symbol = none) (symbol : String) :
    (registry.insertNew op free).resolve symbol =
      if symbol = op.symbol then some op else registry.resolve symbol := by
  have hfind : (registry.insertNew op free).resolve symbol =
      (registry.resolve symbol).or ([op].find? fun op => op.symbol == symbol) :=
    List.find?_append
  rw [hfind]
  split
  next h =>
    rw [h, free]
    simp
  next h => simp [Ne.symm h]

theorem extendedBy_insertNew (free : registry.resolve op.symbol = none) :
    registry.ExtendedBy op (registry.insertNew op free) where
  resolve := resolve_insertNew free
  contains symbol := by
    unfold Registry.contains
    rw [resolve_insertNew]
    split <;> simp_all
  arity symbol := by
    unfold Registry.arity
    rw [resolve_insertNew]
    split <;> rfl
  symbols := List.map_append
  size := List.length_append
  isEmpty := by simp [Registry.isEmpty, insertNew]

theorem extendedBy_of_register {token : Token} (h : (registry.register token).2 = .ok ()) :
    ∃ op, token = .operation op ∧ registry.ExtendedBy op (registry.register token).1 := by
  rcases registry.register_cases token with
    ⟨value, -, hregister⟩ | ⟨op, existing, -, -, hregister⟩ | ⟨op, free, htoken, hregister⟩
  · rw [hregister] at h
    cases h
  · rw [hregister] at h
    cases h
  · rw [hregister]
    exact ⟨op, htoken, extendedBy_insertNew free⟩

/-! ### Runs without failures -/

/-- Whether a step is a registration that fails. -/
def failsAt (registry : Registry) : RegistryStep → Bool
  | .register token =>
    match (registry.register token).2 with
    | .ok _ => false
    | .error _ => true
  | _ => false

/-- The steps of a run but for the registrations that fail in it. -/
def withoutFailures (registry : Registry) : List RegistryStep → List RegistryStep
  | [] => []
  | step :: steps =>
    let later := (registry.after step).withoutFailures steps
    if registry.failsAt step then later else step :: later

theorem after_of_failsAt {step : RegistryStep} (h : registry.failsAt step = true) :
    registry.after step = registry := by
  cases step with
  | register token =>
    cases hregister : (registry.register token).2 with
    | ok registered => simp [failsAt, hregister] at h
    | error error => exact register_eq_self_of_error hregister
  | _ => cases h

theorem foldl_after_withoutFailures (registry : Registry) (steps : List RegistryStep) :
    (registry.withoutFailures steps).foldl after registry = steps.foldl after registry := by
  induction steps generalizing registry with
  | nil => rfl
  | cons step steps ih =>
    rw [withoutFailures, List.foldl_cons]
    by_cases h : registry.failsAt step = true
    · rw [if_pos h, after_of_failsAt h, ih]
    · rw [if_neg h, List.foldl_cons, ih]

theorem withoutFailures_withoutFailures (registry : Registry) (steps : List RegistryStep) :
    registry.withoutFailures (registry.withoutFailures steps) = registry.withoutFailures steps := by
  induction steps generalizing registry with
  | nil => rfl
  | cons step steps ih =>
    by_cases h : registry.failsAt step = true
    · rw [withoutFailures, if_pos h, after_of_failsAt h, ih]
    · rw [withoutFailures, if_neg h, withoutFailures, if_neg h, ih]

theorem withoutFailures_sublist (registry : Registry) (steps : List RegistryStep) :
    (registry.withoutFailures steps).Sublist steps := by
  induction steps generalizing registry with
  | nil => exact List.Sublist.slnil
  | cons step steps ih =>
    rw [withoutFailures]
    split
    · exact (ih (registry.after step)).cons step
    · exact (ih (registry.after step)).cons_cons step

/-- A registration fails for an operand, which the error shows, and for a symbol that is taken,
where the error names the kind of the operation that has it; else it succeeds. Failing leaves the
registry as it is, succeeding adds the operation at the end. Left out of a run, the failing
registrations change neither the registry that it makes nor any answer of a calculator over it. -/
theorem register_all_or_nothing (registry : Registry) (token : Token)
    (steps : List RegistryStep) :
    let registered := (registry.register token).1
    let outcome := (registry.register token).2
    (∀ text, outcome = .error (.notAnOperation text) ↔
      token.isOperand = true ∧ text = token.text) ∧
    (∀ symbol kind, outcome = .error (.duplicateSymbol symbol kind) ↔
      token.symbol? = some symbol ∧
        ∃ existing, registry.resolve symbol = some existing ∧ existing.kind = kind) ∧
    (outcome = .ok () ↔
      ∃ symbol, token.symbol? = some symbol ∧ registry.resolve symbol = none) ∧
    (∀ error, outcome = .error error → registered = registry) ∧
    (outcome = .ok () → ∃ op, token = .operation op ∧ registry.ExtendedBy op registered) ∧
    let kept := empty.withoutFailures steps
    ofSteps kept = ofSteps steps ∧ kept.Sublist steps ∧ empty.withoutFailures kept = kept ∧
    ∀ tracing calls, (Calculator.fresh (ofSteps kept) tracing).answers calls =
      (Calculator.fresh (ofSteps steps) tracing).answers calls := by
  intro registered outcome
  have hsame : ofSteps (empty.withoutFailures steps) = ofSteps steps :=
    empty.foldl_after_withoutFailures steps
  refine ⟨registry.register_eq_notAnOperation_iff token,
    registry.register_eq_duplicateSymbol_iff token, registry.register_eq_ok_iff token,
    fun _ => register_eq_self_of_error, extendedBy_of_register, hsame,
    empty.withoutFailures_sublist steps, empty.withoutFailures_withoutFailures steps, ?_⟩
  intro tracing calls
  rw [hsame]

/-- Among the standard operations a unary `+` and a number are refused, and a change of sign is
registered. -/
theorem register_change_of_sign :
    let negate : Token := .operation ⟨"±", .unary fun x => -x⟩
    let plus : Token := .operation ⟨"+", .unary fun x => x⟩
    standard.register plus = (standard, .error (.duplicateSymbol "+" .binary)) ∧
    (standard.register negate).2 = .ok () ∧
    (standard.register negate).1.symbols = standard.symbols ++ ["±"] ∧
    ofSteps [.loadStandard, .register negate] =
      ofSteps [.register (.operand 1), .loadStandard, .register plus, .register negate] := by
  intro negate plus
  let steps : List RegistryStep :=
    [.register (.operand 1), .loadStandard, .register plus, .register negate]
  obtain ⟨-, hduplicate, -, hunchanged, -⟩ := register_all_or_nothing standard plus []
  have hplus : (standard.register plus).2 = .error (.duplicateSymbol "+" .binary) :=
    (hduplicate "+" .binary).mpr ⟨rfl, Operation.add, rfl, rfl⟩
  obtain ⟨-, -, hfree, -, hadded, hrun, -⟩ := register_all_or_nothing standard negate steps
  have hnegate : (standard.register negate).2 = .ok () := hfree.mpr ⟨"±", rfl, rfl⟩
  obtain ⟨op, hop, hextended⟩ := hadded hnegate
  have hsymbol : "±" = op.symbol := Option.some.inj (congrArg Token.symbol? hop)
  have hkept : empty.withoutFailures steps = [.loadStandard, .register negate] := rfl
  rw [hkept] at hrun
  exact ⟨Prod.ext (hunchanged _ hplus) hplus, hnegate, hsymbol ▸ hextended.symbols, hrun⟩

end Registry

end ReversePolish

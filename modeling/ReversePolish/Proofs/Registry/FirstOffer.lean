import ReversePolish.Calculator.Report
import ReversePolish.Proofs.Calculator.Ledger
import ReversePolish.Registry.Offers
import Mathlib.Data.List.Induction

/-!
# A registry is the first offers of its log

However a registry came about, it holds of each symbol the operation that was
offered first, in the order of the first offers, and nothing else. A symbol is
looked up in the registry as one would look it up in the log. What is offered
later, whether one by one or with the standard operations, is added at the end
or has no effect: no operation that is registered is replaced or moved.
-/

namespace ReversePolish

/-! ### First offers of a log -/

theorem mem_map_symbol_firstOfEach (log : List Operation) (symbol : String) :
    symbol ∈ (firstOfEach log).map Operation.symbol ↔ symbol ∈ log.map Operation.symbol := by
  induction log with
  | nil => rfl
  | cons op rest ih =>
    simp only [firstOfEach, List.map_cons, List.mem_cons, ← ih]
    constructor
    · rintro (rfl | hkept)
      · exact Or.inl rfl
      · obtain ⟨other, hother, rfl⟩ := List.mem_map.mp hkept
        exact Or.inr (List.mem_map_of_mem (List.mem_filter.mp hother).1)
    · rintro (rfl | hrest)
      · exact Or.inl rfl
      · obtain ⟨other, hother, rfl⟩ := List.mem_map.mp hrest
        by_cases hsame : other.symbol = op.symbol
        · exact Or.inl hsame
        · exact Or.inr (List.mem_map_of_mem (List.mem_filter.mpr ⟨hother, bne_iff_ne.mpr hsame⟩))

theorem find?_firstOfEach (log : List Operation) (symbol : String) :
    (firstOfEach log).find? (fun op => op.symbol == symbol) =
      log.find? fun op => op.symbol == symbol := by
  induction log with
  | nil => rfl
  | cons op rest ih =>
    by_cases hop : op.symbol = symbol
    · rw [firstOfEach, List.find?_cons_of_pos (by simp [hop]),
        List.find?_cons_of_pos (by simp [hop])]
    · -- Only operations under another symbol than the one looked up are filtered out.
      rw [firstOfEach, List.find?_cons_of_neg (by simp [hop]),
        List.find?_cons_of_neg (by simp [hop]), ← ih, List.find?_filter]
      congr 1
      funext other
      by_cases hother : other.symbol = symbol
      · simp [hother, Ne.symm hop]
      · simp [hother]

theorem firstOfEach_concat (log : List Operation) (op : Operation) :
    firstOfEach (log ++ [op]) =
      if op.symbol ∈ log.map Operation.symbol then firstOfEach log
      else firstOfEach log ++ [op] := by
  induction log with
  | nil => rfl
  | cons first rest ih =>
    rw [List.cons_append, firstOfEach, ih]
    by_cases hfirst : op.symbol = first.symbol
    · simp [firstOfEach, hfirst, apply_ite]
    · by_cases hrest : op.symbol ∈ rest.map Operation.symbol
      · simp [firstOfEach, hrest]
      · simp [firstOfEach, hrest, hfirst]

theorem map_symbol_firstOfEach (log : List Operation) :
    (firstOfEach log).map Operation.symbol = (log.map Operation.symbol).eraseDups := by
  induction log using List.reverseRecOn with
  | nil => rfl
  | append_singleton log op ih =>
    rw [firstOfEach_concat, List.map_append, List.eraseDups_append, ← ih, List.map_singleton,
      List.removeAll, List.filter_singleton, List.elem_eq_mem]
    by_cases hop : op.symbol ∈ log.map Operation.symbol
    · rw [if_pos hop, decide_eq_true hop]
      simp
    · rw [if_neg hop, decide_eq_false hop]
      simp [List.eraseDups_cons]

/-- What is offered under symbols of the log has no part in its first offers. -/
theorem firstOfEach_append_of_mem (log : List Operation) {more : List Operation}
    (h : ∀ op ∈ more, op.symbol ∈ log.map Operation.symbol) :
    firstOfEach (log ++ more) = firstOfEach log := by
  induction more using List.reverseRecOn with
  | nil => rw [List.append_nil]
  | append_singleton more op ih =>
    have hop : op.symbol ∈ (log ++ more).map Operation.symbol := by
      rw [List.map_append]
      exact List.mem_append_left _ (h op (List.mem_append_right more (List.mem_singleton_self op)))
    rw [← List.append_assoc, firstOfEach_concat, if_pos hop]
    exact ih fun other hother => h other (List.mem_append_left [op] hother)

/-! ### Offers to a registry -/

namespace Registry

theorem eq_of_operations_eq {a b : Registry} (h : a.operations = b.operations) : a = b := by
  obtain ⟨operations, _⟩ := a
  obtain ⟨_, _⟩ := b
  cases h
  rfl

theorem operations_offer (registry : Registry) (op : Operation) :
    (registry.offer op).operations =
      if op.symbol ∈ registry.symbols then registry.operations
      else registry.operations ++ [op] := by
  cases h : registry.resolve op.symbol with
  | some existing =>
    have htaken : op.symbol ∈ registry.symbols := by
      by_contra hfree
      rw [(registry.resolve_eq_none_iff op.symbol).mpr hfree] at h
      cases h
    rw [offer_of_resolve_eq_some h, if_pos htaken]
  | none =>
    have hfree := (registry.resolve_eq_none_iff op.symbol).mp h
    rw [offer_of_resolve_eq_none h, if_neg hfree]
    rfl

/-- A registration whose error is ignored is an offer. -/
theorem after_register (registry : Registry) (op : Operation) :
    registry.after (.register (.operation op)) = registry.offer op := by
  rw [after]
  cases h : registry.resolve op.symbol with
  | some existing => rw [register_of_resolve_eq_some h, offer_of_resolve_eq_some h]
  | none => rw [register_of_resolve_eq_none h, offer_of_resolve_eq_none h]

theorem loadStandard_eq_foldl_register (registry : Registry) :
    registry.loadStandard =
      Operation.standard.foldl (fun r op => r.after (.register (.operation op))) registry := by
  simp only [loadStandard, after_register]

theorem operations_foldl_offer {registry : Registry} {log : List Operation}
    (h : registry.operations = firstOfEach log) (ops : List Operation) :
    (ops.foldl offer registry).operations = firstOfEach (log ++ ops) := by
  induction ops generalizing registry log with
  | nil => rw [List.foldl_nil, List.append_nil, h]
  | cons op ops ih =>
    have hoffer : (registry.offer op).operations = firstOfEach (log ++ [op]) := by
      have hsymbols : op.symbol ∈ registry.symbols ↔ op.symbol ∈ log.map Operation.symbol := by
        rw [symbols, h, mem_map_symbol_firstOfEach]
      simp only [operations_offer, firstOfEach_concat, hsymbols, h]
    rw [List.foldl_cons, ih hoffer, List.append_assoc, List.singleton_append]

/-! ### Steps and their log -/

theorem operations_empty : empty.operations = firstOfEach [] := rfl

theorem operations_after {registry : Registry} {log : List Operation}
    (h : registry.operations = firstOfEach log) (step : RegistryStep) :
    (registry.after step).operations = firstOfEach (step.logged log) := by
  cases step with
  | beginEmpty => rfl
  | beginStandard => exact operations_foldl_offer operations_empty Operation.standard
  | loadStandard => exact operations_foldl_offer h Operation.standard
  | register token =>
    cases token with
    | operand value => exact h
    | operation op =>
      rw [after_register]
      exact operations_foldl_offer h [op]

theorem operations_foldl_after {registry : Registry} {log : List Operation}
    (h : registry.operations = firstOfEach log) (steps : List RegistryStep) :
    (steps.foldl after registry).operations =
      firstOfEach (steps.foldl RegistryStep.logged log) := by
  induction steps generalizing registry log with
  | nil => exact h
  | cons step steps ih => exact ih (operations_after h step)

theorem operations_ofSteps (steps : List RegistryStep) :
    (ofSteps steps).operations = firstOfEach (offers steps) :=
  operations_foldl_after operations_empty steps

theorem resolve_ofSteps (steps : List RegistryStep) (symbol : String) :
    (ofSteps steps).resolve symbol = (offers steps).find? fun op => op.symbol == symbol := by
  rw [resolve, operations_ofSteps, find?_firstOfEach]

/-! ### What later steps leave alone -/

theorem operations_prefix_foldl_offer (registry : Registry) (ops : List Operation) :
    registry.operations <+: (ops.foldl offer registry).operations := by
  induction ops generalizing registry with
  | nil => exact List.prefix_refl registry.operations
  | cons op ops ih =>
    refine List.IsPrefix.trans ?_ (ih (registry.offer op))
    rw [operations_offer]
    split
    · exact List.prefix_refl registry.operations
    · exact List.prefix_append registry.operations [op]

end Registry

/-- Whether a step begins a new registry. -/
def RegistryStep.startsOver : RegistryStep → Bool
  | beginEmpty => true
  | beginStandard => true
  | loadStandard => false
  | register _ => false

namespace Registry

theorem operations_prefix_after (registry : Registry) {step : RegistryStep}
    (h : step.startsOver = false) :
    registry.operations <+: (registry.after step).operations := by
  cases step with
  | beginEmpty | beginStandard => cases h
  | loadStandard => exact operations_prefix_foldl_offer registry Operation.standard
  | register token =>
    cases token with
    | operand value => exact List.prefix_refl registry.operations
    | operation op =>
      rw [after_register]
      exact operations_prefix_foldl_offer registry [op]

theorem operations_prefix_foldl_after (registry : Registry) {steps : List RegistryStep}
    (h : ∀ step ∈ steps, step.startsOver = false) :
    registry.operations <+: (steps.foldl after registry).operations := by
  induction steps generalizing registry with
  | nil => exact List.prefix_refl registry.operations
  | cons step steps ih =>
    have hfirst := registry.operations_prefix_after (h step List.mem_cons_self)
    have hrest := ih (registry.after step) fun later hlater =>
      h later (List.mem_cons_of_mem step hlater)
    exact hfirst.trans hrest

theorem resolve_of_prefix {registry later : Registry} {symbol : String} {op : Operation}
    (h : registry.operations <+: later.operations) (hop : registry.resolve symbol = some op) :
    later.resolve symbol = some op :=
  h.find?_eq_some hop

theorem mem_symbols_iff (registry : Registry) (symbol : String) :
    symbol ∈ registry.symbols ↔ (registry.resolve symbol).isSome = true := by
  have hnone := registry.resolve_eq_none_iff symbol
  cases hresolve : registry.resolve symbol with
  | none => simpa using hnone.mp hresolve
  | some op => simpa [hresolve] using hnone

theorem idxOf_symbols_of_prefix {registry later : Registry} {symbol : String}
    (h : registry.operations <+: later.operations) (hmem : symbol ∈ registry.symbols) :
    later.symbols.idxOf symbol = registry.symbols.idxOf symbol := by
  obtain ⟨added, hadded⟩ := h
  rw [symbols, ← hadded, List.map_append]
  exact List.idxOf_append_of_mem hmem

theorem resolve_symbol_of_mem {registry : Registry} {op : Operation}
    (h : op ∈ registry.operations) : registry.resolve op.symbol = some op := by
  obtain ⟨operations, distinct⟩ := registry
  induction operations with
  | nil => cases h
  | cons first rest ih =>
    rw [List.map_cons, List.nodup_cons] at distinct
    rcases List.mem_cons.mp h with rfl | hrest
    · exact List.find?_cons_of_pos (beq_self_eq_true op.symbol)
    · have hother : first.symbol ≠ op.symbol :=
        fun hsame => distinct.1 (hsame ▸ List.mem_map_of_mem hrest)
      rw [resolve, List.find?_cons_of_neg (by simp [hother])]
      exact ih distinct.2 hrest

/-- The operations listed by their symbols and what each symbol is found to stand for. -/
theorem map_entry_eq_filterMap_symbols (registry : Registry) :
    (registry.operations.map fun op => op.symbol ++ " " ++ op.arity.name) =
      registry.symbols.filterMap fun symbol =>
        (registry.arity symbol).map fun arity => symbol ++ " " ++ arity.name := by
  rw [symbols, List.filterMap_map, ← List.filterMap_eq_map]
  refine List.filterMap_congr fun op hop => ?_
  simp only [Function.comp_apply, arity, resolve_symbol_of_mem hop, Option.map_some]

theorem loadStandard_loadStandard {registry : Registry} {log : List Operation}
    (h : registry.operations = firstOfEach log) :
    registry.loadStandard.loadStandard = registry.loadStandard := by
  have honce : registry.loadStandard.operations = firstOfEach (log ++ Operation.standard) :=
    operations_foldl_offer h Operation.standard
  have htwice : registry.loadStandard.loadStandard.operations =
      firstOfEach (log ++ Operation.standard ++ Operation.standard) :=
    operations_foldl_offer honce Operation.standard
  refine eq_of_operations_eq ?_
  rw [htwice, honce]
  refine firstOfEach_append_of_mem (log ++ Operation.standard) fun op hop => ?_
  exact List.mem_map_of_mem (List.mem_append_right log hop)

/-- A registry holds the first offer of each symbol, in order, and every way of looking a symbol up
agrees with the log. Loading the standard operations means registering them one by one, and loading
them twice means loading them once. No later step, unless it begins a new registry, changes what a
symbol stands for or its place. -/
theorem ofSteps_holds_first_offers (steps : List RegistryStep) :
    let registry := ofSteps steps
    let log := offers steps
    registry.operations = firstOfEach log ∧
    registry.symbols = (log.map Operation.symbol).eraseDups ∧
    registry.size = registry.symbols.length ∧
    registry.isEmpty = registry.symbols.isEmpty ∧
    (∀ symbol,
      registry.resolve symbol = log.find? (fun op => op.symbol == symbol) ∧
      registry.contains symbol = (registry.resolve symbol).isSome ∧
      (registry.arity symbol).isSome = (registry.resolve symbol).isSome ∧
      (symbol ∈ registry.symbols ↔ (registry.resolve symbol).isSome = true) ∧
      ∀ op, registry.resolve symbol = some op → (Token.operation op).symbol? = some symbol) ∧
    (∀ tracing calls,
      let c := (Calculator.fresh registry tracing).after calls
      c.describeOperations =
        "\n".intercalate ((firstOfEach log).map fun op => op.symbol ++ " " ++ op.arity.name) ∧
      c.describeOperations =
        "\n".intercalate (registry.symbols.filterMap fun symbol =>
          (registry.arity symbol).map fun arity => symbol ++ " " ++ arity.name)) ∧
    registry.loadStandard =
      Operation.standard.foldl (fun r op => r.after (.register (.operation op))) registry ∧
    registry.loadStandard.loadStandard = registry.loadStandard ∧
    ∀ more, (∀ step ∈ more, step.startsOver = false) →
      let later := ofSteps (steps ++ more)
      registry.operations <+: later.operations ∧
      ∀ symbol op, registry.resolve symbol = some op →
        later.resolve symbol = some op ∧
        later.arity symbol = registry.arity symbol ∧
        later.symbols.idxOf symbol = registry.symbols.idxOf symbol := by
  intro registry log
  have hops : registry.operations = firstOfEach log := operations_ofSteps steps
  refine ⟨hops, ?_, ?_, ?_, ?_, ?_, loadStandard_eq_foldl_register registry,
    loadStandard_loadStandard hops, ?_⟩
  · rw [symbols, hops, map_symbol_firstOfEach]
  · rw [size, symbols, List.length_map]
  · rw [isEmpty, symbols, List.isEmpty_map]
  · intro symbol
    refine ⟨?_, rfl, Option.isSome_map, registry.mem_symbols_iff symbol, ?_⟩
    · rw [resolve, hops, find?_firstOfEach]
    · intro op hop
      exact congrArg some (symbol_of_resolve hop)
  · intro tracing calls c
    have hregistry : c.registry = registry := Calculator.registry_after _ calls
    rw [Calculator.describeOperations, hregistry, ← map_entry_eq_filterMap_symbols, hops]
    exact ⟨rfl, rfl⟩
  · intro more hmore later
    have hlater : later = more.foldl after registry := List.foldl_append
    have hkeeps : registry.operations <+: later.operations := by
      rw [hlater]
      exact registry.operations_prefix_foldl_after hmore
    refine ⟨hkeeps, fun symbol op hop => ?_⟩
    have hop' : later.resolve symbol = some op := resolve_of_prefix hkeeps hop
    have hmem : symbol ∈ registry.symbols :=
      (registry.mem_symbols_iff symbol).mpr (by rw [hop]; rfl)
    exact ⟨hop', by rw [arity, arity, hop, hop'], idxOf_symbols_of_prefix hkeeps hmem⟩

/-- A constant that was registered under the symbol of a standard operation stays, and stays in
its place, when the standard operations are loaded and a binary operation claims the symbol. -/
theorem resolve_circle_constant_kept :
    let three : Operation := ⟨"π", .constant 3⟩
    let steps : List RegistryStep := [.beginEmpty, .register (.operation three)]
    let more : List RegistryStep :=
      [.loadStandard, .register (.operation ⟨"π", .binary fun top _ => top⟩),
        .register (.operand 1)]
    (ofSteps (steps ++ more)).resolve "π" = some three ∧
    (ofSteps (steps ++ more)).symbols.idxOf "π" = (ofSteps steps).symbols.idxOf "π" := by
  intro three steps more
  have hthree : (ofSteps steps).resolve "π" = some three := rfl
  have hmore : ∀ step ∈ more, step.startsOver = false := by simp [more, RegistryStep.startsOver]
  obtain ⟨-, -, -, -, -, -, -, -, hkept⟩ := ofSteps_holds_first_offers steps
  obtain ⟨hresolve, -, hplace⟩ := (hkept more hmore).2 "π" three hthree
  exact ⟨hresolve, hplace⟩

end Registry

end ReversePolish

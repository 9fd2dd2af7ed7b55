import ReversePolish.Proofs.Calculator.Barrier
import ReversePolish.Proofs.Registry.FirstOffer

/-!
# Which operations can be typed

A typed word is tried as a number first, then as a second spelling of a symbol,
and only then as a symbol of its own. So an operation whose symbol reads as a
number, or is the second spelling of another symbol, cannot be typed at all,
whatever the word; every other one is typed by its symbol. Entered by its symbol
and not as a word, each registered operation is at hand.
-/

namespace ReversePolish

/-! ### Second spellings -/

/-- No word spells a symbol that is itself a second spelling. -/
theorem spelledSymbol_not_mem (word : String) : spelledSymbol word ∉ secondSpellings := by
  by_cases h : word ∈ secondSpellings
  · have hspelled : ∀ word ∈ secondSpellings, spelledSymbol word ∉ secondSpellings := by decide
    exact hspelled word h
  · rw [spelledSymbol_of_not_mem h]
    exact h

theorem spelledSymbol_spelledSymbol (word : String) :
    spelledSymbol (spelledSymbol word) = spelledSymbol word :=
  spelledSymbol_of_not_mem (spelledSymbol_not_mem word)

/-- Neither the second spellings nor the symbols behind them are numbers. -/
theorem read?_spelledSymbol (word : String) :
    Decimal.read? (spelledSymbol word) = Decimal.read? word := by
  by_cases h : word ∈ secondSpellings
  · have hnone : ∀ word ∈ secondSpellings,
        Decimal.read? (spelledSymbol word) = none ∧ Decimal.read? word = none := by
      decide +kernel
    rw [(hnone word h).1, (hnone word h).2]
  · rw [spelledSymbol_of_not_mem h]

/-! ### The token that a word enters -/

namespace Call

variable {registry : Registry} {word : String}

theorem token?_enterWord_eq_operand_iff (value : Float) :
    (enterWord word).token? registry = some (.operand value) ↔
      Decimal.read? word = some value := by
  cases hread : Decimal.read? word <;> simp [token?, hread]

theorem token?_enterWord_eq_operation_iff (op : Operation) :
    (enterWord word).token? registry = some (.operation op) ↔
      Decimal.read? word = none ∧ registry.resolve (spelledSymbol word) = some op := by
  cases hread : Decimal.read? word <;> simp [token?, hread]

end Call

namespace Calculator

variable {c : Calculator} {word : String}

theorem push_inj {a b : Token} (h : c.push a = c.push b) : a = b := by
  have hstack := congrArg Calculator.stack h
  exact (List.cons.inj hstack).1

theorem push_ne (c : Calculator) (token : Token) : (c.push token).stack ≠ c.stack := by
  intro h
  have hlength := congrArg List.length h
  simp [push] at hlength

theorem calculator_enterWord (c : Calculator) (word : String) :
    (c.enterWord word).calculator =
      match (Call.enterWord word).token? c.registry with
      | some token => c.push token
      | none => c :=
  @calculator_call c (.enterWord word) rfl

theorem calculator_enterWord_eq_push_iff (token : Token) :
    (c.enterWord word).calculator = c.push token ↔
      (Call.enterWord word).token? c.registry = some token := by
  rw [calculator_enterWord]
  cases (Call.enterWord word).token? c.registry with
  | none => exact iff_of_false (fun h => c.push_ne token (h ▸ rfl)) (by simp)
  | some entered =>
    rw [Option.some.injEq]
    exact ⟨push_inj, fun h => by rw [h]⟩

theorem calculator_enterWord_cases (c : Calculator) (word : String) :
    (c.enterWord word).calculator = c ∨ ∃ token, (c.enterWord word).calculator = c.push token := by
  rw [calculator_enterWord]
  cases (Call.enterWord word).token? c.registry with
  | none => exact Or.inl rfl
  | some token => exact Or.inr ⟨token, rfl⟩

theorem enterWord_of_stack_eq (h : (c.enterWord word).calculator.stack = c.stack) :
    (c.enterWord word).calculator = c ∧ (c.enterWord word).value = c.evaluate.value := by
  have hsame : (c.enterWord word).calculator = c := by
    rcases c.calculator_enterWord_cases word with hsame | ⟨token, hpush⟩
    · exact hsame
    · rw [hpush] at h
      exact absurd h (c.push_ne token)
  have hvalue : (c.enterWord word).value = (Rule.reduce (c.enterWord word).calculator.stack).result :=
    @value_call c (.enterWord word) rfl
  refine ⟨hsame, ?_⟩
  rw [hvalue, hsame, evaluate_value]

theorem enterWord_spelledSymbol (c : Calculator) (word : String) :
    c.enterWord (spelledSymbol word) = c.enterWord word := by
  unfold enterWord
  rw [read?_spelledSymbol, spelledSymbol_spelledSymbol]

theorem exists_enterWord_eq_push_iff {symbol : String} {op : Operation}
    (h : c.registry.resolve symbol = some op) :
    (∃ word, (c.enterWord word).calculator = c.push (.operation op)) ↔
      Decimal.read? symbol = none ∧ symbol ∉ secondSpellings := by
  simp only [calculator_enterWord_eq_push_iff, Call.token?_enterWord_eq_operation_iff]
  constructor
  · rintro ⟨word, hread, hword⟩
    have hsymbol : symbol = spelledSymbol word := by
      rw [← Registry.symbol_of_resolve h, Registry.symbol_of_resolve hword]
    rw [hsymbol, read?_spelledSymbol]
    exact ⟨hread, spelledSymbol_not_mem word⟩
  · rintro ⟨hread, hspelling⟩
    exact ⟨symbol, hread, by rw [spelledSymbol_of_not_mem hspelling, h]⟩

/-- An operation of the registry is typed by some word just when its symbol is neither a number nor
a second spelling, and then the symbol itself types it; entered by its symbol it is at hand in any
case, and it is listed. A word enters at most one token, an operand just when it is a number. It
means what the symbol means that it spells, and one that enters nothing changes nothing and is
answered with the value of the stack. -/
theorem typing_reaches_unshadowed (c : Calculator) :
    (∀ symbol op, c.registry.resolve symbol = some op →
      ((∃ word, (c.enterWord word).calculator = c.push (.operation op)) ↔
        Decimal.read? symbol = none ∧ symbol ∉ secondSpellings) ∧
      (Decimal.read? symbol = none → symbol ∉ secondSpellings →
        (c.enterWord symbol).calculator = c.push (.operation op)) ∧
      (c.enterSymbol symbol).calculator = c.push (.operation op) ∧
      ∃ before behind : List Operation,
        let entry := fun op : Operation => op.symbol ++ " " ++ op.arity.name
        c.registry.operations = before ++ op :: behind ∧
        c.describeOperations = "\n".intercalate
          (before.map entry ++ (symbol ++ " " ++ op.arity.name) :: behind.map entry)) ∧
    ∀ word,
      ((c.enterWord word).calculator = c ∨
        ∃ token, (c.enterWord word).calculator = c.push token) ∧
      (∀ value, (c.enterWord word).calculator = c.push (.operand value) ↔
        Decimal.read? word = some value) ∧
      c.enterWord (spelledSymbol word) = c.enterWord word ∧
      ((c.enterWord word).calculator.stack = c.stack →
        (c.enterWord word).calculator = c ∧ (c.enterWord word).value = c.evaluate.value) := by
  refine ⟨fun symbol op h => ⟨exists_enterWord_eq_push_iff h, ?_, ?_, ?_⟩,
    fun word => ⟨c.calculator_enterWord_cases word, ?_, c.enterWord_spelledSymbol word,
      enterWord_of_stack_eq⟩⟩
  · intro hread hspelling
    rw [calculator_enterWord_eq_push_iff, Call.token?_enterWord_eq_operation_iff,
      spelledSymbol_of_not_mem hspelling]
    exact ⟨hread, h⟩
  · rw [calculator_enterSymbol, h]
  · obtain ⟨before, behind, hplace⟩ := List.append_of_mem (List.mem_of_find?_eq_some h)
    refine ⟨before, behind, hplace, ?_⟩
    rw [describeOperations, hplace, List.map_append, List.map_cons, Registry.symbol_of_resolve h]
  · intro value
    rw [calculator_enterWord_eq_push_iff, Call.token?_enterWord_eq_operand_iff]

/-- Of three operations added to the standard ones, the change of sign can be typed. The constants
under `inf` and `x` cannot, since `inf` is a number and `x` spells the product. -/
theorem typing_reaches_change_of_sign :
    let negate : Operation := ⟨"±", .unary fun x => -x⟩
    let one : Operation := ⟨"inf", .constant 1⟩
    let two : Operation := ⟨"x", .constant 2⟩
    let steps : List RegistryStep := [.beginStandard, .register (.operation negate),
      .register (.operation one), .register (.operation two)]
    let c := (fresh (Registry.ofSteps steps) true).after [.enterOperand 3]
    (c.enterWord "±").calculator = c.push (.operation negate) ∧
    (¬ ∃ word, (c.enterWord word).calculator = c.push (.operation one)) ∧
    (¬ ∃ word, (c.enterWord word).calculator = c.push (.operation two)) ∧
    (c.enterSymbol "x").calculator = c.push (.operation two) ∧
    (c.enterWord "%").value = c.evaluate.value := by
  intro negate one two steps c
  have hlookup (symbol : String) :
      c.registry.resolve symbol = (offers steps).find? fun op => op.symbol == symbol := by
    rw [registry_after]
    exact Registry.resolve_ofSteps steps symbol
  have hnegate : c.registry.resolve "±" = some negate := hlookup "±"
  have hone : c.registry.resolve "inf" = some one := hlookup "inf"
  have htwo : c.registry.resolve "x" = some two := hlookup "x"
  have hnothing : c.registry.resolve "%" = none := hlookup "%"
  obtain ⟨hreach, hwords⟩ := typing_reaches_unshadowed c
  obtain ⟨-, htyped, -⟩ := hreach "±" negate hnegate
  obtain ⟨hnumber, -⟩ := hreach "inf" one hone
  obtain ⟨hspelling, -, hsymbol, -⟩ := hreach "x" two htwo
  obtain ⟨-, -, -, hunknown⟩ := hwords "%"
  refine ⟨htyped (by decide +kernel) (by decide), ?_, ?_, hsymbol, ?_⟩
  · rw [hnumber]
    exact fun h => absurd h.1 (by decide +kernel)
  · rw [hspelling]
    exact fun h => absurd h.2 (by decide)
  · have hread : Decimal.read? "%" = none := by decide +kernel
    have htoken : (Call.enterWord "%").token? c.registry = none := by
      rw [Call.token?, hread]
      exact congrArg (Option.map Token.operation) hnothing
    refine (hunknown ?_).2
    rw [calculator_enterWord, htoken]

end Calculator

end ReversePolish

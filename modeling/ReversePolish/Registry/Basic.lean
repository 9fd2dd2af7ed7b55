import ReversePolish.Token

/-!
# The registry of operations

A registry holds the operations that a calculator understands, in the order in
which they were registered. A symbol belongs to the first operation registered
under it; registering another one is an error. A registration gives the registry
as it is afterwards, whether it succeeds or not.
-/

namespace ReversePolish

/-- Operations in registration order, no two with one symbol. -/
structure Registry where
  operations : List Operation
  distinct : (operations.map Operation.symbol).Nodup

/-- Why a token cannot be registered. -/
inductive RegistryError where
  /-- The token is an operand, shown as the given text. -/
  | notAnOperation (operand : String)
  /-- The symbol belongs to an operation already, of the given kind. -/
  | duplicateSymbol (symbol : String) (existing : Kind)

def RegistryError.message : RegistryError → String
  | .notAnOperation operand =>
    "Not an operation: operand `" ++ operand ++ "` cannot be registered"
  | .duplicateSymbol symbol existing =>
    "Duplicate symbol: `" ++ symbol ++ "` is already registered as a " ++ existing.name
      ++ " operation"

namespace Registry

/-- A registry without operations. -/
def empty : Registry := ⟨[], List.nodup_nil⟩

/-! ### Looking up -/

/-- The operation that a symbol belongs to. -/
def resolve (registry : Registry) (symbol : String) : Option Operation :=
  registry.operations.find? fun op => op.symbol == symbol

def contains (registry : Registry) (symbol : String) : Bool := (registry.resolve symbol).isSome

/-- The arity of the operation that a symbol belongs to. -/
def arity (registry : Registry) (symbol : String) : Option Arity :=
  (registry.resolve symbol).map Operation.arity

/-- All symbols, in registration order. -/
def symbols (registry : Registry) : List String := registry.operations.map Operation.symbol

def size (registry : Registry) : Nat := registry.operations.length

def isEmpty (registry : Registry) : Bool := registry.operations.isEmpty

theorem resolve_eq_none_iff (registry : Registry) (symbol : String) :
    registry.resolve symbol = none ↔ symbol ∉ registry.symbols := by
  simp only [resolve, symbols, List.find?_eq_none, List.mem_map, beq_iff_eq, not_exists, not_and]

theorem symbol_of_resolve {registry : Registry} {symbol : String} {op : Operation}
    (h : registry.resolve symbol = some op) : op.symbol = symbol := by
  have := List.find?_some h
  exact beq_iff_eq.mp this

/-! ### Registering -/

/-- Adds an operation whose symbol is free. -/
def insertNew (registry : Registry) (op : Operation)
    (free : registry.resolve op.symbol = none) : Registry :=
  ⟨registry.operations ++ [op], by
    have absent := (registry.resolve_eq_none_iff op.symbol).mp free
    rw [List.map_append, List.map_singleton]
    refine List.nodup_append.mpr ⟨registry.distinct, by simp, ?_⟩
    intro a ha b hb
    rw [List.mem_singleton.mp hb]
    intro h
    exact absent (h ▸ ha)⟩

/-- Registers an operation under its symbol: the registry afterwards, and what came of it. -/
def register (registry : Registry) : Token → Registry × Except RegistryError Unit
  | .operand value => (registry, .error (.notAnOperation (Token.operand value).text))
  | .operation op =>
    match h : registry.resolve op.symbol with
    | some existing => (registry, .error (.duplicateSymbol op.symbol existing.kind))
    | none => (registry.insertNew op h, .ok ())

/-- Registers an operation unless its symbol belongs to another one already. -/
def offer (registry : Registry) (op : Operation) : Registry :=
  match h : registry.resolve op.symbol with
  | some _ => registry
  | none => registry.insertNew op h

section Resolved

variable {registry : Registry} {op existing : Operation}

theorem register_of_resolve_eq_some (h : registry.resolve op.symbol = some existing) :
    registry.register (.operation op) =
      (registry, .error (.duplicateSymbol op.symbol existing.kind)) := by
  simp only [register]
  split
  next found hfound =>
    rw [hfound] at h
    rw [Option.some.inj h]
  next hfree =>
    rw [hfree] at h
    cases h

theorem register_of_resolve_eq_none (h : registry.resolve op.symbol = none) :
    registry.register (.operation op) = (registry.insertNew op h, .ok ()) := by
  simp only [register]
  split
  next found hfound =>
    rw [hfound] at h
    cases h
  next => rfl

theorem offer_of_resolve_eq_some (h : registry.resolve op.symbol = some existing) :
    registry.offer op = registry := by
  simp only [offer]
  split
  next => rfl
  next hfree =>
    rw [hfree] at h
    cases h

theorem offer_of_resolve_eq_none (h : registry.resolve op.symbol = none) :
    registry.offer op = registry.insertNew op h := by
  simp only [offer]
  split
  next found hfound =>
    rw [hfound] at h
    cases h
  next => rfl

end Resolved

end Registry

end ReversePolish

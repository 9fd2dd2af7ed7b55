import ReversePolish.Registry.Standard

/-!
# How a registry came about

A registry is built in steps: it is begun empty or with the standard operations,
the standard operations are loaded into it, tokens are registered. The log of
such a run holds the operations that were offered since the last beginning,
whether they were kept or not.
-/

namespace ReversePolish

/-- One step in the making of a registry. -/
inductive RegistryStep where
  | beginEmpty
  | beginStandard
  | loadStandard
  | register (token : Token)

namespace Registry

/-- The registry after a step, whatever came of a registration. -/
def after (registry : Registry) : RegistryStep → Registry
  | .beginEmpty => empty
  | .beginStandard => standard
  | .loadStandard => registry.loadStandard
  | .register token => (registry.register token).1

/-- The registry that steps build. -/
def ofSteps (steps : List RegistryStep) : Registry := steps.foldl after empty

end Registry

/-! ### The log of offers -/

namespace RegistryStep

/-- The log after a step. Operands are no offer. -/
def logged (log : List Operation) : RegistryStep → List Operation
  | beginEmpty => []
  | beginStandard => Operation.standard
  | loadStandard => log ++ Operation.standard
  | register (.operand _) => log
  | register (.operation op) => log ++ [op]

end RegistryStep

/-- The operations offered since the last beginning, in order. -/
def offers (steps : List RegistryStep) : List Operation := steps.foldl RegistryStep.logged []

/-- The first operation of each symbol, in order. -/
def firstOfEach : List Operation → List Operation
  | [] => []
  | op :: rest => op :: (firstOfEach rest).filter fun other => other.symbol != op.symbol

end ReversePolish

import ReversePolish.Decimal.Layout

/-!
# Tokens

A token is what one word of postfix input stands for: an operand, or a named
operation that takes no, one or two values. The symbol is an operation's
identity: what an operation computes cannot be compared, so two operations of
one kind and one symbol count as equal.
-/

namespace ReversePolish

/-! ### Operations -/

/-- What an operation does to the values below it. -/
inductive Action where
  /-- Replaces one value. -/
  | unary (apply : Float → Float)
  /-- Replaces two values; the one entered last comes first. -/
  | binary (apply : Float → Float → Float)
  /-- Supplies a value. -/
  | constant (value : Float)

/-- The number of values that an operation takes. -/
inductive Arity where
  | nullary
  | unary
  | binary
deriving DecidableEq, Repr

def Arity.name : Arity → String
  | .nullary => "nullary"
  | .unary => "unary"
  | .binary => "binary"

/-- An arity as a number. -/
def Arity.toNat : Arity → Nat
  | .nullary => 0
  | .unary => 1
  | .binary => 2

/-- The four kinds of token. -/
inductive Kind where
  | operand
  | unary
  | binary
  | constant
deriving DecidableEq, Repr

def Kind.name : Kind → String
  | .operand => "operand"
  | .unary => "unary"
  | .binary => "binary"
  | .constant => "constant"

/-- A kind at the head of a token's description. -/
def Kind.title : Kind → String
  | .operand => "Operand"
  | .unary => "Unary"
  | .binary => "Binary"
  | .constant => "Constant"

/-- A named operation. -/
structure Operation where
  symbol : String
  action : Action

namespace Operation

def kind (op : Operation) : Kind :=
  match op.action with
  | .unary _ => .unary
  | .binary _ => .binary
  | .constant _ => .constant

def arity (op : Operation) : Arity :=
  match op.action with
  | .unary _ => .unary
  | .binary _ => .binary
  | .constant _ => .nullary

/-- Operations are equal when kind and symbol are. -/
instance : BEq Operation := ⟨fun a b => a.kind == b.kind && a.symbol == b.symbol⟩

end Operation

/-! ### Tokens -/

/-- One entry of postfix input. -/
inductive Token where
  | operand (value : Float)
  | operation (op : Operation)

namespace Token

def kind : Token → Kind
  | operand _ => .operand
  | operation op => op.kind

def isOperand : Token → Bool
  | operand _ => true
  | operation _ => false

/-- The symbol of an operation. -/
def symbol? : Token → Option String
  | operand _ => none
  | operation op => some op.symbol

/-- The arity of an operation. -/
def arity? : Token → Option Arity
  | operand _ => none
  | operation op => some op.arity

/-- Operands compare as numbers, so a NaN differs from itself and the two zeros are equal. -/
instance : BEq Token where
  beq
    | operand a, operand b => a == b
    | operation a, operation b => a == b
    | _, _ => false

/-- A token as it is shown: the number or the symbol. -/
def text : Token → String
  | operand value => Decimal.Layout.plain.write value
  | operation op => op.symbol

/-- A token with its kind: `Operand(2)`, `Binary(+)`. -/
def description (token : Token) : String :=
  token.kind.title ++ "(" ++ token.text ++ ")"

/-- A row of tokens in reading order: `[6, 2, ÷]`. -/
def rowText (row : List Token) : String :=
  "[" ++ ", ".intercalate (row.map text) ++ "]"

end Token

end ReversePolish

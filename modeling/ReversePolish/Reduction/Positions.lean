import ReversePolish.Reduction.Machine

/-!
# Reduction by positions

The work stack over a row of tokens in which nothing is moved. A level is known
by the number of its tokens, so its top is the last of that many tokens and what
lies below it is one token less. Positions can go wrong where parts of a list
cannot: a level may reach behind the row, or there is nothing to take away. Here
both are faults, and whatever the loop reads is checked first.
-/

namespace ReversePolish.Positions

/-! ### Checked positions -/

/-- What goes wrong with a position. -/
inductive Fault where
  /-- More tokens are asked for than there are. -/
  | behindEnd (count : Nat)
  /-- One is taken away from zero. -/
  | belowZero

/-- The first tokens of a row, as many as asked for. -/
def first (tokens : List Token) (count : Nat) : Except Fault (List Token) :=
  if count ≤ tokens.length then .ok (tokens.take count) else .error (.behindEnd count)

def oneLess : Nat → Except Fault Nat
  | 0 => .error .belowZero
  | count + 1 => .ok count

/-! ### The loop -/

/-- An operator that waits. Its level is the number of tokens up to its own. -/
inductive Frame where
  | unary (level : Nat) (apply : Float → Float)
  | binary (level : Nat) (apply : Float → Float → Float)
  /-- A binary operator that has its first value. -/
  | second (level : Nat) (apply : Float → Float → Float) (value : Float)

namespace Frame

def level : Frame → Nat
  | unary level _ => level
  | binary level _ => level
  | second level _ _ => level

/-- What the operator does to the values below it. -/
def action : Frame → Action
  | unary _ apply => .unary apply
  | binary _ apply => .binary apply
  | second _ apply _ => .binary apply

end Frame

/-- What a level was reduced to: its value, and the number of tokens that it left. -/
structure Outcome where
  level : Nat
  result : Option Float
  rest : Nat

/-- What the loop is doing; the innermost waiting operator comes first. -/
inductive State where
  /-- About to reduce a level. -/
  | descending (level : Nat) (pending : List Frame)
  /-- A level has just been reduced. The descent before it ended at `level`. -/
  | returning (level : Nat) (done : Outcome) (pending : List Frame)

namespace State

def level : State → Nat
  | descending level _ => level
  | returning level _ _ => level

def pending : State → List Frame
  | descending _ pending => pending
  | returning _ _ pending => pending

end State

/-- A level is entered: a value returns at once, an operator waits. -/
def descend (tokens : List Token) (level : Nat) (pending : List Frame) : Except Fault State := do
  match (← first tokens level).getLast? with
  | none => return .returning level ⟨level, none, level⟩ pending
  | some token =>
    let below ← oneLess level
    match token with
    | .operand value => return .returning level ⟨level, some value, below⟩ pending
    | .operation op =>
      match op.action with
      | .constant value => return .returning level ⟨level, some value, below⟩ pending
      | .unary apply => return .descending below (.unary level apply :: pending)
      | .binary apply => return .descending below (.binary level apply :: pending)

/-- The outcome of a level goes to the operator that waits for it. -/
def resume (level : Nat) (done : Outcome) (frame : Frame) (pending : List Frame) : State :=
  match done.result with
  | none => .returning level ⟨frame.level, none, frame.level⟩ pending
  | some x =>
    match frame with
    | .unary top apply => .returning level ⟨top, some (apply x), done.rest⟩ pending
    | .binary top apply => .descending done.rest (.second top apply x :: pending)
    | .second top apply value => .returning level ⟨top, some (apply value x), done.rest⟩ pending

/-- One iteration, of the descent or of the return: the next state, or the outcome when no operator
waits any more. -/
def step (tokens : List Token) : State → Except Fault (Sum Reduction State)
  | .descending level pending => (descend tokens level pending).map .inr
  | .returning _ done [] =>
    (first tokens done.rest).map fun rest => .inl ⟨done.result, rest.reverse⟩
  | .returning level done (frame :: pending) => .ok (.inr (resume level done frame pending))

/-- The state after some iterations over a whole row, or the outcome once there is one. -/
def after (tokens : List Token) : Nat → Except Fault (Sum Reduction State)
  | 0 => .ok (.inr (.descending tokens.length []))
  | i + 1 => do
    match ← after tokens i with
    | .inl outcome => return .inl outcome
    | .inr state => step tokens state

/-! ### Positions in range -/

/-- The operator at the top of a frame's level does what the frame will do. -/
def Frame.Tops (tokens : List Token) (frame : Frame) : Prop :=
  ∃ symbol, tokens[frame.level - 1]? = some (.operation ⟨symbol, frame.action⟩)

/-- The positions of an outcome lie in a row, and a value takes at least one token. -/
structure Outcome.InRange (tokens : List Token) (done : Outcome) : Prop where
  rest_le : done.rest ≤ done.level
  level_le : done.level ≤ tokens.length
  rest_lt : done.result.isSome = true → done.rest < done.level

/-- The positions of a state lie in a row. The levels of the waiting operators fall from the
outermost, which tops the whole row, to the innermost, which is above where the loop is. -/
structure State.InRange (tokens : List Token) (s : State) : Prop where
  level_le : s.level ≤ tokens.length
  length_pending_le : s.pending.length ≤ tokens.length - s.level
  levels_fall : (s.pending.map Frame.level).reverse.Pairwise (· > ·)
  outermost : ∀ frame, s.pending.getLast? = some frame → frame.level = tokens.length
  above : ∀ frame ∈ s.pending, s.level < frame.level
  tops : ∀ frame ∈ s.pending, frame.Tops tokens
  outcome : ∀ level done pending, s = .returning level done pending → done.InRange tokens

/-! ### The parts that positions stand for -/

/-- The first tokens of a row as a stack, the last of them on top. -/
def stackOf (tokens : List Token) (count : Nat) : Stack := (tokens.take count).reverse

def Frame.toPending (tokens : List Token) : Frame → Machine.Pending
  | unary level apply => .unary (stackOf tokens level) apply
  | binary level apply => .binary (stackOf tokens level) apply
  | second level apply value => .second (stackOf tokens level) apply value

/-- The state of the machine that a state stands for. -/
def State.toMachine (tokens : List Token) : State → Machine.State
  | descending level pending =>
    .descending (stackOf tokens level) (pending.map (Frame.toPending tokens))
  | returning _ done pending =>
    .returning ⟨stackOf tokens done.level, done.result, stackOf tokens done.rest⟩
      (pending.map (Frame.toPending tokens))

end ReversePolish.Positions

import ReversePolish.Calculation
import ReversePolish.Proofs.Calculator.Barrier
import ReversePolish.Proofs.Calculator.History
import ReversePolish.Proofs.Reduction.Postfix

/-!
# Running calculations, told and worked out

Each batch of a running calculation leaves both tracks of the history empty and
its text one link longer, wherever in the batch the operation is entered. When
operations come last, the tokens on the stack are the code of a tree that leans
to the left, so each batch also makes the value one link longer. Text and value
thus speak of the same calculation after every batch.
-/

namespace ReversePolish

/-! ### The tree of a calculation -/

namespace Link

/-- A tree with one link more. -/
def extend (e : Expression) (link : Link) : Expression :=
  .binary link.symbol link.apply e (.operand link.operand)

theorem value_foldl_extend (e : Expression) (links : List Link) :
    (links.foldl extend e).value = value e.value links := by
  induction links generalizing e with
  | nil => rfl
  | cons link links ih => exact ih (extend e link)

end Link

namespace Calculator

/-! ### What a batch enters -/

/-- The tokens of a batch, in the order in which they are entered. -/
def batchTokens (operands : List Float) (op : Operation) (place : Nat) : List Token :=
  (operands.take place).map .operand ++ .operation op :: (operands.drop place).map .operand

theorem operands_batchTokens (operands : List Float) (op : Operation) (place : Nat) :
    Token.operands (batchTokens operands op place) = operands := by
  rw [batchTokens, Token.operands_append, Token.operands_map_operand]
  change operands.take place ++ Token.operands ((operands.drop place).map .operand) = operands
  rw [Token.operands_map_operand, List.take_append_drop]

theorem operations_batchTokens (operands : List Float) (op : Operation) (place : Nat) :
    Token.operations (batchTokens operands op place) = [op] := by
  rw [batchTokens, Token.operations_append, Token.operations_map_operand]
  change op :: Token.operations ((operands.drop place).map .operand) = [op]
  rw [Token.operations_map_operand]

variable {c : Calculator}

theorem resolve_after {symbol : String} {op : Operation}
    (h : c.registry.resolve symbol = some op) (calls : List Call) :
    (c.after calls).registry.resolve symbol = some op := by
  rw [registry_after, h]

theorem map_token?_batchEntries {registry : Registry} {symbol : String} {op : Operation}
    (h : registry.resolve symbol = some op) (operands : List Float) (place : Nat) :
    (batchEntries operands symbol place).map (Call.token? registry) =
      (batchTokens operands op place).map some := by
  have hsymbol : (Call.enterSymbol symbol).token? registry = some (.operation op) := by
    rw [Call.token?, h, Option.map_some]
  simp only [batchEntries, batchTokens, List.map_append, List.map_cons, List.map_map, hsymbol]
  rfl

theorem stack_after_batch {symbol : String} {op : Operation}
    (h : c.registry.resolve symbol = some op) (operands : List Float) (place : Nat) :
    (c.after (batch operands symbol place)).stack =
      (batchTokens operands op place).reverse ++ c.stack := by
  rw [batch, after_append]
  exact stack_after_of_token? (map_token?_batchEntries h operands place)

/-- Where in a batch the operation is entered makes no difference to the history. -/
theorem history_after_batch {symbol : String} {op : Operation}
    (h : c.registry.resolve symbol = some op) (operands : List Float) (place : Nat) :
    (c.after (batch operands symbol place)).history =
      History.update ⟨operands.reverse ++ c.history.operands, op :: c.history.operations,
        c.history.text⟩ := by
  have hrecorded := history_after_of_token? (map_token?_batchEntries h operands place)
  rw [History.foldl_record, operands_batchTokens, operations_batchTokens] at hrecorded
  rw [batch, after_append]
  exact congrArg History.update hrecorded

/-! ### The history -/

/-- All of a calculation has been told, nothing waits. -/
def Told (c : Calculator) (values : List Float) (ops : List Operation) : Prop :=
  values.length = ops.length + 1 ∧ c.history = ⟨[], [], runningText values ops⟩

theorem told_after_first {link : Link}
    (hresolve : c.registry.resolve link.symbol = some link.operation)
    (hempty : c.history = History.empty) (first : Float) (place : Nat) :
    (c.after (batch [first, link.operand] link.symbol place)).Told
      [first, link.operand] [link.operation] := by
  refine ⟨rfl, ?_⟩
  rw [history_after_batch hresolve, hempty, runningText_pair]
  rfl

theorem Told.after_batch {link : Link} {values : List Float}
    {ops : List Operation} (htold : c.Told values ops)
    (hresolve : c.registry.resolve link.symbol = some link.operation) (place : Nat) :
    (c.after (batch [link.operand] link.symbol place)).Told
      (values ++ [link.operand]) (ops ++ [link.operation]) := by
  obtain ⟨hlength, hhistory⟩ := htold
  have hvalues : values ≠ [] := List.ne_nil_of_length_eq_add_one hlength
  refine ⟨by rw [List.length_append, List.length_append, hlength]; rfl, ?_⟩
  rw [history_after_batch hresolve, hhistory, runningText_concat hlength]
  simp [History.update, runningText_ne_empty hvalues ops]

theorem Told.after_batches {values : List Float} {ops : List Operation}
    (htold : c.Told values ops) (entries : List (Link × Nat))
    (hresolve : ∀ entry ∈ entries, c.registry.resolve entry.1.symbol = some entry.1.operation) :
    (c.after (entries.map nextBatch).flatten).Told
      (values ++ entries.map (·.1.operand)) (ops ++ entries.map (·.1.operation)) := by
  induction entries generalizing c values ops with
  | nil =>
    rw [List.map_nil, List.map_nil, List.map_nil, List.append_nil, List.append_nil]
    exact htold
  | cons entry entries ih =>
    have hnext := htold.after_batch (hresolve entry List.mem_cons_self) entry.2
    have hrest := ih hnext fun later hlater =>
      resolve_after (hresolve later (List.mem_cons_of_mem entry hlater)) _
    rw [List.append_assoc, List.append_assoc] at hrest
    rw [List.map_cons, List.flatten_cons, after_append]
    exact hrest

theorem told_after_batches (hempty : c.history = History.empty) (first : Float)
    {entries : List (Link × Nat)} (hne : entries ≠ [])
    (hresolve : ∀ entry ∈ entries, c.registry.resolve entry.1.symbol = some entry.1.operation) :
    (c.after (batches first entries).flatten).Told
      (first :: entries.map (·.1.operand)) (entries.map (·.1.operation)) := by
  obtain ⟨entry, rest, rfl⟩ := List.exists_cons_of_ne_nil hne
  have hfirst := told_after_first (hresolve entry List.mem_cons_self) hempty first entry.2
  have hrest := hfirst.after_batches rest fun later hlater =>
    resolve_after (hresolve later (List.mem_cons_of_mem entry hlater)) _
  rw [batches, List.flatten_cons, after_append]
  exact hrest

/-! ### The value -/

theorem stack_after_batches {e : Expression} (hstack : c.stack = e.onto [])
    (links : List Link)
    (hresolve : ∀ link ∈ links, c.registry.resolve link.symbol = some link.operation) :
    (c.after ((operationLast links).map nextBatch).flatten).stack =
      (links.foldl Link.extend e).onto [] := by
  induction links generalizing c e with
  | nil => exact hstack
  | cons link links ih =>
    have hnext : (c.after (batch [link.operand] link.symbol 2)).stack =
        (Link.extend e link).onto [] := by
      rw [stack_after_batch (hresolve link List.mem_cons_self), hstack, Link.extend,
        Expression.onto_binary, Expression.onto_operand]
      rfl
    have hrest := ih hnext fun later hlater =>
      resolve_after (hresolve later (List.mem_cons_of_mem link hlater)) _
    rw [operationLast, List.map_cons, List.map_cons, List.flatten_cons, after_append]
    exact hrest

theorem reduce_after_batches (hempty : c.stack = []) (first : Float)
    {links : List Link} (hne : links ≠ [])
    (hresolve : ∀ link ∈ links, c.registry.resolve link.symbol = some link.operation) :
    (c.after (batches first (operationLast links)).flatten).reduce.value =
      ⟨some (Link.value first links), []⟩ := by
  obtain ⟨link, rest, rfl⟩ := List.exists_cons_of_ne_nil hne
  have hfirst : (c.after (batch [first, link.operand] link.symbol 2)).stack =
      (Link.extend (.operand first) link).onto [] := by
    rw [stack_after_batch (hresolve link List.mem_cons_self), hempty]
    rfl
  have hrest := stack_after_batches hfirst rest fun later hlater =>
    resolve_after (hresolve later (List.mem_cons_of_mem link hlater)) _
  have hvalue := Link.value_foldl_extend (.operand first) (link :: rest)
  rw [reduce_value, operationLast, List.map_cons, batches, List.flatten_cons, after_append]
  change Rule.reduce (Calculator.stack (after (after c _) ((operationLast rest).map _).flatten)) = _
  rw [hrest, Expression.reduce_onto]
  exact congrArg (Reduction.mk · []) (congrArg some hvalue)

end Calculator

theorem take_batches (first : Float) (entries : List (Link × Nat)) (count : Nat) :
    (batches first entries).take count = batches first (entries.take count) := by
  cases entries with
  | nil => rw [batches, List.take_nil, List.take_nil, batches]
  | cons entry rest =>
    cases count with
    | zero => rfl
    | succ count => rw [batches, List.take_succ_cons, List.take_succ_cons, batches, List.map_take]

theorem map_fst_operationLast (links : List Link) : (operationLast links).map Prod.fst = links := by
  rw [operationLast, List.map_map]
  exact List.map_id links

namespace Calculator

/-- A calculator that is fresh or has just been cleared is given a running calculation with binary
operations of its registry. After each batch the history tells the calculation so far in the order
in which it is read, wherever in the batches the operations were entered; where they come last, the
value is the one worked out from left to right, and every token on the stack goes into it. -/
theorem history_and_value_after_batches (c : Calculator) (hclear : c.clear = c) (first : Float)
    (links : List Link)
    (hresolve : ∀ link ∈ links, c.registry.resolve link.symbol = some link.operation)
    (i : Nat) (hpos : 1 ≤ i) (hle : i ≤ links.length) :
    let soFar := links.take i
    let told := runningText (first :: soFar.map Link.operand) (soFar.map Link.operation)
    let d := c.after ((batches first (operationLast links)).take i).flatten
    d.history.text = told ∧
    d.evaluate.value = some (Link.value first soFar) ∧
    d.reduce.value = ⟨some (Link.value first soFar), []⟩ ∧
    d.reduce.value.isComplete = true ∧
    ∀ entries : List (Link × Nat), entries.map Prod.fst = links →
      (c.after ((batches first entries).take i).flatten).history.text = told := by
  intro soFar told d
  have hstack : c.stack = [] := (congrArg stack hclear).symm
  have hhistory : c.history = History.empty := (congrArg history hclear).symm
  have htold : ∀ entries : List (Link × Nat), entries.map Prod.fst = links →
      (c.after ((batches first entries).take i).flatten).history.text = told := by
    intro entries hentries
    have hsoFar : (entries.take i).map Prod.fst = soFar := by rw [List.map_take, hentries]
    have hne : entries.take i ≠ [] := by
      have hlength := congrArg List.length hentries
      rw [List.length_map] at hlength
      exact List.ne_nil_of_length_pos (by rw [List.length_take]; omega)
    have hresolve' : ∀ entry ∈ entries.take i,
        c.registry.resolve entry.1.symbol = some entry.1.operation := by
      intro entry hentry
      exact hresolve entry.1 (hentries ▸ List.mem_map_of_mem (List.mem_of_mem_take hentry))
    have hmain := (told_after_batches hhistory first hne hresolve').2
    rw [take_batches, hmain]
    change runningText _ _ = runningText _ _
    rw [← hsoFar, List.map_map, List.map_map]
    rfl
  have hreduce : d.reduce.value = ⟨some (Link.value first soFar), []⟩ := by
    have hne : soFar ≠ [] := List.ne_nil_of_length_pos (by rw [List.length_take]; omega)
    have htake : (operationLast links).take i = operationLast soFar := List.map_take.symm
    have hmain := reduce_after_batches hstack first hne
      fun link hlink => hresolve link (List.mem_of_mem_take hlink)
    rw [← htake, ← take_batches] at hmain
    exact hmain
  refine ⟨htold _ (map_fst_operationLast links), ?_, hreduce, ?_, htold⟩
  · rw [evaluate_value, ← reduce_value, hreduce]
  · rw [hreduce]
    rfl

/-- The quotient of a difference, entered after clearing and with the first sign between its two
operands. -/
theorem history_and_value_difference_quotient :
    let c := ((standard true).after [.enterOperand 5, .enterSymbol "+"]).clear
    let difference : Link := ⟨"−", fun top second => second - top, 3⟩
    let quotient : Link := ⟨"÷", fun top second => second / top, 2⟩
    let calls : List Call := [.enterOperand 9, .enterOperand 3, .enterSymbol "−", .updateHistory,
      .enterOperand 2, .enterSymbol "÷", .updateHistory]
    let otherCalls : List Call := [.enterOperand 9, .enterSymbol "−", .enterOperand 3,
      .updateHistory, .enterSymbol "÷", .enterOperand 2, .updateHistory]
    c.clear = c ∧
    (∀ link ∈ [difference, quotient], c.registry.resolve link.symbol = some link.operation) ∧
    (c.after calls).history.text = "9−3÷2" ∧ (c.after calls).evaluate.value = some 3 ∧
    (c.after otherCalls).history.text = "9−3÷2" := by
  intro c difference quotient calls otherCalls
  have hresolve : ∀ link ∈ [difference, quotient],
      c.registry.resolve link.symbol = some link.operation := by
    intro link hlink
    rcases List.mem_cons.mp hlink with rfl | hlink
    · rfl
    · rw [List.mem_singleton.mp hlink]
      rfl
  have hmain := history_and_value_after_batches c rfl 9 [difference, quotient] hresolve 2
    (by decide) (by decide)
  have htold : runningText [9, 3, 2] [difference.operation, quotient.operation] = "9−3÷2" := by
    decide +kernel
  have hvalue : Link.value 9 [difference, quotient] = 3 := by decide +kernel
  refine ⟨rfl, hresolve, hmain.1.trans htold, hmain.2.1.trans (congrArg some hvalue), ?_⟩
  exact (hmain.2.2.2.2 [(difference, 1), (quotient, 0)] rfl).trans htold

end Calculator

end ReversePolish

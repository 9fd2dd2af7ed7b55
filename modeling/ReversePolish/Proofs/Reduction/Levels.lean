import ReversePolish.Proofs.Reduction.Below
import ReversePolish.Proofs.Reduction.Trace
import Mathlib.Data.List.Intervals

/-!
# The trace visits every level once

A level is what lies at and below one token, and an entry of the trace tells what
it reduces to: the same as if it were reduced by itself. No level is visited twice,
though binary operations are resumed halfway, and none is left out. A reduction
with a value visits the levels down to the last token that it consumes. A starved
one visits all levels, the empty one included.
-/

namespace ReversePolish

namespace Rule

/-! ### What an entry tells -/

/-- An entry is about a level of the stack and tells what that level reduces to by itself. -/
structure Truthful (stack : Stack) (done : Return) : Prop where
  level : done.level <:+ stack
  reduction : done.reduction = reduce done.level

theorem truthful_call (stack : Stack) : Truthful stack (call stack) :=
  ⟨List.suffix_refl stack, rfl⟩

theorem Truthful.of_suffix {below stack : Stack} {done : Return} (h : Truthful below done)
    (hbelow : below <:+ stack) : Truthful stack done :=
  ⟨h.level.trans hbelow, h.reduction⟩

theorem truthful_of_mem_calls {stack : Stack} {done : Return} (h : done ∈ calls stack) :
    Truthful stack done := by
  induction stack using call_induction with
  | empty =>
    rw [calls_nil, List.mem_singleton] at h
    rw [h]
    exact truthful_call _
  | operand value below =>
    rw [calls_operand, List.mem_singleton] at h
    rw [h]
    exact truthful_call _
  | constant symbol value below =>
    rw [calls_constant, List.mem_singleton] at h
    rw [h]
    exact truthful_call _
  | unary symbol apply below ih =>
    rw [calls_unary, List.mem_append, List.mem_singleton] at h
    rcases h with h | rfl
    · exact (ih h).of_suffix (List.suffix_cons _ below)
    · exact truthful_call _
  | binary symbol apply below ih₁ ih₂ =>
    cases hb : (reduce below).result with
    | none =>
      rw [calls_binary_none symbol apply hb, List.mem_append, List.mem_singleton] at h
      rcases h with h | rfl
      · exact (ih₁ h).of_suffix (List.suffix_cons _ below)
      · exact truthful_call _
    | some first =>
      rw [calls_binary_some symbol apply hb, List.mem_append, List.mem_append,
        List.mem_singleton] at h
      have hrest : (reduce below).remaining <:+ .operation ⟨symbol, .binary apply⟩ :: below :=
        (remaining_suffix below).trans (List.suffix_cons _ below)
      rcases h with h | h | rfl
      · exact (ih₁ h).of_suffix (List.suffix_cons _ below)
      · exact (ih₂ h).of_suffix hrest
      · exact truthful_call _

theorem getLast?_calls (stack : Stack) : (calls stack).getLast? = some (call stack) := by
  match stack with
  | [] => simp [calls]
  | .operand value :: below => simp [calls]
  | .operation ⟨symbol, .constant value⟩ :: below => simp [calls]
  | .operation ⟨symbol, .unary apply⟩ :: below => simp [calls]
  | .operation ⟨symbol, .binary apply⟩ :: below => simp [calls]

/-! ### The lengths of the visited levels -/

/-- The length of the shortest level that is visited: one more than remains, or nothing if the
stack is starved. -/
def lowest (stack : Stack) : Nat :=
  if (reduce stack).result.isSome then (reduce stack).remaining.length + 1 else 0

theorem lowest_of_some {stack : Stack} {x : Float} (h : (reduce stack).result = some x) :
    lowest stack = (reduce stack).remaining.length + 1 := by
  simp [lowest, h]

theorem lowest_of_none {stack : Stack} (h : (reduce stack).result = none) : lowest stack = 0 := by
  simp [lowest, h]

theorem lowest_le (stack : Stack) : lowest stack ≤ stack.length := by
  cases h : (reduce stack).result with
  | none =>
    rw [lowest_of_none h]
    omega
  | some x =>
    have hless := length_remaining_lt h
    rw [lowest_of_some h]
    omega

theorem lowest_unary (symbol : String) (apply : Float → Float) (below : Stack) :
    lowest (.operation ⟨symbol, .unary apply⟩ :: below) = lowest below := by
  rcases reduce_unary_cases symbol apply below with ⟨hb, hreduce⟩ | ⟨a, hb, hreduce⟩
  · simp [lowest, hreduce, hb]
  · simp [lowest, hreduce, hb]

theorem lowest_binary_none (symbol : String) (apply : Float → Float → Float) {below : Stack}
    (h : (reduce below).result = none) :
    lowest (.operation ⟨symbol, .binary apply⟩ :: below) = lowest below := by
  rw [lowest_of_none h, lowest, reduce_obeyed.first_starved symbol apply below h]
  rfl

theorem lowest_binary_some (symbol : String) (apply : Float → Float → Float) {below : Stack}
    {x : Float} (h : (reduce below).result = some x) :
    lowest (.operation ⟨symbol, .binary apply⟩ :: below) = lowest (reduce below).remaining := by
  rcases reduce_binary_cases symbol apply below with
    ⟨hb, -⟩ | ⟨first, -, hr, hreduce⟩ | ⟨first, second, -, hr, hreduce⟩
  · rw [h] at hb
    cases hb
  · simp [lowest, hreduce, hr]
  · simp [lowest, hreduce, hr]

/-- The lengths of the levels that are visited, in the order in which they return. -/
def visits (stack : Stack) : List Nat := (calls stack).map fun done => done.level.length

theorem perm_Ico_concat {lengths : List Nat} {lo hi : Nat} (hle : lo ≤ hi)
    (h : lengths.Perm (List.Ico lo hi)) : (lengths ++ [hi]).Perm (List.Ico lo (hi + 1)) := by
  rw [List.Ico.succ_top hle]
  exact h.append_right [hi]

theorem visits_perm (stack : Stack) :
    (visits stack).Perm (List.Ico (lowest stack) (stack.length + 1)) := by
  induction stack using call_induction with
  | empty =>
    rw [visits, calls_nil, lowest_of_none (by simp)]
    exact List.Perm.refl _
  | operand value below =>
    have hlowest : lowest (.operand value :: below) = below.length + 1 := by simp [lowest]
    rw [visits, calls_operand, hlowest, List.length_cons, List.Ico.succ_singleton]
    exact List.Perm.refl _
  | constant symbol value below =>
    have hlowest : lowest (.operation ⟨symbol, .constant value⟩ :: below) = below.length + 1 := by
      simp [lowest]
    rw [visits, calls_constant, hlowest, List.length_cons, List.Ico.succ_singleton]
    exact List.Perm.refl _
  | unary symbol apply below ih =>
    have hle := lowest_le below
    have hvisits : visits (.operation ⟨symbol, .unary apply⟩ :: below) =
        visits below ++ [below.length + 1] := by
      simp [visits, calls_unary, call]
    rw [hvisits, lowest_unary, List.length_cons]
    exact perm_Ico_concat (by omega) ih
  | binary symbol apply below ih₁ ih₂ =>
    cases hb : (reduce below).result with
    | none =>
      have hle := lowest_le below
      have hvisits : visits (.operation ⟨symbol, .binary apply⟩ :: below) =
          visits below ++ [below.length + 1] := by
        simp [visits, calls_binary_none symbol apply hb, call]
      rw [hvisits, lowest_binary_none symbol apply hb, List.length_cons]
      exact perm_Ico_concat (by omega) ih₁
    | some first =>
      have hle := lowest_le (reduce below).remaining
      have hrest := length_remaining_lt hb
      have hvisits : visits (.operation ⟨symbol, .binary apply⟩ :: below) =
          visits below ++ visits (reduce below).remaining ++ [below.length + 1] := by
        simp [visits, calls_binary_some symbol apply hb, call]
      -- The first call visits the levels above those that the second one visits.
      have hboth : (visits below ++ visits (reduce below).remaining).Perm
          (List.Ico (lowest (reduce below).remaining) (below.length + 1)) := by
        rw [lowest_of_some hb] at ih₁
        have happend := List.perm_append_comm.trans (ih₂.append ih₁)
        rwa [List.Ico.append_consecutive (by omega) (by omega)] at happend
      rw [hvisits, lowest_binary_some symbol apply hb, List.length_cons]
      exact perm_Ico_concat (by omega) hboth

theorem length_calls (stack : Stack) :
    (calls stack).length = stack.length + 1 - lowest stack := by
  have hlength := (visits_perm stack).length_eq
  rwa [visits, List.length_map, List.Ico.length] at hlength

theorem Truthful.eq_take {tokens : List Token} {done : Return}
    (h : Truthful tokens.reverse done) :
    ∃ n, n ≤ tokens.length ∧
      done = ⟨(tokens.take n).reverse, reduce (tokens.take n).reverse⟩ := by
  have hprefix : done.level.reverse <+: tokens := Stack.reverse_prefix_of_suffix h.level
  have htake : done.level.reverse = tokens.take done.level.length := by
    simpa using List.prefix_iff_eq_take.mp hprefix
  have hlevel : (tokens.take done.level.length).reverse = done.level := by
    rw [← htake, List.reverse_reverse]
  refine ⟨done.level.length, by simpa using hprefix.length_le, ?_⟩
  rw [hlevel, ← h.reduction]

end Rule

/-- A traced reduction with a value has one entry for each length from one more than remains up to
the whole input, and a starved one has one for each length up to the whole input. The last entry is
about the whole input and has the outcome. Each entry tells, in its line of the log as well, what
the first tokens of the input, as many as it says, reduce to by themselves. -/
theorem reduceTracing_visits_each_prefix (tracing : Bool) (tokens : List Token) :
    let reduction := (reduceTracing true tokens.reverse).1
    let entries := (reduceTracing true tokens.reverse).2
    let lengths := entries.map fun entry => entry.level.length
    (reduction.result.isSome = true →
      lengths.Perm (List.Ico (reduction.remaining.length + 1) (tokens.length + 1)) ∧
      entries.length = tokens.length - reduction.remaining.length) ∧
    (reduction.result = none →
      lengths.Perm (List.Ico 0 (tokens.length + 1)) ∧ entries.length = tokens.length + 1) ∧
    entries.getLast? = some ⟨tokens.reverse, reduction⟩ ∧
    ∀ entry ∈ entries, ∃ n, n ≤ tokens.length ∧
      let own := (reduceTracing tracing (tokens.take n).reverse).1
      entry = ⟨(tokens.take n).reverse, own⟩ ∧
      (Event.returned entry).line =
        "TRACE reduce [.." ++ toString n ++ "] -> " ++ resultText own.result ++ ", " ++
          toString own.remaining.length ++ " left" ∧
      (own.result.isSome = true → own.remaining.length < n) ∧
      (own.result = none → own.remaining.length = n) := by
  intro reduction entries lengths
  have hreduction : reduction = Rule.reduce tokens.reverse := reduceTracing_fst true _
  have hentries : entries = Rule.calls tokens.reverse := by
    show (reduceTracing true tokens.reverse).2 = _
    rw [reduceTracing_eq]
    rfl
  have hlengths : lengths = Rule.visits tokens.reverse := by
    show entries.map _ = _
    rw [hentries]
    rfl
  have hperm := Rule.visits_perm tokens.reverse
  have hcount := Rule.length_calls tokens.reverse
  rw [List.length_reverse] at hperm hcount
  rw [hlengths, hentries, hreduction]
  refine ⟨?_, ?_, Rule.getLast?_calls tokens.reverse, ?_⟩
  · intro hsome
    obtain ⟨x, hx⟩ := Option.isSome_iff_exists.mp hsome
    rw [Rule.lowest_of_some hx] at hperm hcount
    exact ⟨hperm, by omega⟩
  · intro hnone
    rw [Rule.lowest_of_none hnone] at hperm hcount
    exact ⟨hperm, hcount⟩
  · intro entry hentry
    obtain ⟨n, hn, hentry⟩ := (Rule.truthful_of_mem_calls hentry).eq_take
    have hlength : (tokens.take n).reverse.length = n := by simpa using hn
    refine ⟨n, hn, ?_⟩
    rw [reduceTracing_fst]
    intro own
    refine ⟨hentry, ?_, ?_, ?_⟩
    · rw [Event.line_returned, hentry, hlength]
    · intro hsome
      obtain ⟨x, hx⟩ := Option.isSome_iff_exists.mp hsome
      have hless := Rule.length_remaining_lt hx
      rwa [hlength] at hless
    · intro hnone
      have hstarved : own = .starved (tokens.take n).reverse := Rule.reduce_eq_starved hnone
      rw [hstarved, Reduction.remaining_starved, hlength]

/-- In `9 3 4 +` the 9 is not visited. In the starved `2 3 + ×` all is, the empty part too. -/
theorem visits_of_sum_and_starved_product :
    let sum : List Token :=
      [.operand 9, .operand 3, .operand 4, .operation Operation.add]
    let product : List Token :=
      [.operand 2, .operand 3, .operation Operation.add, .operation Operation.multiply]
    let last : Return := ⟨product.reverse, none, product.reverse⟩
    ((reduceTracing true sum.reverse).2.map fun entry => entry.level.length).Perm [2, 3, 4] ∧
    ((reduceTracing true product.reverse).2.map fun entry => entry.level.length).Perm
      [0, 1, 2, 3, 4] ∧
    last ∈ (reduceTracing true product.reverse).2 ∧
    (Event.returned last).line = "TRACE reduce [..4] -> None, 4 left" := by
  intro sum product last
  have hsum : (reduceTracing true sum.reverse).1 =
      ⟨some (3 + 4), List.reverse [.operand 9]⟩ := by
    rw [reduceTracing_fst]
    exact Rule.reduce_reverse_code [.operand 9]
      (.binary "+" (fun top second => second + top) (.operand 3) (.operand 4))
  have hproduct : (reduceTracing true product.reverse).1 = ⟨none, product.reverse⟩ := by
    rw [reduceTracing_fst]
    simp [product, Operation.add, Operation.multiply, Rule.reduce_binary, Reduction.starved]
  have hvisitsSum := reduceTracing_visits_each_prefix true sum
  have hvisitsProduct := reduceTracing_visits_each_prefix true product
  rw [hsum] at hvisitsSum
  rw [hproduct] at hvisitsProduct
  have hlast : last ∈ (reduceTracing true product.reverse).2 :=
    List.mem_of_getLast? hvisitsProduct.2.2.1
  obtain ⟨n, hn, hentry, hline, -⟩ := hvisitsProduct.2.2.2 last hlast
  have hwhole : n = 4 := by
    have hlength := congrArg (fun entry : Return => entry.level.length) hentry
    simp [last, product] at hlength hn
    omega
  have htake : product.take 4 = product := rfl
  rw [hwhole, htake, hproduct] at hline
  exact ⟨(hvisitsSum.1 rfl).1, (hvisitsProduct.2.1 rfl).1, hlast, hline.trans (by decide)⟩

end ReversePolish

import ReversePolish.Proofs.History.Retelling
import ReversePolish.Registry.Standard
import Mathlib.Data.Finset.Range
import Mathlib.Data.Finset.Filter

/-!
# Updates unwind the tracks

Recorded tokens wait on two tracks, and a row of updates takes them off from the
newest to the oldest: an operation and an operand each time, and once, at the
first update, the operand before them. So the text runs backward through what was
recorded, save that its first two operands stand in the order in which they were
entered. How operands and operations were interleaved has no part in it.
-/

namespace ReversePolish

namespace History

/-- The history of the given tokens after some updates. -/
def updated (tokens : List Token) (count : Nat) : History :=
  ofSteps (tokens.map .record ++ List.replicate count .update)

/-- The number of updates that find on the tracks what they write. -/
def reach (tokens : List Token) : Nat :=
  min (Token.operations tokens).length ((Token.operands tokens).length - 1)

variable {tokens : List Token} {n : Nat}

theorem updated_zero (tokens : List Token) :
    updated tokens 0 =
      ⟨(Token.operands tokens).reverse, (Token.operations tokens).reverse, ""⟩ := by
  rw [updated, List.replicate_zero, List.append_nil, ofSteps, List.foldl_map]
  exact foldl_record_empty tokens

theorem updated_succ (tokens : List Token) (n : Nat) :
    updated tokens (n + 1) = (updated tokens n).update := by
  unfold updated ofSteps
  rw [List.replicate_succ', ← List.append_assoc, List.foldl_append]
  rfl

theorem updated_congr {tokens' : List Token}
    (hoperands : Token.operands tokens' = Token.operands tokens)
    (hoperations : Token.operations tokens' = Token.operations tokens) (n : Nat) :
    updated tokens' n = updated tokens n := by
  induction n with
  | zero => rw [updated_zero, updated_zero, hoperands, hoperations]
  | succ n ih => rw [updated_succ, updated_succ, ih]

theorem lt_reach_iff :
    n < reach tokens ↔
      n < (Token.operations tokens).length ∧ n + 1 < (Token.operands tokens).length := by
  unfold reach
  omega

/-! ### Updates that write -/

/-- The item on top of a track, by its place in recording order. -/
theorem exists_newest {α : Type} (recorded : List α) (h : n < recorded.length) :
    ∃ a, recorded[recorded.length - (n + 1)]? = some a ∧
      recorded.reverse.drop n = a :: recorded.reverse.drop (n + 1) := by
  have hn : n < recorded.reverse.length := by simpa using h
  refine ⟨recorded.reverse[n], ?_, List.drop_eq_getElem_cons hn⟩
  rw [List.getElem_reverse, List.getElem?_eq_getElem (by omega)]
  simp only [Nat.sub_sub, Nat.add_comm 1 n]

theorem updated_one (h : 0 < reach tokens) :
    let values := Token.operands tokens
    let ops := Token.operations tokens
    ∃ before op last,
      values[values.length - 2]? = some before ∧ ops[ops.length - 1]? = some op ∧
      values[values.length - 1]? = some last ∧
      updated tokens 1 = ⟨values.reverse.drop 2, ops.reverse.drop 1,
        (Token.operand before).text ++ op.symbol ++ (Token.operand last).text⟩ := by
  intro values ops
  obtain ⟨hops, hvalues⟩ := lt_reach_iff.mp h
  obtain ⟨op, hop, hoperations⟩ := exists_newest ops hops
  obtain ⟨last, hlast, hoperands⟩ := exists_newest values (Nat.lt_of_succ_lt hvalues)
  obtain ⟨before, hbefore, hbelow⟩ := exists_newest values hvalues
  refine ⟨before, op, last, hbefore, hop, hlast, ?_⟩
  rw [hbelow] at hoperands
  rw [updated_succ, updated_zero]
  change History.update ⟨values.reverse.drop 0, ops.reverse.drop 0, ""⟩ = _
  rw [hoperands, hoperations]
  rfl

theorem updated_later {text : String}
    (hn : updated tokens n = ⟨(Token.operands tokens).reverse.drop (n + 1),
      (Token.operations tokens).reverse.drop n, text⟩)
    (htext : text ≠ "") (h : n < reach tokens) :
    let values := Token.operands tokens
    let ops := Token.operations tokens
    ∃ op value,
      ops[ops.length - (n + 1)]? = some op ∧ values[values.length - (n + 2)]? = some value ∧
      updated tokens (n + 1) = ⟨values.reverse.drop (n + 2), ops.reverse.drop (n + 1),
        text ++ op.symbol ++ (Token.operand value).text⟩ := by
  intro values ops
  obtain ⟨hops, hvalues⟩ := lt_reach_iff.mp h
  obtain ⟨op, hop, hoperations⟩ := exists_newest ops hops
  obtain ⟨value, hvalue, hoperands⟩ := exists_newest values hvalues
  refine ⟨op, value, hop, hvalue, ?_⟩
  rw [updated_succ, hn]
  change History.update ⟨values.reverse.drop (n + 1), ops.reverse.drop n, text⟩ = _
  rw [hoperands, hoperations]
  simp [update, htext]

/-- What waits after some updates that have written, and that there is a text. -/
theorem updated_of_le_reach (hn : 1 ≤ n) (h : n ≤ reach tokens) :
    (updated tokens n).text ≠ "" ∧
      updated tokens n = ⟨(Token.operands tokens).reverse.drop (n + 1),
        (Token.operations tokens).reverse.drop n, (updated tokens n).text⟩ := by
  induction n, hn using Nat.le_induction with
  | base =>
    obtain ⟨before, op, last, -, -, -, hone⟩ := updated_one h
    rw [hone]
    refine ⟨fun hempty => ?_, rfl⟩
    exact Token.text_operand_ne_empty last (String.append_eq_empty_iff.mp hempty).2
  | succ n hn ih =>
    obtain ⟨htext, hstate⟩ := ih (by omega)
    obtain ⟨op, value, -, -, hnext⟩ := updated_later hstate htext h
    rw [hnext]
    refine ⟨fun hempty => ?_, rfl⟩
    exact Token.text_operand_ne_empty value (String.append_eq_empty_iff.mp hempty).2

/-! ### Where the updates come to an end -/

theorem starved_updated_iff (h : n ≤ reach tokens) :
    (updated tokens n).Starved ↔ n = reach tokens := by
  rcases Nat.eq_zero_or_pos n with rfl | hpos
  · rw [updated_zero]
    simp only [Starved, ← List.length_eq_zero_iff, List.length_reverse, if_true, reach]
    omega
  · obtain ⟨htext, hstate⟩ := updated_of_le_reach hpos h
    rw [hstate]
    simp only [Starved, htext, if_false, List.drop_eq_nil_iff, List.length_drop,
      List.length_reverse]
    unfold reach at h ⊢
    omega

theorem updated_of_reach_le (h : reach tokens ≤ n) :
    updated tokens n = updated tokens (reach tokens) := by
  induction n, h using Nat.le_induction with
  | base => rfl
  | succ n hn ih =>
    rw [updated_succ, ih, update_of_starved ((starved_updated_iff (Nat.le_refl _)).mpr rfl)]

theorem text_updated_succ_ne_iff :
    (updated tokens (n + 1)).text ≠ (updated tokens n).text ↔ n < reach tokens := by
  constructor
  · intro hchanged
    by_contra hreach
    rw [updated_of_reach_le (by omega : reach tokens ≤ n + 1),
      updated_of_reach_le (by omega : reach tokens ≤ n)] at hchanged
    exact hchanged rfl
  · intro hreach hsame
    have hstarved : ¬ (updated tokens n).Starved := by
      rw [starved_updated_iff (Nat.le_of_lt hreach)]
      omega
    obtain ⟨written, hwritten, htext⟩ := text_update_of_not_starved hstarved
    rw [updated_succ, htext] at hsame
    exact hwritten (String.append_eq_left_iff.mp hsame)

theorem updated_min (tokens : List Token) (count : Nat) :
    updated tokens count = updated tokens (min count (reach tokens)) := by
  rcases Nat.le_total count (reach tokens) with h | h
  · rw [Nat.min_eq_left h]
  · rw [Nat.min_eq_right h, updated_of_reach_le h]

/-- What waits after any number of updates, in recording order. -/
theorem tracks_updated (tokens : List Token) (count : Nat) :
    let t := min count (reach tokens)
    (updated tokens count).operands.reverse =
        (if t = 0 then Token.operands tokens
          else (Token.operands tokens).take ((Token.operands tokens).length - t - 1)) ∧
      (updated tokens count).operations.reverse =
        (Token.operations tokens).take ((Token.operations tokens).length - t) := by
  intro t
  rw [updated_min]
  change (updated tokens t).operands.reverse = _ ∧ (updated tokens t).operations.reverse = _
  rcases Nat.eq_zero_or_pos t with hzero | hpos
  · rw [hzero, updated_zero]
    simp
  · obtain ⟨-, hstate⟩ := updated_of_le_reach hpos (Nat.min_le_right count (reach tokens))
    rw [hstate, if_neg (by omega), List.drop_reverse, List.drop_reverse, List.reverse_reverse,
      List.reverse_reverse, Nat.sub_sub]
    exact ⟨rfl, rfl⟩

/-- Tokens are recorded, then the history is updated `count` times. The first `t` updates write and
no other does anything: the newest operation between the two newest operands, then each time the
newest operation and operand that are left. The others wait, and only what was recorded on each
track matters, not how the tracks were interleaved. -/
theorem updates_tell_newest_first (tokens : List Token) (count : Nat) :
    let values := Token.operands tokens
    let ops := Token.operations tokens
    let history := updated tokens
    let t := min count (min ops.length (values.length - 1))
    (Finset.range count).filter (fun n => (history (n + 1)).text ≠ (history n).text) =
      Finset.range t ∧
    (history 0).text = "" ∧
    (1 ≤ t → ∃ before op last,
      values[values.length - 2]? = some before ∧ ops[ops.length - 1]? = some op ∧
      values[values.length - 1]? = some last ∧
      (history 1).text = (Token.operand before).text ++ op.symbol ++ (Token.operand last).text) ∧
    (∀ i, 2 ≤ i → i ≤ t → ∃ op value,
      ops[ops.length - i]? = some op ∧ values[values.length - i - 1]? = some value ∧
      (history i).text = (history (i - 1)).text ++ op.symbol ++ (Token.operand value).text) ∧
    (history count).operands.reverse =
      (if t = 0 then values else values.take (values.length - t - 1)) ∧
    (history count).operations.reverse = ops.take (ops.length - t) ∧
    history count = history t ∧
    (min ops.length (values.length - 1) ≤ count → ∀ more,
      history (count + more) = history count) ∧
    ∀ tokens', Token.operands tokens' = values → Token.operations tokens' = ops →
      ∀ n, updated tokens' n = history n := by
  intro values ops history t
  have ht : t ≤ reach tokens := Nat.min_le_right count (reach tokens)
  obtain ⟨hvalues, hops⟩ := tracks_updated tokens count
  refine ⟨?_, ?_, ?_, ?_, hvalues, hops, updated_min tokens count, ?_, ?_⟩
  · ext n
    rw [Finset.mem_filter, Finset.mem_range, Finset.mem_range, text_updated_succ_ne_iff]
    exact (Nat.lt_min).symm
  · simp only [history, updated_zero]
  · intro hone
    obtain ⟨before, op, last, hbefore, hop, hlast, hstate⟩ := updated_one (Nat.le_trans hone ht)
    exact ⟨before, op, last, hbefore, hop, hlast, congrArg History.text hstate⟩
  · intro i htwo hi
    obtain ⟨n, rfl⟩ := Nat.exists_eq_add_of_le' (Nat.le_of_lt htwo)
    have hreach : n + 1 ≤ reach tokens := Nat.le_trans hi ht
    obtain ⟨htext, hstate⟩ := @updated_of_le_reach tokens n (by omega) (by omega)
    obtain ⟨op, value, hop, hvalue, hnext⟩ := updated_later hstate htext hreach
    exact ⟨op, value, hop, hvalue, congrArg History.text hnext⟩
  · intro hreach more
    have hcount : reach tokens ≤ count := hreach
    change updated tokens (count + more) = updated tokens count
    rw [updated_of_reach_le (by omega), updated_of_reach_le hcount]
  · intro tokens' hoperands hoperations n
    exact updated_congr hoperands hoperations n

/-- The product that is entered last is told first, and the sum behind it; a third update finds no
operation. Entering the operands first makes no difference. -/
theorem updates_tell_product_first :
    let tokens : List Token := [.operand 2, .operation Operation.add, .operand 3,
      .operation Operation.multiply, .operand 4]
    let other : List Token := [.operand 2, .operand 3, .operand 4, .operation Operation.add,
      .operation Operation.multiply]
    (updated tokens 1).text = (Token.operand 3).text ++ "×" ++ (Token.operand 4).text ∧
    (updated tokens 2).text = (updated tokens 1).text ++ "+" ++ (Token.operand 2).text ∧
    updated tokens 3 = updated tokens 2 ∧ updated other 3 = updated tokens 3 := by
  intro tokens other
  obtain ⟨-, -, hone, hlater, -, -, hend, -, hsame⟩ := updates_tell_newest_first tokens 3
  obtain ⟨before, op, last, hbefore, hop, hlast, htext⟩ := hone (by decide)
  obtain ⟨op', value, hop', hvalue, htext'⟩ := hlater 2 (by decide) (by decide)
  cases hbefore
  cases hop
  cases hlast
  cases hop'
  cases hvalue
  exact ⟨htext, htext', hend, hsame other rfl rfl 3⟩

end History

end ReversePolish

import ReversePolish.Decimal.Shortest
import Mathlib.Tactic.Ring
import Mathlib.Tactic.Positivity

/-!
# The shortest numeral names its double

The nearest double of a fraction depends on its value only, so a numeral may be
brought to any power of ten before it is rounded. A double written out in full
is its own nearest double; every other point at which the search for the
shortest numeral stops was found to read back. So the numeral that it ends with
has the double as its nearest one.
-/

namespace ReversePolish.Decimal

/-! ### Rounding depends on the value only -/

theorem roundHalfEven_mul (num den : Nat) {k : Nat} (hk : 0 < k) :
    roundHalfEven (num * k) (den * k) = roundHalfEven num den := by
  have hquotient : num * k / (den * k) = num / den := Nat.mul_div_mul_right num den hk
  have hrest : num * k % (den * k) = num % den * k := Nat.mul_mod_mul_right k num den
  have hbelow : 2 * (num % den * k) < den * k ↔ 2 * (num % den) < den := by
    rw [← Nat.mul_assoc]
    exact Nat.mul_lt_mul_right hk
  have habove : den * k < 2 * (num % den * k) ↔ den < 2 * (num % den) := by
    rw [← Nat.mul_assoc]
    exact Nat.mul_lt_mul_right hk
  simp only [roundHalfEven, hquotient, hrest, hbelow, habove]

theorem roundHalfEven_of_multiple (n : Nat) {den : Nat} (hden : 0 < den) :
    roundHalfEven (n * den) den = n := by
  simp [roundHalfEven, Nat.mul_div_cancel n hden, hden]

theorem nearest_mul (num den : Nat) {k : Nat} (hk : 0 < k) :
    nearest (num * k) (den * k) = nearest num den := by
  have hnum : num * k * Nat.pow 2 1074 = num * Nat.pow 2 1074 * k := Nat.mul_right_comm ..
  have hden : ∀ doublings, den * k * Nat.pow 2 doublings = den * Nat.pow 2 doublings * k :=
    fun doublings => Nat.mul_right_comm ..
  simp only [nearest, hnum, hden, roundHalfEven_mul _ _ hk, Nat.mul_div_mul_right _ _ hk]

/-- A numeral may be rounded as any fraction of powers of ten that has its exponent. -/
theorem Numeral.nearest_eq (x : Numeral) {a b : Nat} (h : x.exponent = (a : Int) - b) :
    x.nearest = Decimal.nearest (x.coefficient * 10 ^ a) (10 ^ b) := by
  obtain ⟨coefficient, exponent⟩ := x
  have hten : 0 < 10 := Nat.succ_pos 9
  cases exponent with
  | ofNat e =>
    have ha : a = e + b := by
      have : (e : Int) = a - b := h
      omega
    calc Numeral.nearest ⟨coefficient, Int.ofNat e⟩
        = Decimal.nearest (coefficient * 10 ^ e) 1 := rfl
      _ = Decimal.nearest (coefficient * 10 ^ e * 10 ^ b) (1 * 10 ^ b) :=
          (nearest_mul _ _ (Nat.pow_pos hten)).symm
      _ = Decimal.nearest (coefficient * 10 ^ a) (10 ^ b) := by
          rw [ha, pow_add, Nat.mul_assoc, Nat.one_mul]
  | negSucc e =>
    have hb : b = e + 1 + a := by
      have : Int.negSucc e = a - b := h
      omega
    calc Numeral.nearest ⟨coefficient, Int.negSucc e⟩
        = Decimal.nearest coefficient (10 ^ (e + 1)) := rfl
      _ = Decimal.nearest (coefficient * 10 ^ a) (10 ^ (e + 1) * 10 ^ a) :=
          (nearest_mul _ _ (Nat.pow_pos hten)).symm
      _ = Decimal.nearest (coefficient * 10 ^ a) (10 ^ b) := by
          rw [hb, pow_add 10 (e + 1) a]

theorem Numeral.nearest_dropZero (x : Numeral) : x.dropZero.nearest = x.nearest := by
  unfold dropZero
  split
  next hzero =>
    obtain ⟨a, b, hexponent⟩ : ∃ a b : Nat, x.exponent = (a : Int) - b :=
      ⟨x.exponent.toNat, (-x.exponent).toNat, by omega⟩
    have hcoefficient : x.coefficient / 10 * 10 ^ (a + 1) = x.coefficient * 10 ^ a := by
      rw [pow_succ', ← Nat.mul_assoc, Nat.div_mul_cancel (Nat.dvd_of_mod_eq_zero hzero)]
    rw [x.nearest_eq hexponent, ← hcoefficient]
    exact nearest_eq ⟨x.coefficient / 10, x.exponent + 1⟩ (by push_cast; omega)
  next => rfl

/-! ### A double is its own nearest double -/

theorem two_pow_mul_five_pow (s b : Nat) :
    2 ^ (s - b) * 5 ^ (b - s) * 2 ^ b = 2 ^ s * 10 ^ (b - s) := by
  have hten : 10 ^ (b - s) = 2 ^ (b - s) * 5 ^ (b - s) := mul_pow 2 5 (b - s)
  have htwo : 2 ^ (s - b) * 2 ^ b = 2 ^ s * 2 ^ (b - s) := by
    rw [← pow_add, ← pow_add, Nat.add_comm s, Nat.sub_add_eq_max, Nat.sub_add_eq_max, Nat.max_comm]
  rw [hten, Nat.mul_right_comm, htwo, Nat.mul_assoc]

theorem expansion_mul (magnitude : Nat) :
    expansion magnitude * Nat.pow 2 1074 = units magnitude * 10 ^ places magnitude := by
  rw [expansion, units, places]
  generalize 1074 = bias
  have hpowers := two_pow_mul_five_pow (scale magnitude) bias
  simp only [Nat.pow_eq, Nat.mul_assoc] at hpowers ⊢
  rw [hpowers]

/-- The pattern of a double is the number of its doublings and its significand put together; the
leading bit of the significand of a normal double carries into the exponent. -/
theorem scale_mul_add_significand (magnitude : Nat) :
    scale magnitude * 2 ^ 52 + significand magnitude = magnitude := by
  simp only [scale, significand, Nat.pow_eq]
  have hsplit := Nat.div_add_mod magnitude (2 ^ 52)
  split
  next hsubnormal =>
    have : magnitude / 2 ^ 52 = 0 := Nat.div_eq_of_lt hsubnormal
    omega
  next hnormal =>
    have : 1 ≤ magnitude / 2 ^ 52 := (Nat.one_le_div_iff (by positivity)).mpr (by omega)
    omega

theorem log2_units (magnitude : Nat) : (units magnitude).log2 - 52 = scale magnitude := by
  simp only [units, significand, scale, Nat.pow_eq]
  split
  next hsubnormal =>
    have hscale : magnitude / 2 ^ 52 = 0 := Nat.div_eq_of_lt hsubnormal
    have hlog : magnitude.log2 ≤ 52 := by
      rcases Nat.eq_zero_or_pos magnitude with rfl | hpos
      · exact Nat.zero_le 52
      · exact Nat.le_of_lt ((Nat.log2_lt (Nat.ne_of_gt hpos)).mpr hsubnormal)
    rw [hscale, Nat.zero_sub, pow_zero, Nat.mul_one]
    omega
  next hnormal =>
    have hlow : magnitude % 2 ^ 52 < 2 ^ 52 := Nat.mod_lt _ (by positivity)
    generalize magnitude % 2 ^ 52 = low at hlow ⊢
    generalize magnitude / 2 ^ 52 - 1 = doublings
    have hlog : ((2 ^ 52 + low) * 2 ^ doublings).log2 = 52 + doublings := by
      rw [Nat.log2_eq_iff (by positivity), pow_add, pow_add, pow_add]
      constructor
      · exact Nat.mul_le_mul_right _ (by omega)
      · rw [Nat.mul_right_comm]
        exact Nat.mul_lt_mul_of_pos_right (by omega) (by positivity)
    omega

theorem nearest_of_units {num den n : Nat} (hden : 0 < den) (h : num * Nat.pow 2 1074 = n * den) :
    nearest num den =
      min infinityBits ((n.log2 - 52) * 2 ^ 52 + roundHalfEven n (2 ^ (n.log2 - 52))) := by
  have hquotient : n * den / den = n := Nat.mul_div_cancel n hden
  have hround := roundHalfEven_mul n (2 ^ (n.log2 - 52)) hden
  rw [nearest, h, hquotient, ← hround, Nat.mul_comm den]
  rfl

theorem nearest_expansion {magnitude : Nat} (h : magnitude ≤ infinityBits) :
    nearest (expansion magnitude) (10 ^ places magnitude) = magnitude := by
  have hunits : units magnitude = significand magnitude * 2 ^ scale magnitude := rfl
  rw [nearest_of_units (by positivity) (expansion_mul magnitude), log2_units, hunits,
    roundHalfEven_of_multiple _ (by positivity), scale_mul_add_significand]
  exact Nat.min_eq_right h

/-! ### The search -/

theorem readsBack_eq (magnitude grid coefficient : Nat) :
    readsBack magnitude grid coefficient =
      (nearest (coefficient * 10 ^ grid) (10 ^ places magnitude) == magnitude) := by
  simp only [readsBack, Nat.pow_eq]

theorem nearest_gridPoint? {magnitude grid coefficient : Nat}
    (h : gridPoint? magnitude grid = some coefficient) :
    nearest (coefficient * 10 ^ grid) (10 ^ places magnitude) = magnitude := by
  have hreads : readsBack magnitude grid coefficient = true := List.find?_some h
  rw [readsBack_eq] at hreads
  exact beq_iff_eq.mp hreads

theorem nearest_shortestBelow {magnitude : Nat} (h : magnitude ≤ infinityBits) (grids : Nat) :
    (shortestBelow magnitude grids).nearest = magnitude := by
  rw [shortestBelow]
  cases hfound : (List.range grids).reverse.findSome? fun grid =>
      (gridPoint? magnitude grid).map fun coefficient =>
        Numeral.mk coefficient (grid - (places magnitude : Int)) with
  | none =>
    have hexponent : -(places magnitude : Int) = (0 : Nat) - (places magnitude : Int) := by omega
    have hwhole := Numeral.nearest_eq ⟨expansion magnitude, -(places magnitude : Int)⟩ hexponent
    rw [Option.getD_none, hwhole, pow_zero, Nat.mul_one, nearest_expansion h]
  | some x =>
    obtain ⟨grid, -, hgrid⟩ := List.exists_of_findSome?_eq_some hfound
    obtain ⟨coefficient, hpoint, rfl⟩ := Option.map_eq_some_iff.mp hgrid
    rw [Option.getD_some, Numeral.nearest_eq _ rfl]
    exact nearest_gridPoint? hpoint

theorem nearest_zero : Numeral.nearest ⟨0, 0⟩ = 0 := by decide +kernel

/-- The nearest double of the shortest numeral of a double is this double. -/
theorem nearest_shortest {magnitude : Nat} (h : magnitude ≤ infinityBits) :
    (shortest magnitude).nearest = magnitude := by
  rw [shortest]
  split
  next hzero => rw [hzero, nearest_zero]
  next => rw [Numeral.nearest_dropZero, nearest_shortestBelow h]

end ReversePolish.Decimal

import ReversePolish.Decimal.Layout
import ReversePolish.Decimal.Reader
import ReversePolish.Proofs.Decimal.Shortest
import Mathlib

/-!
# What is written is read back

A double that is written without an exponent is read back as the same double,
to the last bit: signed zeros, infinities and the NaN included. The digits that
are written spell the shortest numeral, possibly with zeros behind it, reading
finds this numeral again, and the shortest numeral of a double has this double
as its nearest one.
-/

namespace ReversePolish.Decimal

/-! ### Rows of digits -/

theorem digitsValue_eq (row : List Char) : digitsValue row = Nat.ofDigitChars 10 row 0 :=
  Nat.ofDigitChars_eq_foldl.symm

theorem digitsValue_digits (n : Nat) : digitsValue (digits n) = n := by
  rw [digitsValue_eq]
  exact Nat.ofDigitChars_ten_toDigits

theorem digitsValue_append (a b : List Char) :
    digitsValue (a ++ b) = 10 ^ b.length * digitsValue a + digitsValue b := by
  rw [digitsValue_eq, Nat.ofDigitChars_append, Nat.ofDigitChars_eq_ofDigitChars_zero,
    ← digitsValue_eq, ← digitsValue_eq]

theorem digitsValue_padLeft (width : Nat) (row : List Char) :
    digitsValue (padLeft width row) = digitsValue row := by
  have hzeros : digitsValue (List.replicate (width - row.length) '0') = 0 := by
    rw [digitsValue_eq, Nat.ofDigitChars_replicate_zero, Nat.mul_zero]
  rw [padLeft, digitsValue_append, hzeros, Nat.mul_zero, Nat.zero_add]

theorem isDigit_of_mem_digits {n : Nat} {c : Char} (h : c ∈ digits n) : c.isDigit = true :=
  Nat.isDigit_of_mem_toDigits (Nat.succ_pos 9) (Nat.le_refl 10) h

theorem isDigit_of_mem_padLeft {width : Nat} {row : List Char}
    (hrow : ∀ c ∈ row, c.isDigit = true) {c : Char} (h : c ∈ padLeft width row) :
    c.isDigit = true := by
  rcases List.mem_append.mp h with hzero | hmem
  · rw [List.eq_of_mem_replicate hzero]
    rfl
  · exact hrow c hmem

theorem length_padLeft_digits {width n : Nat} (h : n < 10 ^ width) (hwidth : 0 < width) :
    (padLeft width (digits n)).length = width := by
  have hlength : (digits n).length ≤ width :=
    (Nat.length_toDigits_le_iff (Nat.one_lt_succ_succ 8) hwidth).mpr h
  rw [length_padLeft, Nat.max_eq_left hlength]

/-! ### Numerals in text -/

theorem span_isDigit {row : List Char} (rest : List Char) (hrow : ∀ c ∈ row, c.isDigit = true)
    (hrest : ∀ c ∈ rest.head?, c.isDigit = false) :
    (row ++ rest).span Char.isDigit = (row, rest) := by
  rw [List.span_eq_takeWhile_dropWhile, List.takeWhile_append_of_pos hrow,
    List.dropWhile_append_of_pos hrow]
  cases rest with
  | nil => simp
  | cons c rest =>
    have hc := hrest c rfl
    simp [hc]

theorem numeral?_whole (whole : List Char) (hdigits : ∀ c ∈ whole, c.isDigit = true)
    (hne : whole ≠ []) : numeral? whole = some ⟨digitsValue whole, 0⟩ := by
  have hspan := span_isDigit [] hdigits (by simp)
  rw [List.append_nil] at hspan
  rw [numeral?, hspan]
  simp [fraction, exponent?, hne]

theorem numeral?_point (whole places : List Char) (hwhole : ∀ c ∈ whole, c.isDigit = true)
    (hplaces : ∀ c ∈ places, c.isDigit = true) (hne : whole ≠ []) :
    numeral? (whole ++ '.' :: places) =
      some ⟨digitsValue (whole ++ places), -(places.length : Int)⟩ := by
  have hspan := span_isDigit ('.' :: places) hwhole (by simp)
  have hfraction : fraction ('.' :: places) = (places, []) := by
    have hspan' := span_isDigit [] hplaces (by simp)
    rw [List.append_nil] at hspan'
    exact hspan'
  rw [numeral?, hspan]
  dsimp only
  rw [hfraction]
  simp [exponent?, hne]

namespace Numeral

theorem positionalText_zero (x : Numeral) :
    x.positionalText 0 =
      if x.fractionDigits = [] then x.wholeDigits
      else x.wholeDigits ++ '.' :: x.fractionDigits := by
  simp [positionalText]

theorem wholeDigits_eq_digits (x : Numeral) : ∃ n, x.wholeDigits = digits n := by
  rw [wholeDigits]
  split
  · exact ⟨_, rfl⟩
  · exact ⟨_, rfl⟩

theorem isDigit_of_mem_fractionDigits (x : Numeral) {c : Char} (h : c ∈ x.fractionDigits) :
    c.isDigit = true := by
  rw [fractionDigits] at h
  split at h
  · cases h
  · exact isDigit_of_mem_padLeft (fun _ => isDigit_of_mem_digits) h

/-- Text without an exponent is read as a numeral of the same value. -/
theorem numeral?_positionalText (x : Numeral) :
    ∃ y, numeral? (x.positionalText 0) = some y ∧ y.nearest = x.nearest := by
  obtain ⟨coefficient, exponent⟩ := x
  cases exponent with
  | ofNat e =>
    refine ⟨⟨coefficient * 10 ^ e, 0⟩, ?_, ?_⟩
    · have hread := numeral?_whole (digits (coefficient * 10 ^ e))
        (fun _ => isDigit_of_mem_digits) Nat.toDigits_ne_nil
      rw [digitsValue_digits] at hread
      exact hread
    · have hwhole := nearest_eq ⟨coefficient * 10 ^ e, 0⟩ (a := 0) (b := 0) rfl
      have hscaled := nearest_eq ⟨coefficient, Int.ofNat e⟩ (a := e) (b := 0) (by simp)
      rw [hwhole, hscaled, pow_zero, Nat.mul_one]
  | negSucc e =>
    refine ⟨⟨coefficient, Int.negSucc e⟩, ?_, rfl⟩
    have hpos : 0 < 10 ^ (e + 1) := Nat.pow_pos (Nat.succ_pos 9)
    have hwhole : wholeDigits ⟨coefficient, Int.negSucc e⟩ =
        digits (coefficient / 10 ^ (e + 1)) := rfl
    have hfraction : fractionDigits ⟨coefficient, Int.negSucc e⟩ =
        padLeft (e + 1) (digits (coefficient % 10 ^ (e + 1))) := rfl
    have hlength : (fractionDigits ⟨coefficient, Int.negSucc e⟩).length = e + 1 :=
      length_padLeft_digits (Nat.mod_lt coefficient hpos) (Nat.succ_pos e)
    have hne : fractionDigits ⟨coefficient, Int.negSucc e⟩ ≠ [] := by
      intro hnil
      rw [hnil] at hlength
      cases hlength
    have hread := numeral?_point (wholeDigits ⟨coefficient, Int.negSucc e⟩)
      (fractionDigits ⟨coefficient, Int.negSucc e⟩) (fun _ => isDigit_of_mem_digits)
      (fun _ => isDigit_of_mem_fractionDigits _) Nat.toDigits_ne_nil
    rw [positionalText_zero, if_neg hne, hread, digitsValue_append, hlength, hwhole, hfraction,
      digitsValue_padLeft, digitsValue_digits, digitsValue_digits, Nat.div_add_mod]
    rfl

theorem positionalText_eq_cons (x : Numeral) :
    ∃ c rest, x.positionalText 0 = c :: rest ∧ c.isDigit = true := by
  obtain ⟨n, hwhole⟩ := x.wholeDigits_eq_digits
  obtain ⟨c, rest, hdigits⟩ := List.exists_cons_of_ne_nil (Nat.toDigits_ne_nil (n := n) (b := 10))
  have hmem : c ∈ digits n := by
    rw [digits, hdigits]
    exact List.mem_cons_self
  have hc : c.isDigit = true := isDigit_of_mem_digits hmem
  rw [positionalText_zero, hwhole, digits, hdigits]
  split
  · exact ⟨c, rest, rfl, hc⟩
  · exact ⟨c, rest ++ '.' :: x.fractionDigits, rfl, hc⟩

theorem mem_positionalText (x : Numeral) {c : Char} (h : c ∈ x.positionalText 0) :
    c.isDigit = true ∨ c = '.' := by
  obtain ⟨n, hwhole⟩ := x.wholeDigits_eq_digits
  rw [positionalText_zero, hwhole] at h
  split at h
  · exact Or.inl (isDigit_of_mem_digits h)
  · rcases List.mem_append.mp h with hdigit | hrest
    · exact Or.inl (isDigit_of_mem_digits hdigit)
    · rcases List.mem_cons.mp hrest with hpoint | hfraction
      · exact Or.inr hpoint
      · exact Or.inl (x.isDigit_of_mem_fractionDigits hfraction)

end Numeral

/-! ### Doubles in text -/

theorem ne_of_isDigit {c d : Char} (hc : c.isDigit = true) (hd : d.isDigit = false) : c ≠ d := by
  intro h
  rw [h, hd] at hc
  cases hc

theorem toLower_of_isDigit {c : Char} (h : c.isDigit = true) : c.toLower = c := by
  have hlow : ¬ (c.val ≥ 'A'.val ∧ c.val ≤ 'Z'.val) := by
    simp only [Char.isDigit, Bool.and_eq_true, decide_eq_true_eq] at h
    intro hupper
    have hle := UInt32.le_trans hupper.1 h.2
    revert hle
    decide
  rw [Char.toLower, dif_neg hlow]

theorem signed_of_isDigit {c : Char} (h : c.isDigit = true) (rest : List Char) :
    signed (c :: rest) = (false, c :: rest) := by
  have hminus : c ≠ '-' := ne_of_isDigit h rfl
  have hplus : c ≠ '+' := ne_of_isDigit h rfl
  rw [signed]
  · simpa using hminus
  · simpa using hplus

theorem magnitude?_of_isDigit {c : Char} (h : c.isDigit = true) (rest : List Char) :
    magnitude? (c :: rest) = (numeral? (c :: rest)).map Numeral.nearest := by
  have hother : ∀ (word : String) d ds, word.toList = d :: ds → d.isDigit = false →
      String.ofList ((c :: rest).map Char.toLower) ≠ word := by
    intro word d ds hword hd heq
    have hlists := congrArg String.toList heq
    rw [String.toList_ofList, hword, List.map_cons, toLower_of_isDigit h] at hlists
    exact ne_of_isDigit h hd (List.cons.inj hlists).1
  have hinf := hother "inf" 'i' _ rfl rfl
  have hinfinity := hother "infinity" 'i' _ rfl rfl
  have hnan := hother "nan" 'n' _ rfl rfl
  rw [magnitude?, if_neg (not_or.mpr ⟨hinf, hinfinity⟩), if_neg hnan]

theorem read?_sign_append {negative : Prop} [Decidable negative] {text : List Char}
    (h : signed text = (false, text)) :
    read? ((if negative then "-" else "") ++ String.ofList text) =
      (magnitude? text).map (ofMagnitude (decide negative)) := by
  by_cases hnegative : negative
  · have hlist : ("-" ++ String.ofList text).toList = '-' :: text := by simp
    rw [if_pos hnegative, read?, hlist, decide_eq_true hnegative]
    rfl
  · rw [if_neg hnegative, String.empty_append, read?, String.toList_ofList, h,
      decide_eq_false hnegative]

/-! ### Doubles and their bits -/

theorem ofMagnitude_bits (x : Float) :
    ofMagnitude (decide (Nat.pow 2 63 ≤ x.toBits.toNat)) (x.toBits.toNat % Nat.pow 2 63) = x := by
  have hlt : x.toBits.toNat < 2 ^ 64 := x.toBits.toNat_lt
  have hbits : x.toBits.toNat % Nat.pow 2 63 +
      (if decide (Nat.pow 2 63 ≤ x.toBits.toNat) = true then Nat.pow 2 63 else 0) =
      x.toBits.toNat := by
    simp only [Nat.pow_eq, decide_eq_true_eq]
    split <;> omega
  rw [ofMagnitude, hbits, UInt64.ofNat_toNat, Float.ofBits_toBits]

open Float.Model in
/-- There is one NaN. -/
theorem toBits_of_nan {x : Float} (h : infinityBits < x.toBits.toNat % Nat.pow 2 63) :
    x.toBits.toNat = nanBits := by
  simp only [infinityBits, Nat.pow_eq] at h
  have hpacked : x.toBits.toBitVec = UnpackedFloat.packedNaN .binary64 := by
    refine x.toModel.valid.eq_packedNaN ?_ ?_
    · have hexponent : x.toBits.toNat / 2 ^ 52 % 2 ^ 11 = 2047 := by omega
      rw [UnpackedFloat.unpackExponent_def]
      apply BitVec.eq_of_toNat_eq
      rw [BitVec.extractLsb'_toNat, Nat.shiftRight_eq_div_pow]
      exact hexponent
    · have hmantissa : x.toBits.toNat / 2 ^ 0 % 2 ^ 52 ≠ 0 := by omega
      rw [UnpackedFloat.unpackMantissa_def]
      intro hzero
      have hzero' := congrArg BitVec.toNat hzero
      rw [BitVec.extractLsb'_toNat, Nat.shiftRight_eq_div_pow] at hzero'
      exact hmantissa hzero'
  have hnan : (UnpackedFloat.packedNaN .binary64).toNat = nanBits := by decide
  rw [← UInt64.toNat_toBitVec, hpacked, hnan]

/-! ### Writing and reading -/

theorem read?_nan : read? "NaN" = some (ofMagnitude false nanBits) := rfl

theorem numeralText_plain (x : Numeral) : Layout.plain.numeralText x = x.positionalText 0 := rfl

/-- A double that is written plainly is read back, to the bit. -/
theorem read?_plain_write (x : Float) : read? (Layout.plain.write x) = some x := by
  have hbits := ofMagnitude_bits x
  rw [Layout.write]
  by_cases hnan : infinityBits < x.toBits.toNat % Nat.pow 2 63
  · rw [if_pos hnan, read?_nan]
    rw [toBits_of_nan hnan] at hbits
    exact congrArg some hbits
  · rw [if_neg hnan]
    by_cases hinf : x.toBits.toNat % Nat.pow 2 63 = infinityBits
    · have hread : magnitude? ['i', 'n', 'f'] = some infinityBits := rfl
      rw [if_pos hinf, show "inf" = String.ofList ['i', 'n', 'f'] from rfl, read?_sign_append rfl,
        hread, Option.map_some, ← hinf, hbits]
    · have hmagnitude : x.toBits.toNat % Nat.pow 2 63 ≤ infinityBits := Nat.le_of_not_lt hnan
      have hshortest := nearest_shortest hmagnitude
      obtain ⟨c, rest, htext, hc⟩ :=
        (shortest (x.toBits.toNat % Nat.pow 2 63)).positionalText_eq_cons
      obtain ⟨y, hread, hnearest⟩ :=
        (shortest (x.toBits.toNat % Nat.pow 2 63)).numeral?_positionalText
      rw [htext] at hread
      rw [if_neg hinf, numeralText_plain, htext, read?_sign_append (signed_of_isDigit hc rest),
        magnitude?_of_isDigit hc rest, hread, Option.map_some, Option.map_some, hnearest,
        hshortest, hbits]

/-- Of two shortest numerals that are equally near, the larger one is written. -/
example : Layout.plain.write (1 / 33554432) = "0.000000029802322387695313" ∧
    read? "0.000000029802322387695313" = some (1 / 33554432) := by decide +kernel

/-- The zeros are told apart. -/
example : Layout.plain.write (-0.0) = "-0" ∧ read? "-0" = some (-0.0) ∧ read? "0" ≠ some (-0.0) := by
  decide +kernel

theorem plain_write_ne_empty (x : Float) : Layout.plain.write x ≠ "" := by
  intro h
  have hread := read?_plain_write x
  rw [h] at hread
  cases hread

/-- The characters of plainly written numbers. -/
def isPlain (c : Char) : Bool := c.isAlphanum || c == '-' || c == '.'

theorem all_isPlain_positionalText (x : Numeral) : (x.positionalText 0).all isPlain = true := by
  rw [List.all_eq_true]
  intro c hc
  rcases x.mem_positionalText hc with hdigit | hpoint
  · simp [isPlain, Char.isAlphanum, hdigit]
  · rw [hpoint]
    rfl

/-- What is written plainly is one word without commas. -/
theorem all_isPlain_plain_write (x : Float) : (Layout.plain.write x).toList.all isPlain = true := by
  have hsign : (if Nat.pow 2 63 ≤ x.toBits.toNat then "-" else "").toList.all isPlain = true := by
    by_cases hnegative : Nat.pow 2 63 ≤ x.toBits.toNat
    · rw [if_pos hnegative]
      rfl
    · rw [if_neg hnegative]
      rfl
  rw [Layout.write]
  by_cases hnan : infinityBits < x.toBits.toNat % Nat.pow 2 63
  · rw [if_pos hnan]
    rfl
  · rw [if_neg hnan]
    by_cases hinf : x.toBits.toNat % Nat.pow 2 63 = infinityBits
    · rw [if_pos hinf, String.toList_append, List.all_append, hsign]
      rfl
    · rw [if_neg hinf, String.toList_append, List.all_append, hsign, numeralText_plain,
        String.toList_ofList, all_isPlain_positionalText]
      rfl

end ReversePolish.Decimal

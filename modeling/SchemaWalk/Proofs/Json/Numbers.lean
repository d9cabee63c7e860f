import SchemaWalk.Json.Printer
import SchemaWalk.Proofs.Decimal.Numeral
import SchemaWalk.Proofs.Decimal.Shortest

/-! # Written numbers

A whole number is written as its digits, a double as its shortest digits with the point somewhere
among them, or with a power of ten behind them. Whatever is chosen, the text is a numeral for the
number that the digits stand for, and of finite size. -/

namespace SchemaWalk

open Decimal

/-! ## Digits -/

theorem allDigits_zeros (k : ℕ) : AllDigits (List.replicate k '0') := by
  intro d hd
  obtain rfl := List.eq_of_mem_replicate hd
  rfl

theorem allDigits_toDigits (n : ℕ) : AllDigits (Nat.toDigits 10 n) := by
  intro d hd
  exact Nat.isDigit_of_mem_toDigits (by decide) (by decide) hd

theorem ofDigitChars_zeros_append (k : ℕ) (ds : List Char) :
    Nat.ofDigitChars 10 (List.replicate k '0' ++ ds) 0 = Nat.ofDigitChars 10 ds 0 := by
  rw [Nat.ofDigitChars_append, Nat.ofDigitChars_replicate_zero, Nat.mul_zero]

theorem ofDigitChars_append_zeros (ds : List Char) (k : ℕ) :
    Nat.ofDigitChars 10 (ds ++ List.replicate k '0') 0 = 10 ^ k * Nat.ofDigitChars 10 ds 0 := by
  rw [Nat.ofDigitChars_append, Nat.ofDigitChars_replicate_zero]

theorem magnitudeText_digits {ds : List Char} (h : AllDigits ds) (hne : ds ≠ []) :
    MagnitudeText ds (Nat.ofDigitChars 10 ds 0) := by
  have htext := MagnitudeText.mk h .none (by simpa using hne) .none
  simpa using htext

/-! ## Layouts -/

section Layouts

variable {ds : List Char}

theorem magnitudeText_front (h : AllDigits ds) (k : ℕ) :
    MagnitudeText ('0' :: '.' :: (List.replicate k '0' ++ ds))
      (Nat.ofDigitChars 10 ds 0 * 10 ^ (-(k : ℤ) - ds.length)) := by
  have hfraction := (allDigits_zeros k).append h
  have htext := MagnitudeText.mk (allDigits_zeros 1) (.point hfraction) (by simp) .none
  have hdigits : Nat.ofDigitChars 10 (List.replicate 1 '0' ++ (List.replicate k '0' ++ ds)) 0 =
      Nat.ofDigitChars 10 ds 0 := by
    rw [ofDigitChars_zeros_append, ofDigitChars_zeros_append]
  have hpower : (0 : ℤ) - (List.replicate k '0' ++ ds).length = -(k : ℤ) - ds.length := by
    rw [List.length_append, List.length_replicate]
    omega
  rw [hdigits, hpower, List.append_nil] at htext
  exact htext

theorem magnitudeText_among (h : AllDigits ds) (hne : ds ≠ []) {k : ℕ} (hk : k ≤ ds.length) :
    MagnitudeText (ds.take k ++ '.' :: ds.drop k)
      (Nat.ofDigitChars 10 ds 0 * 10 ^ ((k : ℤ) - ds.length)) := by
  have hwhole : AllDigits (ds.take k) := fun d hd => h d (List.mem_of_mem_take hd)
  have hfraction : AllDigits (ds.drop k) := fun d hd => h d (List.mem_of_mem_drop hd)
  have hdigits : ds.take k ++ ds.drop k ≠ [] := by
    rw [List.take_append_drop]
    exact hne
  have htext := MagnitudeText.mk hwhole (.point hfraction) hdigits .none
  have hpower : (0 : ℤ) - (ds.drop k).length = k - ds.length := by
    rw [List.length_drop]
    omega
  rw [List.take_append_drop, hpower, List.append_nil] at htext
  exact htext

theorem magnitudeText_behind (h : AllDigits ds) (k : ℕ) :
    MagnitudeText (ds ++ List.replicate k '0' ++ ['.', '0'])
      (Nat.ofDigitChars 10 ds 0 * 10 ^ k) := by
  have hwhole := h.append (allDigits_zeros k)
  have htext := MagnitudeText.mk hwhole (.point (allDigits_zeros 1)) (by simp) .none
  have hvalue : (Nat.ofDigitChars 10 (ds ++ List.replicate k '0' ++ List.replicate 1 '0') 0 : ℚ) *
      10 ^ ((0 : ℤ) - (List.replicate 1 '0').length) = Nat.ofDigitChars 10 ds 0 * 10 ^ k := by
    rw [ofDigitChars_append_zeros, ofDigitChars_append_zeros, List.length_replicate]
    push_cast
    norm_num
    ring
  rw [hvalue, List.append_nil] at htext
  exact htext

/-- The point is put in front of the digits, among them or behind them; zeros fill the room
between. -/
theorem magnitudeText_placePoint (h : AllDigits ds) (hne : ds ≠ []) (point : ℤ) :
    MagnitudeText (placePoint ds point)
      (Nat.ofDigitChars 10 ds 0 * 10 ^ (point - ds.length)) := by
  rw [placePoint]
  by_cases hfront : point ≤ 0
  · rw [if_pos hfront]
    have hpoint : point = -((-point).toNat : ℤ) := by omega
    have htext := magnitudeText_front h (-point).toNat
    rwa [← hpoint] at htext
  rw [if_neg hfront]
  by_cases hamong : point < ds.length
  · rw [if_pos hamong]
    have hpoint : (point.toNat : ℤ) = point := by omega
    have htext := magnitudeText_among h hne (by omega : point.toNat ≤ ds.length)
    rwa [hpoint] at htext
  · have hpower : point - ds.length = (point.toNat - ds.length : ℕ) := by omega
    rw [if_neg hamong, hpower, zpow_natCast]
    exact magnitudeText_behind h (point.toNat - ds.length)

theorem magnitudeText_scientific (h : AllDigits ds) (hne : ds ≠ []) (power : ℤ) :
    MagnitudeText (scientific ds power)
      (Nat.ofDigitChars 10 ds 0 * 10 ^ (power + 1 - ds.length)) := by
  have hwhole : AllDigits (ds.take 1) := fun d hd => h d (List.mem_of_mem_take hd)
  have hfraction : FractionText (if ds.length ≤ 1 then [] else '.' :: ds.drop 1) (ds.drop 1) := by
    split
    · next hshort =>
      rw [List.drop_eq_nil_of_le hshort]
      exact .none
    · exact .point fun d hd => h d (List.mem_of_mem_drop hd)
  have hpower : PowerText ('e' :: (if power < 0 then '-' else '+') :: Nat.toDigits 10 power.natAbs)
      power := by
    have hdigits := allDigits_toDigits power.natAbs
    split
    · next hneg =>
      have htext := PowerText.power (.inl rfl) .minus Nat.toDigits_ne_nil hdigits
      rw [Nat.ofDigitChars_ten_toDigits, show -1 * (power.natAbs : ℤ) = power by omega] at htext
      exact htext
    · next hpos =>
      have htext := PowerText.power (.inl rfl) .plus Nat.toDigits_ne_nil hdigits
      rw [Nat.ofDigitChars_ten_toDigits, show 1 * (power.natAbs : ℤ) = power by omega] at htext
      exact htext
  have hdigits : ds.take 1 ++ ds.drop 1 ≠ [] := by
    rw [List.take_append_drop]
    exact hne
  have htext := MagnitudeText.mk hwhole hfraction hdigits hpower
  have hplace : power - (ds.drop 1).length = power + 1 - ds.length := by
    have hlength := List.length_pos_of_ne_nil hne
    rw [List.length_drop]
    omega
  rw [List.take_append_drop, hplace, ← List.append_assoc] at htext
  exact htext

end Layouts

/-! ## Numbers -/

theorem denotes_toString (value : ℤ) : Denotes (toString value).toList value := by
  cases value with
  | ofNat n =>
    have htext := Denotes.mk .none
      (magnitudeText_digits (allDigits_toDigits n) Nat.toDigits_ne_nil)
    rw [Nat.ofDigitChars_ten_toDigits] at htext
    simpa [toString, Int.repr] using htext
  | negSucc n =>
    have htext := Denotes.mk .minus
      (magnitudeText_digits (allDigits_toDigits (n + 1)) Nat.toDigits_ne_nil)
    rw [Nat.ofDigitChars_ten_toDigits] at htext
    simpa [toString, Int.repr, Int.cast_negSucc] using htext

/-- The magnitude that is written for a double. -/
def writtenMagnitude (x : Binary64) : ℚ := if x.isZero then 0 else x.shortest.value

theorem denotes_renderFloat (x : Binary64) :
    Denotes (renderFloat x) (signFactor x.negative * writtenMagnitude x) := by
  have hsign : SignText (if x.negative then ['-'] else []) (signFactor x.negative) := by
    cases x.negative with
    | false => exact .none
    | true => exact .minus
  unfold renderFloat writtenMagnitude
  by_cases hzero : x.isZero = true
  · have hdigits : (Nat.ofDigitChars 10 (List.replicate 1 '0' ++ List.replicate 1 '0') 0 : ℚ) = 0 :=
      Nat.cast_zero
    have htext := MagnitudeText.mk (allDigits_zeros 1) (.point (allDigits_zeros 1)) (by simp) .none
    rw [hdigits, zero_mul] at htext
    simp only [hzero, if_true]
    exact .mk hsign htext
  · have hdigits := allDigits_toDigits x.shortest.digits
    have hvalue : (Nat.ofDigitChars 10 (Nat.toDigits 10 x.shortest.digits) 0 : ℚ) *
        10 ^ x.shortest.power = x.shortest.value := by
      rw [Nat.ofDigitChars_ten_toDigits, Digits.value]
    simp only [hzero, Bool.false_eq_true, if_false]
    refine .mk hsign ?_
    split
    · have htext := magnitudeText_placePoint hdigits Nat.toDigits_ne_nil
        ((Nat.toDigits 10 x.shortest.digits).length + x.shortest.power)
      rw [add_sub_cancel_left, hvalue] at htext
      exact htext
    · have htext := magnitudeText_scientific hdigits Nat.toDigits_ne_nil
        ((Nat.toDigits 10 x.shortest.digits).length + x.shortest.power - 1)
      rw [sub_add_cancel, add_sub_cancel_left, hvalue] at htext
      exact htext

theorem writtenMagnitude_bounds (x : Binary64) :
    0 ≤ writtenMagnitude x ∧ writtenMagnitude x < 2 ^ 1024 - 2 ^ 970 := by
  unfold writtenMagnitude
  split
  · refine ⟨le_rfl, ?_⟩
    rw [Binary64.two_pow_bound]
    exact mul_pos (by norm_num) (pow_pos (by norm_num) 969)
  · next h =>
    have hvalue : 0 ≤ x.shortest.value :=
      mul_nonneg (Nat.cast_nonneg _) (zpow_nonneg (by norm_num) _)
    exact ⟨hvalue, (Binary64.covers_shortest (Bool.eq_false_iff.mpr h)).lt_bound⟩

end SchemaWalk

import Mathlib.Algebra.Order.Field.Basic
import Mathlib.Algebra.Order.Field.Rat
import Mathlib.Tactic.Linarith
import Mathlib.Tactic.NormNum
import Mathlib.Tactic.Positivity
import Mathlib.Tactic.Ring
import SchemaWalk.Decimal.Shortest

/-! # Shortest digits round back

The values that round to a double make up an interval around it, and the digits that are found for
a double lie in its interval, on whichever grid they are found. All of these intervals are below
the bound from which on a value rounds to infinity. -/

namespace SchemaWalk.Decimal

def Digits.value (d : Digits) : ℚ := d.digits * 10 ^ d.power

namespace Binary64

/-! ## The interval of a double -/

/-- How far the interval reaches down, in quarters of a unit of the mantissa. -/
def reach (x : Binary64) : Nat :=
  if x.mantissa = Nat.pow 2 52 ∧ -1074 < x.exponent then 1 else 2

def lowest (x : Binary64) : ℚ := (4 * x.mantissa - x.reach : ℕ) * 2 ^ (x.exponent - 2)

def highest (x : Binary64) : ℚ := (4 * x.mantissa + 2 : ℕ) * 2 ^ (x.exponent - 2)

/-- A magnitude that rounds to that of the double, a tie going to the even mantissa. -/
structure Covers (x : Binary64) (q : ℚ) : Prop where
  low : x.lowest ≤ q
  high : q ≤ x.highest
  ends : x.mantissa % 2 ≠ 0 → q ≠ x.lowest ∧ q ≠ x.highest

theorem two_pow_bound : (2 : ℚ) ^ 1024 - 2 ^ 970 = (2 ^ 55 - 2) * 2 ^ 969 := by
  have hpow : ∀ k, (2 : ℚ) ^ (k + 55) - 2 ^ (k + 1) = (2 ^ 55 - 2) * 2 ^ k := by
    intro k
    ring
  exact hpow 969

theorem highest_le (x : Binary64) : x.highest ≤ (4 * x.mantissa + 2) * 2 ^ 969 := by
  have hmantissa : (0 : ℚ) ≤ 4 * x.mantissa + 2 := by positivity
  have hexponent : (2 : ℚ) ^ (x.exponent - 2) ≤ 2 ^ 969 := by
    rw [← zpow_natCast]
    apply zpow_le_zpow_right₀ (by norm_num)
    have := x.exponent_le
    omega
  rw [highest]
  push_cast
  exact mul_le_mul_of_nonneg_left hexponent hmantissa

/-- Nothing that rounds to a double rounds to infinity. -/
theorem Covers.lt_bound {x : Binary64} {q : ℚ} (h : x.Covers q) : q < 2 ^ 1024 - 2 ^ 970 := by
  have hunit : (0 : ℚ) < 2 ^ 969 := by positivity
  have hmantissa : x.mantissa < 2 ^ 53 := x.mantissa_lt
  rw [two_pow_bound]
  by_cases heven : x.mantissa % 2 = 0
  · have hlt : x.mantissa + 2 ≤ 2 ^ 53 := by omega
    have hcast : (x.mantissa : ℚ) + 2 ≤ 2 ^ 53 := by exact_mod_cast hlt
    calc q ≤ (4 * x.mantissa + 2) * 2 ^ 969 := h.high.trans x.highest_le
      _ < (2 ^ 55 - 2) * 2 ^ 969 := mul_lt_mul_of_pos_right (by linarith) hunit
  · have hle : x.mantissa + 1 ≤ 2 ^ 53 := hmantissa
    have hcast : (x.mantissa : ℚ) + 1 ≤ 2 ^ 53 := by exact_mod_cast hle
    calc q < x.highest := lt_of_le_of_ne h.high (h.ends heven).2
      _ ≤ (4 * x.mantissa + 2) * 2 ^ 969 := x.highest_le
      _ ≤ (2 ^ 55 - 2) * 2 ^ 969 := mul_le_mul_of_nonneg_right (by linarith) hunit.le

/-! ## Grids -/

def gridUnit (x : Binary64) (power : ℤ) : ℕ :=
  Nat.pow 2 (x.exponent - 2).toNat * Nat.pow 10 (-power).toNat

def gridSpacing (x : Binary64) (power : ℤ) : ℕ :=
  Nat.pow 10 power.toNat * Nat.pow 2 (-(x.exponent - 2)).toNat

theorem grid_eq (x : Binary64) (power : ℤ) :
    x.grid power = ⟨(4 * x.mantissa - x.reach) * x.gridUnit power,
      4 * x.mantissa * x.gridUnit power, (4 * x.mantissa + 2) * x.gridUnit power,
      x.mantissa % 2 = 0, x.gridSpacing power⟩ := rfl

theorem pow_toNat {b : ℚ} (hb : b ≠ 0) (k : ℤ) : b ^ k.toNat = b ^ k * b ^ (-k).toNat := by
  cases k with
  | ofNat n => simp
  | negSucc n =>
    have hinverse : b ^ (Int.negSucc n) * b ^ (n + 1) = 1 := by
      rw [zpow_negSucc, inv_mul_cancel₀ (pow_ne_zero _ hb)]
    simpa using hinverse.symm

/-- What the lengths on a grid are multiplied with to be whole numbers. -/
def gridScale (x : Binary64) (power : ℤ) : ℚ :=
  2 ^ (-(x.exponent - 2)).toNat * 10 ^ (-power).toNat

theorem cast_gridUnit (x : Binary64) (power : ℤ) :
    (x.gridUnit power : ℚ) = 2 ^ (x.exponent - 2) * x.gridScale power := by
  rw [gridUnit, gridScale, Nat.pow_eq, Nat.pow_eq]
  push_cast
  rw [pow_toNat (by norm_num) (x.exponent - 2)]
  ring

theorem cast_gridSpacing (x : Binary64) (power : ℤ) :
    (x.gridSpacing power : ℚ) = 10 ^ power * x.gridScale power := by
  rw [gridSpacing, gridScale, Nat.pow_eq, Nat.pow_eq]
  push_cast
  rw [pow_toNat (by norm_num) power]
  ring

/-- Lengths are compared on the grid as they are off it. -/
theorem unit_le_spacing_iff (x : Binary64) (power : ℤ) (a d : ℕ) :
    (a * x.gridUnit power ≤ d * x.gridSpacing power ↔
        (a : ℚ) * 2 ^ (x.exponent - 2) ≤ d * 10 ^ power) ∧
      (d * x.gridSpacing power ≤ a * x.gridUnit power ↔
        (d : ℚ) * 10 ^ power ≤ a * 2 ^ (x.exponent - 2)) := by
  have hscale : 0 < x.gridScale power := by
    unfold gridScale
    positivity
  have hunit : ((a * x.gridUnit power : ℕ) : ℚ) =
      a * 2 ^ (x.exponent - 2) * x.gridScale power := by
    rw [Nat.cast_mul, cast_gridUnit, mul_assoc]
  have hspacing : ((d * x.gridSpacing power : ℕ) : ℚ) = d * 10 ^ power * x.gridScale power := by
    rw [Nat.cast_mul, cast_gridSpacing, mul_assoc]
  constructor
  · rw [← Nat.cast_le (α := ℚ), hunit, hspacing]
    exact mul_le_mul_iff_left₀ hscale
  · rw [← Nat.cast_le (α := ℚ), hunit, hspacing]
    exact mul_le_mul_iff_left₀ hscale

theorem covers_of_holds {x : Binary64} {power : ℤ} {d : ℕ} (h : (x.grid power).holds d = true) :
    x.Covers (Digits.mk d power).value := by
  obtain ⟨hlow, hlow'⟩ := x.unit_le_spacing_iff power (4 * x.mantissa - x.reach) d
  obtain ⟨hhigh, hhigh'⟩ := x.unit_le_spacing_iff power (4 * x.mantissa + 2) d
  rw [grid_eq, Grid.holds] at h
  by_cases heven : x.mantissa % 2 = 0
  · simp only [heven, decide_true, if_true, Bool.and_eq_true, decide_eq_true_eq] at h
    exact ⟨hlow.mp h.1, hhigh'.mp h.2, fun hodd => absurd heven hodd⟩
  · simp only [heven, decide_false, Bool.false_eq_true, if_false, Bool.and_eq_true,
      decide_eq_true_eq] at h
    have hlt := lt_of_not_ge (mt hlow'.mpr (Nat.not_le.mpr h.1))
    have hgt := lt_of_not_ge (mt hhigh.mpr (Nat.not_le.mpr h.2))
    exact ⟨hlt.le, hgt.le, fun _ => ⟨hlt.ne', hgt.ne⟩⟩

end Binary64

theorem Grid.holds_of_nearest {g : Grid} {d : ℕ} (h : g.nearest = some d) : g.holds d = true := by
  simp only [Grid.nearest] at h
  split at h
  · next hbelow =>
    split at h
    · next habove =>
      obtain rfl := Option.some.inj h
      split
      · exact hbelow
      split
      · exact habove
      split
      · exact hbelow
      · exact habove
    · obtain rfl := Option.some.inj h
      exact hbelow
  · split at h
    · next habove =>
      obtain rfl := Option.some.inj h
      exact habove
    · cases h

namespace Binary64

/-! ## The digits of a double -/

theorem value_exactDigits (x : Binary64) :
    x.exactDigits.value = 4 * x.mantissa * 2 ^ (x.exponent - 2) := by
  have hquarter : (4 : ℚ) * 2 ^ (x.exponent - 2) = 2 ^ x.exponent := by
    rw [zpow_sub₀ (by norm_num)]
    norm_num
    ring
  rw [mul_right_comm, hquarter, mul_comm]
  unfold exactDigits Digits.value
  cases x.exponent with
  | ofNat e =>
    simp only [Nat.pow_eq]
    push_cast
    rw [mul_one, Int.ofNat_eq_natCast, zpow_natCast]
  | negSucc e =>
    have hten : (5 : ℚ) ^ (e + 1) * ((10 : ℚ) ^ (e + 1))⁻¹ = ((2 : ℚ) ^ (e + 1))⁻¹ := by
      rw [← div_eq_mul_inv, ← div_pow, ← inv_pow]
      norm_num
    simp only [Nat.pow_eq]
    rw [zpow_negSucc, zpow_neg, zpow_natCast]
    push_cast
    rw [mul_assoc, hten]

theorem covers_exactDigits {x : Binary64} (h : 0 < x.mantissa) : x.Covers x.exactDigits.value := by
  have hunit : (0 : ℚ) < 2 ^ (x.exponent - 2) := zpow_pos (by norm_num) _
  have hreach : 0 < x.reach := by
    unfold reach
    split <;> decide
  have hdown : x.lowest < x.exactDigits.value := by
    rw [value_exactDigits, lowest]
    apply mul_lt_mul_of_pos_right _ hunit
    have hlt : 4 * x.mantissa - x.reach < 4 * x.mantissa := by omega
    exact_mod_cast hlt
  have hup : x.exactDigits.value < x.highest := by
    rw [value_exactDigits, highest]
    apply mul_lt_mul_of_pos_right _ hunit
    push_cast
    linarith
  exact ⟨hdown.le, hup.le, fun _ => ⟨hdown.ne', hup.ne⟩⟩

theorem covers_search {x : Binary64} (h : 0 < x.mantissa) (power : ℤ) (tries : ℕ) :
    x.Covers (x.search power tries).value := by
  induction tries generalizing power with
  | zero => exact covers_exactDigits h
  | succ tries ih =>
    rw [search]
    split
    · next d hd => exact covers_of_holds (Grid.holds_of_nearest hd)
    · exact ih (power - 1)

/-- The shortest digits are those of a value that rounds to the double. -/
theorem covers_shortest {x : Binary64} (h : x.isZero = false) : x.Covers x.shortest.value := by
  apply covers_search
  rw [isZero, beq_eq_false_iff_ne] at h
  omega

end Binary64

end SchemaWalk.Decimal

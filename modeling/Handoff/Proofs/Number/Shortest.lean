import Handoff.Proofs.Number.Interval
import Mathlib.Tactic.FieldSimp
/-!
# What the grid search finds

`Decimal.shortest` tries decimal grids from coarse to fine. Whatever it finds was tested to round to
the number; what has to be shown is that it always finds something. The grid of seventeen digits is
fine enough: its step is at most a part in `10 ^ 16` of the number, which is less than one unit of a
mantissa below `2 ^ 53`.

Result: `shortest_rounds`.
-/
namespace Handoff.Number

open Decimal

/-! ## The size of a number in decimal -/

theorem Exact.magnitude_eq_div (v : Exact) :
    v.magnitude = (v.numerator : ℚ) / v.denominator := by
  unfold magnitude numerator denominator
  rw [zpow_eq_div 2 (by norm_num)]
  push_cast
  ring

theorem pow_length_le {n : ℕ} (pos : 0 < n) : 10 ^ ((Nat.toDigits 10 n).length - 1) ≤ n := by
  by_cases one : (Nat.toDigits 10 n).length - 1 = 0
  · rw [one]
    exact pos
  · by_contra lt
    have short := (Nat.length_toDigits_le_iff (by norm_num) (Nat.pos_of_ne_zero one)).mpr
      (Nat.lt_of_not_le lt)
    omega

section

-- Powers are the ones of `pointOf`; to see that others are the same, Lean would evaluate them.
attribute [local instance (high)] instPowNat

theorem two_pow_le_ten_pow (k : ℕ) : 2 ^ (3 * k) ≤ 10 ^ k := by
  rw [Nat.pow_mul]
  exact Nat.pow_le_pow_left (by norm_num) k

theorem shifted_pos {v : Exact} (hv : v.Canonical) (pos : v.mantissa ≠ 0) (k : ℕ)
    (low : 1074 ≤ 3 * k) : 0 < v.numerator * 10 ^ k / v.denominator := by
  apply Nat.div_pos _ v.denominator_pos
  have den : v.denominator ≤ 10 ^ k := by
    have lowest := hv.lowest
    calc v.denominator ≤ 2 ^ (3 * k) := Nat.pow_le_pow_right (by norm_num) (by omega)
      _ ≤ 10 ^ k := two_pow_le_ten_pow k
  have num : 1 ≤ v.numerator := Nat.mul_pos (Nat.pos_of_ne_zero pos) (Nat.two_pow_pos _)
  calc v.denominator ≤ 1 * 10 ^ k := by omega
    _ ≤ v.numerator * 10 ^ k := Nat.mul_le_mul_right _ num

theorem shifted_le (v : Exact) (k : ℕ) :
    ((v.numerator * 10 ^ k / v.denominator : ℕ) : ℚ) ≤ v.magnitude * 10 ^ k := by
  have den : (0 : ℚ) < v.denominator := by exact_mod_cast v.denominator_pos
  rw [v.magnitude_eq_div, div_mul_eq_mul_div, le_div_iff₀ den]
  exact_mod_cast Nat.div_mul_le_self _ _

end

theorem pow_length_sub_le {n : ℕ} {q : ℚ} (k : ℕ) (pos : 0 < n) (h : (n : ℚ) ≤ q * 10 ^ k) :
    (10 : ℚ) ^ (((Nat.toDigits 10 n).length : ℤ) - k - 1) ≤ q := by
  have long := pow_length_le pos
  have some : 0 < (Nat.toDigits 10 n).length := Nat.length_toDigits_pos
  have shift : ((Nat.toDigits 10 n).length : ℤ) - k - 1 =
      (((Nat.toDigits 10 n).length - 1 : ℕ) : ℤ) - (k : ℕ) := by omega
  rw [shift, zpow_sub₀ (by norm_num), zpow_natCast, zpow_natCast, div_le_iff₀ (by positivity)]
  calc (10 : ℚ) ^ ((Nat.toDigits 10 n).length - 1) ≤ (n : ℚ) := by exact_mod_cast long
    _ ≤ q * 10 ^ k := h

theorem pow_pointOf_le {v : Exact} (hv : v.Canonical) (pos : v.mantissa ≠ 0) :
    (10 : ℚ) ^ (pointOf v - 1) ≤ v.magnitude := by
  unfold pointOf
  exact pow_length_sub_le 400 (shifted_pos hv pos 400 (by norm_num)) (shifted_le v 400)

/-! ## One grid -/

def gridBelow (n : Neighbourhood) (e : ℤ) : Decimal :=
  ⟨n.value * up (-e) / (n.denominator * up e), e⟩

def gridAbove (n : Neighbourhood) (e : ℤ) : Decimal :=
  ⟨n.value * up (-e) / (n.denominator * up e) + 1, e⟩

theorem isInside_of_onGrid? {n : Neighbourhood} {e : ℤ} {d : Decimal} (h : onGrid? n e = some d) :
    isInside n d = true := by
  unfold onGrid? at h
  dsimp only at h
  split at h
  · next below above =>
    rw [Bool.and_eq_true] at below
    split at h
    · cases h; exact below.1
    · split at h
      · cases h; exact above
      · split at h
        · cases h; exact below.1
        · cases h; exact above
  · next below above =>
    rw [Bool.and_eq_true] at below
    cases h
    exact below.1
  · next above => cases h; exact above
  · cases h

theorem onGrid?_ne_none {n : Neighbourhood} {e : ℤ}
    (h : isInside n (gridBelow n e) = true ∧ (gridBelow n e).digits ≠ 0 ∨
      isInside n (gridAbove n e) = true) : onGrid? n e ≠ none := by
  intro none
  unfold onGrid? at none
  dsimp only at none
  split at none
  · split at none
    · cases none
    · split at none
      · cases none
      · split at none <;> cases none
  · cases none
  · cases none
  · next below above =>
    rcases h with ⟨inside, digits⟩ | inside
    · rw [Bool.and_eq_false_iff] at below
      rcases below with off | zero
      · exact Bool.noConfusion (off.symm.trans inside)
      · exact digits (by rwa [bne_eq_false_iff_eq] at zero)
    · exact Bool.noConfusion (above.symm.trans inside)

theorem grid_bounds (v : Exact) (e : ℤ) :
    (gridBelow v.neighbourhood e).value ≤ v.magnitude ∧
      v.magnitude < (gridBelow v.neighbourhood e).value + 10 ^ e ∧
      (gridAbove v.neighbourhood e).value = (gridBelow v.neighbourhood e).value + 10 ^ e := by
  have step : (0 : ℚ) < 10 ^ e := by positivity
  have den := v.denominator_neighbourhood_pos
  have upe := up_pos e
  have upm := up_pos (-e)
  have ratio : v.magnitude / 10 ^ e =
      ((v.neighbourhood.value * up (-e) : ℕ) : ℚ) / ((v.neighbourhood.denominator * up e : ℕ) : ℚ) := by
    rw [← v.value_div_denominator, zpow_eq_div 10 (by norm_num)]
    unfold up
    push_cast
    field_simp
  have pos : 0 < v.neighbourhood.denominator * up e :=
    Nat.mul_pos (by exact_mod_cast den) (by exact_mod_cast upe)
  have posQ : (0 : ℚ) < ((v.neighbourhood.denominator * up e : ℕ) : ℚ) := by exact_mod_cast pos
  refine ⟨?_, ?_, ?_⟩
  · rw [gridBelow, value, ← le_div_iff₀ step, ratio, le_div_iff₀ posQ]
    exact_mod_cast Nat.div_mul_le_self _ _
  · rw [gridBelow, value, ← add_one_mul, ← div_lt_iff₀ step, ratio, div_lt_iff₀ posQ]
    have lt := Nat.lt_div_mul_add (a := v.neighbourhood.value * up (-e)) pos
    rw [← Nat.succ_mul] at lt
    exact_mod_cast lt
  · rw [gridAbove, gridBelow, value, value]
    push_cast
    ring

/-! ## Seventeen digits -/

section

variable {v : Exact} {e : ℤ} (fine : (10 : ℚ) ^ e * 10 ^ 16 ≤ v.magnitude)
include fine

/-- Up to `2 ^ 52` units the step is less than half a unit, so the point above is near enough. -/
theorem rounds_gridAbove (small : v.mantissa ≤ 2 ^ 52) (pos : v.mantissa ≠ 0) :
    v.Rounds (gridAbove v.neighbourhood e).value := by
  obtain ⟨below, above, next⟩ := grid_bounds v e
  have unit : (0 : ℚ) < 2 ^ (v.exponent - 2) := by positivity
  have gap : (0 : ℚ) ≤ v.gapBelow * 2 ^ (v.exponent - 2) := by positivity
  have short : (10 : ℚ) ^ e < 2 * 2 ^ (v.exponent - 2) := by
    have size := v.magnitude_eq
    have bounded : (v.mantissa : ℚ) ≤ 2 ^ 52 := by exact_mod_cast small
    push_cast at size
    nlinarith
  have low := Exact.lowEnd_eq pos
  have high := v.highEnd_eq
  exact Exact.rounds_of_lt (by linarith) (by linarith)

/-- Above that the step is less than a unit, so one of the two points is near enough. -/
theorem rounds_grid (hv : v.Canonical) (large : 2 ^ 52 < v.mantissa) :
    v.Rounds (gridBelow v.neighbourhood e).value ∧ (gridBelow v.neighbourhood e).digits ≠ 0 ∨
      v.Rounds (gridAbove v.neighbourhood e).value := by
  obtain ⟨below, above, next⟩ := grid_bounds v e
  have unit : (0 : ℚ) < 2 ^ (v.exponent - 2) := by positivity
  have size := v.magnitude_eq
  push_cast at size
  have short : (10 : ℚ) ^ e < 4 * 2 ^ (v.exponent - 2) := by
    have bounded : (v.mantissa : ℚ) ≤ 2 ^ 53 := by exact_mod_cast hv.bounded.le
    nlinarith
  have low := Exact.lowEnd_eq (v := v) (by omega)
  have high := v.highEnd_eq
  have two : v.gapBelow = 2 := if_neg (by omega)
  rw [two] at low
  push_cast at low
  by_cases near : v.lowEnd < (gridBelow v.neighbourhood e).value
  · left
    refine ⟨Exact.rounds_of_lt near (by linarith), ?_⟩
    intro zero
    have : (gridBelow v.neighbourhood e).value = 0 := by simp [value, zero]
    have : (1 : ℚ) ≤ v.mantissa := by exact_mod_cast (show 1 ≤ v.mantissa by omega)
    have : (0 : ℚ) < 10 ^ e := by positivity
    nlinarith
  · right
    exact Exact.rounds_of_lt (by linarith) (by linarith)

/-- A grid whose step is at most a part in `10 ^ 16` of the number has a point that rounds to it. -/
theorem onGrid?_of_fine (hv : v.Canonical) (pos : v.mantissa ≠ 0) :
    onGrid? v.neighbourhood e ≠ none := by
  apply onGrid?_ne_none
  rw [isInside_iff, isInside_iff]
  by_cases small : v.mantissa ≤ 2 ^ 52
  · exact .inr (rounds_gridAbove fine small pos)
  · exact rounds_grid fine hv (Nat.lt_of_not_le small)

end

theorem value_trimZeros (n : ℕ) (d : Decimal) : (trimZeros n d).value = d.value := by
  induction n generalizing d with
  | zero => rfl
  | succ n ih =>
    unfold trimZeros
    split
    · next h =>
      rw [ih]
      have ten : d.digits = d.digits / 10 * 10 := by omega
      unfold value
      rw [zpow_add_one₀ (by norm_num)]
      conv_rhs => rw [ten]
      push_cast
      ring
    · rfl

/-- What the grid search finds rounds to the number. -/
theorem shortest_rounds {v : Exact} (hv : v.Canonical) (pos : v.mantissa ≠ 0) :
    v.Rounds (shortest v).value := by
  unfold shortest
  rw [if_neg pos]
  dsimp only
  split
  · next d found =>
    obtain ⟨k, -, onGrid⟩ := List.exists_of_findSome?_eq_some found
    rw [value_trimZeros]
    exact (isInside_iff v d).mp (isInside_of_onGrid? onGrid)
  · next missed =>
    rw [List.findSome?_eq_none_iff] at missed
    have last := missed 16 (by simp)
    refine absurd last (onGrid?_of_fine ?_ hv pos)
    have split : pointOf v - 1 = pointOf v - 1 - (16 : ℕ) + (16 : ℕ) := by ring
    have least := pow_pointOf_le hv pos
    rw [split, zpow_add₀ (by norm_num), zpow_natCast] at least
    exact least

end Handoff.Number

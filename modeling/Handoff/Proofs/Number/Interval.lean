import Handoff.Number.Shortest
import Handoff.Proofs.Number.Bits
import Mathlib.Algebra.Order.Field.Power
import Mathlib.Tactic.Linarith
import Mathlib.Tactic.NormNum
import Mathlib.Tactic.Positivity
import Mathlib.Tactic.Ring
/-!
# Which decimals round to a number

The reals that round to a number lie between `lowEnd` and `highEnd`; `Rounds v q` says that `q` is
one of them. The grid search of `Decimal.shortest` tests this on naturals (`isInside_iff`).

Result: `rounds_unique`, no decimal rounds to two magnitudes. The ends of two neighbours meet, but
then one of their mantissas is odd and its interval is open.
-/
namespace Handoff.Number

theorem zpow_eq_div (b : ℚ) (hb : b ≠ 0) (k : ℤ) :
    b ^ k = b ^ k.toNat / b ^ (-k).toNat := by
  have e : k = (k.toNat : ℤ) - ((-k).toNat : ℤ) := by omega
  conv_lhs => rw [e]
  rw [zpow_sub₀ hb, zpow_natCast, zpow_natCast]

def Decimal.value (d : Decimal) : ℚ :=
  d.digits * 10 ^ d.exponent

namespace Exact

def magnitude (v : Exact) : ℚ :=
  v.mantissa * 2 ^ v.exponent

/-- The gap to the number below, in quarters of a unit of the mantissa, halved. -/
def gapBelow (v : Exact) : Nat :=
  if v.mantissa = 2 ^ 52 ∧ v.exponent ≠ -1074 then 1 else 2

theorem gapBelow_le (v : Exact) : v.gapBelow ≤ 2 := by
  unfold gapBelow
  split <;> decide

/-- Where the reals that round to a number begin. -/
def lowEnd (v : Exact) : ℚ :=
  (4 * v.mantissa - v.gapBelow : Nat) * 2 ^ (v.exponent - 2)

/-- Where the reals that round to a number end. -/
def highEnd (v : Exact) : ℚ :=
  (4 * v.mantissa + 2 : Nat) * 2 ^ (v.exponent - 2)

/-- Whether a rational rounds to a magnitude; a tie goes to the even mantissa. -/
def Rounds (v : Exact) (q : ℚ) : Prop :=
  if v.mantissa % 2 = 0 then v.lowEnd ≤ q ∧ q ≤ v.highEnd else v.lowEnd < q ∧ q < v.highEnd

theorem Rounds.le {v : Exact} {q : ℚ} (h : v.Rounds q) : v.lowEnd ≤ q ∧ q ≤ v.highEnd := by
  unfold Rounds at h
  split at h
  · exact h
  · exact ⟨h.1.le, h.2.le⟩

theorem Rounds.lt {v : Exact} {q : ℚ} (h : v.Rounds q) (odd : v.mantissa % 2 = 1) :
    v.lowEnd < q ∧ q < v.highEnd := by
  unfold Rounds at h
  rwa [if_neg (by omega)] at h

theorem rounds_of_lt {v : Exact} {q : ℚ} (low : v.lowEnd < q) (high : q < v.highEnd) :
    v.Rounds q := by
  unfold Rounds
  split
  · exact ⟨low.le, high.le⟩
  · exact ⟨low, high⟩

/-! ## Intervals of different numbers -/

/-- The order of magnitudes: by exponent, then by mantissa. -/
def Below (v w : Exact) : Prop :=
  v.exponent < w.exponent ∨ v.exponent = w.exponent ∧ v.mantissa < w.mantissa

/-- Of one exponent: the smaller mantissa is less by at least a unit, of which either interval takes
half. -/
theorem ends_of_mantissa_lt {v w : Exact} (eq : v.exponent = w.exponent)
    (lt : v.mantissa < w.mantissa) :
    v.highEnd ≤ w.lowEnd ∧
      (v.mantissa % 2 = 1 ∨ w.mantissa % 2 = 1 ∨ v.highEnd < w.lowEnd) := by
  have unit : (0 : ℚ) < 2 ^ (v.exponent - 2) := by positivity
  have gap := w.gapBelow_le
  unfold highEnd lowEnd
  rw [← eq]
  refine ⟨?_, ?_⟩
  · apply mul_le_mul_of_nonneg_right _ unit.le
    exact_mod_cast (show 4 * v.mantissa + 2 ≤ 4 * w.mantissa - w.gapBelow by omega)
  · by_cases next : w.mantissa = v.mantissa + 1
    · omega
    · refine .inr (.inr ?_)
      apply mul_lt_mul_of_pos_right _ unit
      exact_mod_cast (show 4 * v.mantissa + 2 < 4 * w.mantissa - w.gapBelow by omega)

/-- Of two exponents: the larger number has a full mantissa, and its unit is at least two units of the
smaller one. -/
theorem ends_of_exponent_lt {v w : Exact} (hv : v.Canonical) (hw : w.Canonical)
    (lt : v.exponent < w.exponent) :
    v.highEnd ≤ w.lowEnd ∧ (v.mantissa % 2 = 1 ∨ v.highEnd < w.lowEnd) := by
  have unit : (0 : ℚ) < 2 ^ (v.exponent - 2) := by positivity
  have above : w.exponent ≠ -1074 := by have := hv.lowest; omega
  have gap : w.gapBelow = 1 ∨ w.gapBelow = 2 ∧ w.mantissa ≠ 2 ^ 52 := by
    unfold gapBelow
    split
    · exact .inl rfl
    · next h => exact .inr ⟨rfl, fun eq => h ⟨eq, above⟩⟩
  have full := hw.full above
  have bounded := hv.bounded
  obtain ⟨k, hk⟩ : ∃ k : ℕ, w.exponent - 2 = v.exponent - 2 + (k + 1 : ℕ) :=
    ⟨(w.exponent - v.exponent - 1).toNat, by omega⟩
  have power : (2 : ℚ) ^ (w.exponent - 2) = 2 ^ (k + 1) * 2 ^ (v.exponent - 2) := by
    rw [hk, zpow_add₀ (by norm_num), zpow_natCast, mul_comm]
  have two : 2 ≤ 2 ^ (k + 1) := by
    rw [pow_succ]
    have := Nat.one_le_two_pow (n := k)
    omega
  have least : 2 * (4 * w.mantissa - w.gapBelow) ≤ (4 * w.mantissa - w.gapBelow) * 2 ^ (k + 1) := by
    rw [Nat.mul_comm]
    exact Nat.mul_le_mul_left _ two
  unfold highEnd lowEnd
  rw [power, ← mul_assoc]
  refine ⟨?_, ?_⟩
  · apply mul_le_mul_of_nonneg_right _ unit.le
    exact_mod_cast (show 4 * v.mantissa + 2 ≤ (4 * w.mantissa - w.gapBelow) * 2 ^ (k + 1) by omega)
  · by_cases odd : v.mantissa % 2 = 1
    · exact .inl odd
    · refine .inr ?_
      apply mul_lt_mul_of_pos_right _ unit
      exact_mod_cast
        (show 4 * v.mantissa + 2 < (4 * w.mantissa - w.gapBelow) * 2 ^ (k + 1) by omega)

/-- The interval of the smaller number ends where that of the larger one begins, or before. Where
they meet, one of the mantissas is odd. -/
theorem highEnd_le_lowEnd {v w : Exact} (hv : v.Canonical) (hw : w.Canonical) (h : v.Below w) :
    v.highEnd ≤ w.lowEnd ∧
      (v.mantissa % 2 = 1 ∨ w.mantissa % 2 = 1 ∨ v.highEnd < w.lowEnd) := by
  rcases h with lt | ⟨eq, lt⟩
  · obtain ⟨le, meet⟩ := ends_of_exponent_lt hv hw lt
    exact ⟨le, meet.imp_right .inr⟩
  · exact ends_of_mantissa_lt eq lt

theorem not_rounds_of_below {v w : Exact} (hv : v.Canonical) (hw : w.Canonical) (h : v.Below w)
    {q : ℚ} (inV : v.Rounds q) : ¬w.Rounds q := by
  intro inW
  obtain ⟨le, meet⟩ := highEnd_le_lowEnd hv hw h
  have qv := inV.le.2
  have qw := inW.le.1
  rcases meet with odd | odd | lt
  · have := (inV.lt odd).2
    linarith
  · have := (inW.lt odd).1
    linarith
  · linarith

/-- A rational rounds to one magnitude only. -/
theorem rounds_unique {v w : Exact} (hv : v.Canonical) (hw : w.Canonical) {q : ℚ}
    (inV : v.Rounds q) (inW : w.Rounds q) :
    v.mantissa = w.mantissa ∧ v.exponent = w.exponent := by
  rcases lt_trichotomy v.exponent w.exponent with lt | eq | gt
  · exact absurd inW (not_rounds_of_below hv hw (.inl lt) inV)
  · rcases lt_trichotomy v.mantissa w.mantissa with lt | same | gt
    · exact absurd inW (not_rounds_of_below hv hw (.inr ⟨eq, lt⟩) inV)
    · exact ⟨same, eq⟩
    · exact absurd inV (not_rounds_of_below hw hv (.inr ⟨eq.symm, gt⟩) inW)
  · exact absurd inV (not_rounds_of_below hw hv (.inl gt) inW)

end Exact

/-! ## The test on naturals -/

theorem up_pos (e : ℤ) : (0 : ℚ) < Decimal.up e := by
  unfold Decimal.up
  positivity

theorem value_eq_div (d : Decimal) :
    d.value = (d.digits * Decimal.up d.exponent : ℕ) / (Decimal.up (-d.exponent) : ℕ) := by
  unfold Decimal.value Decimal.up
  rw [zpow_eq_div 10 (by norm_num)]
  push_cast
  ring

namespace Exact

theorem neighbourhood_div (v : Exact) (n : ℕ) :
    ((n * 2 ^ (v.exponent - 2).toNat : ℕ) : ℚ) / (v.neighbourhood.denominator : ℕ) =
      n * 2 ^ (v.exponent - 2) := by
  have swap : -(v.exponent - 2) = 2 - v.exponent := by ring
  rw [zpow_eq_div 2 (by norm_num), swap]
  simp only [neighbourhood]
  push_cast
  ring

theorem low_div_denominator (v : Exact) :
    (v.neighbourhood.low : ℚ) / v.neighbourhood.denominator = v.lowEnd :=
  v.neighbourhood_div _

theorem high_div_denominator (v : Exact) :
    (v.neighbourhood.high : ℚ) / v.neighbourhood.denominator = v.highEnd :=
  v.neighbourhood_div _

theorem magnitude_eq (v : Exact) : v.magnitude = (4 * v.mantissa : ℕ) * 2 ^ (v.exponent - 2) := by
  unfold magnitude
  rw [zpow_sub₀ (by norm_num)]
  push_cast
  ring

theorem highEnd_eq (v : Exact) : v.highEnd = v.magnitude + 2 * 2 ^ (v.exponent - 2) := by
  rw [magnitude_eq, highEnd]
  push_cast
  ring

theorem lowEnd_eq {v : Exact} (pos : v.mantissa ≠ 0) :
    v.lowEnd = v.magnitude - v.gapBelow * 2 ^ (v.exponent - 2) := by
  have gap : v.gapBelow ≤ 4 * v.mantissa := by
    have := v.gapBelow_le
    omega
  rw [magnitude_eq, lowEnd, Nat.cast_sub gap]
  push_cast
  ring

theorem value_div_denominator (v : Exact) :
    (v.neighbourhood.value : ℚ) / v.neighbourhood.denominator = v.magnitude := by
  rw [magnitude_eq]
  exact v.neighbourhood_div _

theorem denominator_neighbourhood_pos (v : Exact) : (0 : ℚ) < v.neighbourhood.denominator := by
  simp only [neighbourhood]
  positivity

end Exact

/-- The grid search tests whether a decimal rounds to the number. -/
theorem isInside_iff (v : Exact) (d : Decimal) :
    Decimal.isInside v.neighbourhood d = true ↔ v.Rounds d.value := by
  have den := v.denominator_neighbourhood_pos
  have up := up_pos (-d.exponent)
  have closed : v.neighbourhood.closed = (v.mantissa % 2 == 0) := rfl
  unfold Decimal.isInside Exact.Rounds
  rw [value_eq_div, ← v.low_div_denominator, ← v.high_div_denominator, div_le_div_iff₀ den up,
    div_le_div_iff₀ up den, div_lt_div_iff₀ den up, div_lt_div_iff₀ up den, closed]
  by_cases even : v.mantissa % 2 = 0
  · simp only [even, BEq.rfl, if_true, decide_eq_true_eq]
    norm_cast
  · have odd : (v.mantissa % 2 == 0) = false := by simpa using even
    simp only [odd, even, if_false, Bool.false_eq_true, decide_eq_true_eq]
    norm_cast

end Handoff.Number

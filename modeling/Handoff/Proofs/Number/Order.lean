import Mathlib.Data.Int.ConditionallyCompleteOrder
import Mathlib.Data.Prod.Lex
import Mathlib.Order.Compare
import Mathlib.Order.ConditionallyCompleteLattice.Basic
import Mathlib.Order.WithBot
/-!
# The order of numbers

Numbers are compared by sign, then by exponent, then by mantissa; the infinities stand at the ends, and
what is not a number compares with nothing. All this is one linear order once every number has its
`place` and what is not a number has the place behind all others.

Results:
* `compare_eq`: numbers compare as their places do.
* `lt_iff_place`, `le_iff_place`, `beq_iff_place`: the comparisons of `Float`, by places.
* `le_larger_iff`: what is at most the larger of two numbers.
-/
namespace Handoff.Number
open Float.Model UnpackedFloat

/-! ## Places -/

/-- A place among numbers. Behind all of them is the place of what is not a number. -/
abbrev Place := WithTop (ℤ ×ₗ ℤ ×ₗ ℤ)

/-- The place of a number on one side of zero, or of the zeros or an infinity on a side of its own. -/
def placeAt (side exponent mantissa : ℤ) : Place :=
  (toLex (side, toLex (exponent, mantissa)) : ℤ ×ₗ ℤ ×ₗ ℤ)

variable {s₁ e₁ m₁ s₂ e₂ m₂ : ℤ}

theorem placeAt_lt_iff : placeAt s₁ e₁ m₁ < placeAt s₂ e₂ m₂ ↔
    s₁ < s₂ ∨ s₁ = s₂ ∧ (e₁ < e₂ ∨ e₁ = e₂ ∧ m₁ < m₂) := by
  rw [placeAt, placeAt, WithTop.coe_lt_coe, Prod.Lex.toLex_lt_toLex, Prod.Lex.toLex_lt_toLex]

theorem placeAt_inj : placeAt s₁ e₁ m₁ = placeAt s₂ e₂ m₂ ↔ s₁ = s₂ ∧ e₁ = e₂ ∧ m₁ = m₂ := by
  simp [placeAt]

theorem placeAt_ne_top : placeAt s₁ e₁ m₁ ≠ ⊤ := WithTop.coe_ne_top

theorem compare_placeAt : compare (placeAt s₁ e₁ m₁) (placeAt s₂ e₂ m₂) =
    (compare s₁ s₂).then ((compare e₁ e₂).then (compare m₁ m₂)) := by
  cases h : (compare s₁ s₂).then ((compare e₁ e₂).then (compare m₁ m₂)) with
  | lt =>
    simp only [Ordering.then_eq_lt, compare_lt_iff_lt, compare_eq_iff_eq] at h
    exact compare_lt_iff_lt.mpr (placeAt_lt_iff.mpr h)
  | eq =>
    simp only [Ordering.then_eq_eq, compare_eq_iff_eq] at h
    exact compare_eq_iff_eq.mpr (placeAt_inj.mpr h)
  | gt =>
    simp only [Ordering.then_eq_gt, compare_gt_iff_gt, compare_eq_iff_eq] at h
    refine compare_gt_iff_gt.mpr (placeAt_lt_iff.mpr ?_)
    exact h.imp_right fun ⟨side, h⟩ => ⟨side.symm, h.imp_right fun ⟨exponent, h⟩ => ⟨exponent.symm, h⟩⟩

theorem eq_some_compare {result : Option Ordering}
    (h : result = some ((compare s₁ s₂).then ((compare e₁ e₂).then (compare m₁ m₂)))) :
    result = some (compare (placeAt s₁ e₁ m₁) (placeAt s₂ e₂ m₂)) := by
  rw [compare_placeAt, h]

/-! ## Numbers compare as their places do -/

/-- The place that the logical model of numbers gives a number. -/
def placed : UnpackedFloat → Place
  | .infinity .negative => placeAt (-2) 0 0
  | .finite .negative m e _ => placeAt (-1) (-e) (-m)
  | .zero _ => placeAt 0 0 0
  | .finite .positive m e _ => placeAt 1 e m
  | .infinity .positive => placeAt 2 0 0
  | .notANumber => ⊤

theorem placed_eq_top_iff {f : UnpackedFloat} : placed f = ⊤ ↔ f = .notANumber := by
  cases f with
  | notANumber => exact iff_of_true rfl rfl
  | zero s => exact iff_of_false placeAt_ne_top fun h => (by cases h)
  | infinity s => cases s <;> exact iff_of_false placeAt_ne_top fun h => (by cases h)
  | finite s m e pos => cases s <;> exact iff_of_false placeAt_ne_top fun h => (by cases h)

theorem compare_neg (a b : ℤ) : compare (-a) (-b) = (compare a b).swap := by
  rw [← Std.OrientedOrd.eq_swap]
  simp only [compare, compareOfLessAndEq, Int.neg_lt_neg_iff, Int.neg_inj, eq_comm]

theorem compare_cast (a b : ℕ) : compare (a : ℤ) b = compare a b := by
  simp only [compare, compareOfLessAndEq, Int.ofNat_lt, Int.natCast_inj]

/-- Finite numbers on one side of zero compare by exponent and mantissa, below zero in reverse. -/
theorem compare_finite (s t : Sign) {m n : ℕ} {e k : ℤ} (hm : 0 < m) (hn : 0 < n) :
    UnpackedFloat.compare (.finite s m e hm) (.finite t n k hn) =
      some (compare (placed (.finite s m e hm)) (placed (.finite t n k hn))) := by
  cases s <;> cases t <;> refine eq_some_compare ?_
  · rw [compare_neg e k, compare_neg m n, compare_cast, ← Ordering.swap_then]
    rfl
  · rfl
  · rfl
  · rw [compare_cast]
    rfl

/-- Numbers compare as their places do. -/
theorem compare_eq {f g : UnpackedFloat} (hf : f ≠ .notANumber) (hg : g ≠ .notANumber) :
    f.compare g = some (compare (placed f) (placed g)) := by
  -- Unless both are finite and not zero, the sides settle it.
  cases f with
  | notANumber => exact absurd rfl hf
  | infinity s =>
    cases g with
    | notANumber => exact absurd rfl hg
    | zero t => cases s <;> exact eq_some_compare rfl
    | infinity t => cases s <;> cases t <;> exact eq_some_compare rfl
    | finite t n k hn => cases s <;> cases t <;> exact eq_some_compare rfl
  | zero s =>
    cases g with
    | notANumber => exact absurd rfl hg
    | zero t => exact eq_some_compare rfl
    | infinity t => cases t <;> exact eq_some_compare rfl
    | finite t n k hn => cases t <;> exact eq_some_compare rfl
  | finite s m e hm =>
    cases g with
    | notANumber => exact absurd rfl hg
    | zero t => cases s <;> exact eq_some_compare rfl
    | infinity t => cases s <;> cases t <;> exact eq_some_compare rfl
    | finite t n k hn => exact compare_finite s t hm hn

theorem compare_eq_none_iff {f g : UnpackedFloat} :
    f.compare g = none ↔ f = .notANumber ∨ g = .notANumber := by
  by_cases hf : f = .notANumber
  · subst hf
    exact iff_of_true rfl (.inl rfl)
  · by_cases hg : g = .notANumber
    · subst hg
      refine iff_of_true ?_ (.inr rfl)
      cases f <;> rfl
    · rw [compare_eq hf hg]
      simp [hf, hg]

/-! ## Comparisons of `Float` -/

/-- The place of a number. -/
def place (x : Float) : Place := placed x.toModel.unpack

variable {x y : Float}

theorem place_eq_top_iff : place x = ⊤ ↔ x.isNaN = true := by
  rw [place, placed_eq_top_iff]
  show _ ↔ x.toModel.unpack.isNaN = true
  cases x.toModel.unpack with
  | notANumber => exact iff_of_true rfl rfl
  | zero | infinity | finite => exact iff_of_false (fun h => (by cases h)) Bool.false_ne_true

theorem place_ne_top_iff : place x ≠ ⊤ ↔ x.isNaN = false := by
  rw [Ne, place_eq_top_iff, Bool.not_eq_true]

theorem compare_cases (x y : Float) :
    (place x = ⊤ ∨ place y = ⊤) ∧ x.toModel.unpack.compare y.toModel.unpack = none ∨
      (place x ≠ ⊤ ∧ place y ≠ ⊤) ∧
        x.toModel.unpack.compare y.toModel.unpack = some (compare (place x) (place y)) := by
  unfold place
  simp only [Ne, placed_eq_top_iff]
  by_cases none : x.toModel.unpack = .notANumber ∨ y.toModel.unpack = .notANumber
  · exact .inl ⟨none, compare_eq_none_iff.mpr none⟩
  · rw [not_or] at none
    exact .inr ⟨none, compare_eq none.1 none.2⟩

/-- A test of how two numbers compare is a relation of their places, if what is no number fails it and
nothing stands behind that. -/
theorem compare_iff_place (R : Place → Place → Prop) (test : Option Ordering → Bool)
    (unordered : test none = false) (ordered : ∀ a b, test (some (compare a b)) = true ↔ R a b)
    (top : ∀ b, R ⊤ b → b = ⊤) (x y : Float) :
    test (x.toModel.unpack.compare y.toModel.unpack) = true ↔
      R (place x) (place y) ∧ place y ≠ ⊤ := by
  rcases compare_cases x y with ⟨nan, eq⟩ | ⟨⟨-, hy⟩, eq⟩
  · rw [eq, unordered]
    refine iff_of_false Bool.false_ne_true fun ⟨related, hy⟩ => hy ?_
    exact nan.elim (fun hx => top _ (hx ▸ related)) id
  · rw [eq, ordered]
    exact (and_iff_left hy).symm

/-- A number is below another if it stands before it. -/
theorem lt_iff_place : x < y ↔ place x < place y ∧ place y ≠ ⊤ := by
  have unfolded : x < y ↔ (x.toModel.unpack.compare y.toModel.unpack == some .lt) = true :=
    decide_eq_true_iff
  rw [unfolded]
  refine compare_iff_place (· < ·) (· == some .lt) rfl (fun a b => ?_)
    (fun b lt => absurd lt not_top_lt) x y
  rw [beq_iff_eq, Option.some_inj, compare_lt_iff_lt]

/-- A number is at most another if it does not stand behind it. -/
theorem le_iff_place : x ≤ y ↔ place x ≤ place y ∧ place y ≠ ⊤ := by
  have unfolded : x ≤ y ↔ (x.toModel.unpack.compare y.toModel.unpack).any (·.isLE) = true :=
    decide_eq_true_iff
  rw [unfolded]
  refine compare_iff_place (· ≤ ·) (Option.any (·.isLE)) rfl (fun a b => ?_)
    (fun b => top_le_iff.mp) x y
  rw [Option.any_some, Ordering.isLE_iff_ne_gt, ← Ne, compare_le_iff_le]

/-- Numbers that compare as equal have one place. -/
theorem beq_iff_place : (x == y) = true ↔ place x = place y ∧ place y ≠ ⊤ := by
  have unfolded : (x == y) = true ↔ (x.toModel.unpack.compare y.toModel.unpack == some .eq) = true :=
    Iff.rfl
  rw [unfolded]
  refine compare_iff_place (· = ·) (· == some .eq) rfl (fun a b => ?_)
    (fun b => Eq.symm) x y
  rw [beq_iff_eq, Option.some_inj, compare_eq_iff_eq]

theorem beq_self_iff : (x == x) = true ↔ x.isNaN = false := by
  rw [beq_iff_place, and_iff_right rfl, place_ne_top_iff]

theorem le_self (hx : x.isNaN = false) : x ≤ x :=
  le_iff_place.mpr ⟨le_rfl, place_ne_top_iff.mpr hx⟩

theorem le_of_not_below (hx : x.isNaN = false) (hy : y.isNaN = false) (h : ¬x < y) : y ≤ x := by
  rw [lt_iff_place, not_and_not_right] at h
  refine le_iff_place.mpr ⟨?_, place_ne_top_iff.mpr hx⟩
  exact le_of_not_gt fun lt => place_ne_top_iff.mpr hy (h lt)

/-- What is at most the larger of two numbers is at most one of them. What is not a number has no part in
this. -/
theorem le_larger_iff {z : Float} :
    (z ≤ if x.isNaN then y else if x < y then y else x) ↔ z ≤ x ∨ z ≤ y := by
  have trans {u v : Float} (h : z ≤ u) (le : u ≤ v) : z ≤ v := by
    rw [le_iff_place] at h le ⊢
    exact ⟨h.1.trans le.1, le.2⟩
  have number {u : Float} (h : z ≤ u) : u.isNaN = false := place_ne_top_iff.mp (le_iff_place.mp h).2
  split
  · next none =>
    refine ⟨.inr, fun h => h.resolve_left fun le => ?_⟩
    rw [number le] at none
    cases none
  · next hx =>
    split
    · next below =>
      obtain ⟨lt, top⟩ := lt_iff_place.mp below
      exact ⟨.inr, fun h => h.elim (trans · (le_iff_place.mpr ⟨lt.le, top⟩)) id⟩
    · next above =>
      refine ⟨.inl, fun h => h.elim id fun le => trans le ?_⟩
      exact le_of_not_below (Bool.eq_false_iff.mpr hx) (number le) above

end Handoff.Number

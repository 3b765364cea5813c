import Handoff.Number.Text
import Mathlib
/-!
# When numbers compare as equal

Numbers compare as equal when they are the same number, or when both are zeros. The two zeros have the
same text in a stylesheet, and the same distance to any other number. Lemmas on the equality of `Float`
come with the whole of Mathlib, and with none of its parts.

Results:
* `eq_or_isZero_of_beq`: what compares as equal is equal, but for the sign of zero.
* `css_of_isZero`, `abs_sub_of_isZero`: the sign of zero does not show.
-/
namespace Handoff.Number
open Float.Model

def IsZero (x : Float) : Prop := x = 0 ∨ x = -0

/-- What compares as equal is equal, but for the sign of zero. -/
theorem eq_or_isZero_of_beq {x y : Float} (h : (x == y) = true) : x = y ∨ IsZero x ∧ IsZero y := by
  obtain ⟨-, -, same | ⟨hx, hy⟩ | ⟨hx, hy⟩⟩ := Float.beq_iff_ne_nan_and_eq.mp h
  · exact .inl same
  · exact .inr ⟨.inl hx, .inr hy⟩
  · exact .inr ⟨.inr hx, .inl hy⟩

theorem IsZero.of_beq {x y : Float} (h : (x == y) = true) (zero : IsZero x) : IsZero y := by
  rcases eq_or_isZero_of_beq h with rfl | both
  · exact zero
  · exact both.2

theorem isZero_iff {x : Float} : IsZero x ↔ (x == 0) = true := by
  constructor
  · intro h
    rcases h with rfl | rfl <;> decide +kernel
  · intro h
    rcases eq_or_isZero_of_beq h with rfl | both
    · exact .inl rfl
    · exact both.1

/-- A zero has no sign in a stylesheet. -/
theorem css_of_isZero {x : Float} (h : IsZero x) : css x = "0" := by
  rcases h with rfl | rfl <;> decide +kernel

theorem abs_of_isZero {x y : Float} (hx : IsZero x) (hy : IsZero y) : x.abs = y.abs := by
  have same : (0 : Float).abs = (-0 : Float).abs := by decide +kernel
  rcases hx with rfl | rfl <;> rcases hy with rfl | rfl
  · rfl
  · exact same
  · exact same.symm
  · rfl

theorem abs_sub_zero (x : Float) : (x - 0).abs = (x - (-0)).abs := by
  have low : (0 : Float).toModel.unpack = .zero .positive := by rfl
  have high : (-0 : Float).toModel.unpack = .zero .negative := by rfl
  have zeros : (pack (.zero .positive)).abs = (pack (.zero .negative)).abs := by decide +kernel
  have apart : UnpackedFloat.sub Format.binary64 x.toModel.unpack (.zero .positive) =
      UnpackedFloat.sub Format.binary64 x.toModel.unpack (.zero .negative) ∨
      ∃ s t, UnpackedFloat.sub Format.binary64 x.toModel.unpack (.zero .positive) = .zero s ∧
        UnpackedFloat.sub Format.binary64 x.toModel.unpack (.zero .negative) = .zero t := by
    cases x.toModel.unpack with
    | notANumber => exact .inl rfl
    | infinity s => exact .inl rfl
    | finite s m e hm => exact .inl rfl
    | zero s => cases s <;> exact .inr ⟨_, _, rfl, rfl⟩
  show Float.ofModel (pack (UnpackedFloat.sub _ x.toModel.unpack (0 : Float).toModel.unpack)).abs =
    Float.ofModel (pack (UnpackedFloat.sub _ x.toModel.unpack (-0 : Float).toModel.unpack)).abs
  rw [low, high]
  rcases apart with same | ⟨s, t, eq, eq'⟩
  · rw [same]
  · rw [eq, eq']
    cases s <;> cases t
    · rfl
    · rw [zeros]
    · rw [zeros]
    · rfl

theorem abs_sub_of_isZero (x : Float) {y z : Float} (hy : IsZero y) (hz : IsZero z) :
    (x - y).abs = (x - z).abs := by
  rcases hy with rfl | rfl <;> rcases hz with rfl | rfl
  · rfl
  · exact abs_sub_zero x
  · exact (abs_sub_zero x).symm
  · rfl

end Handoff.Number

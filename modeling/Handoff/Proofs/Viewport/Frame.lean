import Handoff.Proofs.Number.Order
import Handoff.Proofs.Viewport
/-!
# What a policy leaves alone

A policy may change the font size and the padding of styles that have them, and nothing else. A font
size that is no length in pixels is left alone; one that is does not go below the floor, also where the
scaled size compares as unchanged and the old one stays.

Results:
* `floor_le_scaled`, `change_fontSize_floor`: the floor of the font size.
* `apply_frame`: all that a policy keeps.
-/
namespace Handoff.ScreenPolicy

theorem floor_le_scaled {p : ScreenPolicy} {floor : Float} (set : p.fontFloor = some floor)
    (number : floor.isNaN = false) (size : Float) : floor ≤ p.scaled size := by
  rw [scaled, set]
  exact Number.le_larger_iff.mpr (.inr (Number.le_self number))

/-- A font size in pixels stays one, and does not go below the floor. -/
theorem change_fontSize_floor {p : ScreenPolicy} {floor : Float} (set : p.fontFloor = some floor)
    (number : floor.isNaN = false) (size : Float) :
    ∃ x, p.change Property.fontSize (.px size) = .px x ∧ floor ≤ x := by
  have above := floor_le_scaled set number size
  rw [change_fontSize]
  split
  · exact ⟨_, rfl, above⟩
  · next same =>
    refine ⟨size, rfl, ?_⟩
    rw [bne, Bool.not_eq_true', Bool.not_eq_false, Number.beq_iff_place] at same
    rw [Number.le_iff_place] at above ⊢
    rwa [same.1] at above

/-- A font size that is no length in pixels is left alone. -/
theorem change_fontSize_of_px?_eq_none (p : ScreenPolicy) {v : StyleValue} (other : v.px? = none) :
    p.change Property.fontSize v = v := by
  cases v with
  | px x => cases other
  | _ => rfl

/-- A policy keeps all properties in their order and all values but the font size and the padding, adds
neither of these, leaves a font size alone that is no length in pixels, and keeps one that is from going
below the floor. -/
theorem apply_frame (p : ScreenPolicy) (base : StyleBag) :
    (p.apply base).keys = base.keys ∧
    (∀ key, key ≠ Property.fontSize → key ≠ Property.padding →
      (p.apply base).get? key = base.get? key) ∧
    (∀ key, base.get? key = none → (p.apply base).get? key = none) ∧
    (∀ v, base.get? Property.fontSize = some v → v.px? = none →
      (p.apply base).get? Property.fontSize = some v) ∧
    ∀ floor size, p.fontFloor = some floor → floor.isNaN = false →
      base.get? Property.fontSize = some (.px size) →
      ∃ x, (p.apply base).get? Property.fontSize = some (.px x) ∧ floor ≤ x := by
  refine ⟨keys_apply p base, fun key font padding => ?_, fun key absent => ?_, fun v there other => ?_,
    fun floor size set number there => ?_⟩
  · rw [get?_apply, funext (change_of_ne font padding), Option.map_id']
  · rw [get?_apply, absent, Option.map_none]
  · rw [get?_apply, there, Option.map_some, change_fontSize_of_px?_eq_none p other]
  · obtain ⟨x, eq, above⟩ := change_fontSize_floor set number size
    exact ⟨x, by rw [get?_apply, there, Option.map_some, eq], above⟩

/-- The usual policy for small screens keeps a caption of 12 pixels from getting smaller. -/
theorem apply_frame_caption :
    (({} : ViewportPolicy).mobile.fontFloor = some 14 ∧ (14 : Float).isNaN = false ∧
      (Keyed.ofList [(Property.fontSize, StyleValue.px 12)]).get? Property.fontSize = some (.px 12)) ∧
    ∃ x, (({} : ViewportPolicy).mobile.apply (.ofList [(Property.fontSize, .px 12)])).get?
      Property.fontSize = some (.px x) ∧ 14 ≤ x := by
  have number : (14 : Float).isNaN = false := by decide +kernel
  obtain ⟨-, -, -, -, floored⟩ :=
    apply_frame ({} : ViewportPolicy).mobile (.ofList [(Property.fontSize, .px 12)])
  exact ⟨⟨rfl, number, rfl⟩, floored 14 12 rfl number rfl⟩

end Handoff.ScreenPolicy

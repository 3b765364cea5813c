import Handoff.Proofs.Style.Bag
import Handoff.Proofs.Style.Resolve
import Handoff.Viewport
/-!
# What a policy does to styles

A policy changes styles property by property: `change` says what becomes of one value. It neither adds
nor removes properties, and nothing but the font size and the padding ever changes.

Results:
* `get?_apply`, `keys_apply`: a policy changes each value on its own and keeps the order.
* `change_eq_of_beq`, `varies_apply`: a value of a layer that compares as unchanged is unchanged.
-/
namespace Handoff

namespace ScreenPolicy

/-- What becomes of the value of a property. -/
def change (p : ScreenPolicy) (key : String) (v : StyleValue) : StyleValue :=
  if key = Property.fontSize then
    match v with
    | .px size => if p.scaled size != size then .px (p.scaled size) else .px size
    | v => v
  else if key = Property.padding then
    match p.compactPadding with
    | some padding => .px padding
    | none => v
  else v

/-- The styles with the font size scaled. -/
def typed (p : ScreenPolicy) (base : StyleBag) : StyleBag :=
  match (base.get? Property.fontSize).bind StyleValue.px? with
  | some size => if p.scaled size != size then base.insert Property.fontSize (.px (p.scaled size)) else base
  | none => base

theorem change_of_ne {p : ScreenPolicy} {key : String} (font : key ≠ Property.fontSize)
    (padding : key ≠ Property.padding) (v : StyleValue) : p.change key v = v := by
  unfold change
  rw [if_neg font, if_neg padding]

theorem change_fontSize (p : ScreenPolicy) (size : Float) :
    p.change Property.fontSize (.px size) =
      if p.scaled size != size then .px (p.scaled size) else .px size := by
  unfold change
  rw [if_pos rfl]

theorem change_padding (p : ScreenPolicy) (v : StyleValue) :
    p.change Property.padding v =
      match p.compactPadding with
      | some padding => .px padding
      | none => v := by
  have font : Property.padding ≠ Property.fontSize := by decide
  unfold change
  rw [if_neg font, if_pos rfl]

theorem change_cases (p : ScreenPolicy) (key : String) (v : StyleValue) :
    p.change key v = v ∨ ∃ x, p.change key v = .px x := by
  by_cases font : key = Property.fontSize
  · subst font
    cases v with
    | px size =>
      rw [change_fontSize]
      split
      · exact .inr ⟨_, rfl⟩
      · exact .inl rfl
    | _ => exact .inl rfl
  · by_cases padding : key = Property.padding
    · subst padding
      rw [change_padding]
      cases p.compactPadding with
      | none => exact .inl rfl
      | some c => exact .inr ⟨c, rfl⟩
    · exact .inl (change_of_ne font padding v)

theorem typed_eq_adjust (p : ScreenPolicy) (base : StyleBag) :
    p.typed base = base.adjust Property.fontSize (p.change Property.fontSize) := by
  unfold typed Keyed.adjust
  cases there : base.get? Property.fontSize with
  | none => rfl
  | some v =>
    cases v with
    | px size =>
      dsimp only [Option.bind_some, StyleValue.px?]
      rw [change_fontSize]
      split
      · rfl
      · exact (Keyed.insert_same there).symm
    | _ => exact (Keyed.insert_same there).symm

theorem apply_eq_adjust (p : ScreenPolicy) (base : StyleBag) :
    p.apply base = (p.typed base).adjust Property.padding (p.change Property.padding) := by
  have unfolded : p.apply base = match p.compactPadding with
      | some padding =>
        if (p.typed base).contains Property.padding then
          (p.typed base).insert Property.padding (.px padding)
        else p.typed base
      | none => p.typed base := rfl
  rw [unfolded, funext (change_padding p), Keyed.adjust, Keyed.contains]
  cases there : (p.typed base).get? Property.padding with
  | none => cases p.compactPadding <;> rfl
  | some v =>
    cases p.compactPadding with
    | none => exact (Keyed.insert_same there).symm
    | some padding => rfl

/-- A policy changes each value on its own. -/
theorem get?_apply (p : ScreenPolicy) (base : StyleBag) (key : String) :
    (p.apply base).get? key = (base.get? key).map (p.change key) := by
  rw [apply_eq_adjust, typed_eq_adjust, Keyed.get?_adjust, Keyed.get?_adjust, Option.map_map]
  refine Option.map_congr fun v _ => ?_
  have apart : Property.padding ≠ Property.fontSize := by decide
  by_cases font : key = Property.fontSize
  · subst font
    simp [apart.symm]
  · by_cases padding : key = Property.padding
    · subst padding
      simp [apart]
    · simp [font, padding, change_of_ne font padding]

/-- A policy keeps the properties and their order. -/
theorem keys_apply (p : ScreenPolicy) (base : StyleBag) : (p.apply base).keys = base.keys := by
  rw [apply_eq_adjust, typed_eq_adjust, Keyed.keys_adjust, Keyed.keys_adjust]

/-- A value of a layer that compares as unchanged is unchanged. -/
theorem change_eq_of_beq (p : ScreenPolicy) {l : Layer} {key : String} {v : StyleValue}
    (there : l.resolve.get? key = some v) (same : (v == p.change key v) = true) :
    p.change key v = v := by
  by_cases font : key = Property.fontSize
  · subst font
    cases v with
    | px size =>
      rw [change_fontSize] at same ⊢
      split at same
      · next scaled =>
        rw [StyleValue.px_beq_px] at same
        rw [bne, BEq.symm same] at scaled
        exact absurd scaled (by decide)
      · next kept => rw [if_neg kept]
    | _ => rfl
  · by_cases padding : key = Property.padding
    · subst padding
      rw [change_padding] at same ⊢
      cases compact : p.compactPadding with
      | none => rfl
      | some c =>
        rw [compact] at same
        rcases Layer.padding_resolve there with ⟨x, rfl, some'⟩ | ⟨_, _, _, _, rfl⟩
        · rw [StyleValue.px_beq_px] at same
          rcases Number.eq_or_isZero_of_beq same with rfl | ⟨zero, -⟩
          · rfl
          · rw [Number.isZero_iff.mp zero] at some'
            cases some'
        · cases (StyleValue.edges_beq_px _ c).symm.trans same
    · exact change_of_ne font padding v

/-- The styles of a layer on a screen are a variant of its styles. -/
theorem varies_apply (p : ScreenPolicy) (l : Layer) : StyleBag.Varies (p.apply l.resolve) l.resolve where
  keys := keys_apply p l.resolve
  exact := by
    intro key v w there varied same
    rw [get?_apply, there] at varied
    cases varied
    exact change_eq_of_beq p there same

end ScreenPolicy
end Handoff

import Handoff.Proofs.Scene.Hidden
import Handoff.Proofs.Style.Resolve
/-!
# What the styles of a layer do not depend on

Fills, strokes and effects that are not shown do not come into the styles of a layer, and neither does
the typography of a layer that is no text. The fills of a typography come into the color of a text and
into nothing else.

Results:
* `Layer.resolve_eq`: the styles of a layer, from those that it has without fills for its text.
* `Layer.resolve_of_shown`: what can be taken out of a layer, or changed in it.
-/
namespace Handoff.Layer

def withoutTypography (l : Layer) : Layer := { l with typography := none }

def withTextFills (l : Layer) (fills : List Paint) : Layer :=
  { l with typography := l.typography.map fun t => { t with fills } }

/-- The color of a text: that of the first solid fill of its typography that is shown. -/
def textColor? (l : Layer) : Option Color :=
  if l.isText then l.typography.bind fun t => Paint.firstSolid? t.fills else none

/-- The declaration of a color for the text, if there is one. -/
def colorStyles (color : Option Color) : Declarations :=
  match color with
  | some c => [(Property.color, .color c)]
  | none => []

theorem textStyles_eq (l : Layer) : l.textStyles = (l.withTextFills []).textStyles ++
    colorStyles (l.typography.bind fun t => Paint.firstSolid? t.fills) := by
  unfold textStyles withTextFills
  dsimp only
  cases l.typography with
  | none => rfl
  | some t =>
    have unfilled : Paint.firstSolid? [] = none := rfl
    simp only [Option.map_some, Option.bind_some, unfilled, List.append_nil]
    cases Paint.firstSolid? t.fills <;> rfl

theorem declarations_eq (l : Layer) :
    l.declarations = (l.withTextFills []).declarations ++ colorStyles l.textColor? := by
  have text : (l.withTextFills []).isText = l.isText := rfl
  unfold declarations textColor?
  rw [text]
  split
  · rw [textStyles_eq l, ← List.append_assoc]
    rfl
  · exact (List.append_nil _).symm

/-- The styles of a layer are those without fills for its text, with the color of the text set last. -/
theorem resolve_eq (l : Layer) : l.resolve = match l.textColor? with
    | some c => (l.withTextFills []).resolve.insert Property.color (.color c)
    | none => (l.withTextFills []).resolve := by
  rw [resolve, declarations_eq, Keyed.ofList, List.foldl_append]
  cases l.textColor? <;> rfl

theorem color_not_mem_textStyles {l : Layer} {v : StyleValue} :
    (Property.color, v) ∉ (l.withTextFills []).textStyles := by
  intro mem
  generalize entry : (Property.color, v) = e at mem
  obtain ⟨t, typography, style⟩ := mem_textStyles mem
  obtain ⟨_, -, rfl⟩ := Option.map_eq_some_iff.mp typography
  cases style with
  | color fill => cases fill
  | family | size | weight | height | spacing | align =>
    exact absurd (Prod.mk.inj entry).1 (by decide)

/-- Only the fills of a typography give a text its color. -/
theorem get?_color_withTextFills (l : Layer) :
    (l.withTextFills []).resolve.get? Property.color = none := by
  refine Option.eq_none_iff_forall_ne_some.mpr fun v there => ?_
  rcases mem_declarations_cases (mem_declarations_of_get? there) with box | padding | ⟨-, text⟩
  · exact absurd box (show Property.color ∉ _ by decide)
  · exact absurd (key_of_mem_paddingStyles padding) (show Property.color ≠ _ by decide)
  · exact absurd text color_not_mem_textStyles

theorem get?_color (l : Layer) : l.resolve.get? Property.color = l.textColor?.map .color := by
  rw [resolve_eq]
  cases l.textColor? with
  | some c => exact (Keyed.get?_insert ..).trans (if_pos rfl)
  | none => exact l.get?_color_withTextFills

/-- The styles of a layer, its color aside, are those without fills for its text. -/
theorem erase_color (l : Layer) :
    l.resolve.erase Property.color = (l.withTextFills []).resolve.erase Property.color := by
  rw [resolve_eq]
  cases l.textColor? with
  | some c => exact Keyed.erase_insert ..
  | none => rfl

theorem withTextFills_withTextFills (l : Layer) (first last : List Paint) :
    (l.withTextFills first).withTextFills last = l.withTextFills last := by
  unfold withTextFills
  rw [Option.map_map]
  rfl

/-- Without what is not shown a layer has the styles that it had, and so has a layer that is no text
without its typography. With other fills for its text a layer has the styles that it had but for the
color, which is that of the first solid fill shown. -/
theorem resolve_of_shown (l : Layer) :
    l.withoutHidden.resolve = l.resolve ∧
    (l.isText = false → l.withoutTypography.resolve = l.resolve) ∧
    ∀ fills, (l.withTextFills fills).resolve.erase Property.color = l.resolve.erase Property.color ∧
      (l.withTextFills fills).resolve.get? Property.color =
        (l.withTextFills fills).textColor?.map .color := by
  refine ⟨l.resolve_withoutHidden, fun noText => ?_, fun fills => ⟨?_, get?_color _⟩⟩
  · have declared : l.withoutTypography.declarations = l.declarations := by
      have text : l.withoutTypography.isText = l.isText := rfl
      unfold declarations
      rw [text, noText]
      rfl
    rw [resolve, resolve, declared]
  · rw [erase_color, erase_color l, withTextFills_withTextFills]

/-- A panel with a hidden image before its fill, a hidden shadow between two that are shown, and a
typography that only a text has a use for. -/
def veiledPanel : Layer where
  kind := .frame
  fills := [(Paint.image "dusk").hide, .solid .white, .solid .black]
  effects := [.dropShadow 0 4 8 .black, (Effect.dropShadow 0 1 2 .white).hide, .dropShadow 2 2 0 .black]
  typography := some { family := some "Inter", size := some 16, fills := [.solid .black] }

/-- The panel keeps its styles when the image, the second shadow and the typography are taken out. -/
theorem resolve_of_shown_veiledPanel :
    veiledPanel.isText = false ∧
      (veiledPanel.withoutHidden.fills.length, veiledPanel.withoutHidden.effects.length) = (2, 2) ∧
      veiledPanel.resolve.keys = [Property.backgroundColor, Property.boxShadow] ∧
      veiledPanel.withoutHidden.resolve = veiledPanel.resolve ∧
      veiledPanel.withoutTypography.resolve = veiledPanel.resolve := by
  obtain ⟨shown, plain, -⟩ := resolve_of_shown veiledPanel
  exact ⟨rfl, rfl, by decide +kernel, shown, plain rfl⟩

end Handoff.Layer

import Handoff.Proofs.Text.Tagless
import Handoff.Proofs.Viewport
/-!
# Styles in which no tag begins

The values of styles are numbers, colors and words of the generator's own, except for the font family
of a text, which is what the design says. So no tag begins in the styles of a layer unless one begins
in its font family, and a policy for screens only puts numbers in.

Results:
* `Layer.tame_declarations`: what a layer declares.
* `Layer.clean_resolve`, `ScreenPolicy.clean_apply`: the styles of a layer, on every screen.
-/
namespace Handoff

open Text (Tagless tagless_of_all tagless_append tagless_intercalate)

namespace StyleValue

theorem tagless_pxText (x : Float) : Tagless (pxText x) :=
  tagless_append.mpr ⟨Number.tagless_css x, tagless_of_all rfl⟩

theorem tagless_css {v : StyleValue} (h : ∀ text, v = .keyword text → Tagless text) :
    Tagless v.css := by
  cases v with
  | px x => exact tagless_pxText x
  | number x => exact Number.tagless_css x
  | color c => exact c.tagless_css
  | edges sides =>
    refine tagless_intercalate (tagless_of_all rfl) fun part hp => ?_
    obtain ⟨x, -, rfl⟩ := List.mem_map.mp hp
    exact tagless_pxText x
  | keyword text => exact h text rfl

end StyleValue

/-! ## Styles of a layer -/

/-- No tag begins in the final texts of some declarations. -/
def Tame (ds : Declarations) : Prop :=
  ∀ e ∈ ds, ∀ text, e.2 = .keyword text → Tagless text

theorem tame_nil : Tame [] := fun _ h => by cases h

theorem Tame.append {a b : Declarations} (ha : Tame a) (hb : Tame b) : Tame (a ++ b) :=
  fun e he => (List.mem_append.mp he).elim (ha e) (hb e)

theorem tame_singleton {key : String} {v : StyleValue}
    (h : ∀ text, v = .keyword text → Tagless text) : Tame [(key, v)] := by
  intro e he
  rw [List.mem_singleton.mp he]
  exact h

theorem Gradient.tagless_stops (stops : List ColorStop) (opacity : Float) :
    Tagless (Gradient.stops stops opacity) := by
  have blank : Tagless " " := tagless_of_all rfl
  have percent : Tagless "%" := tagless_of_all rfl
  refine tagless_intercalate (tagless_of_all rfl) fun part hp => ?_
  obtain ⟨stop, -, rfl⟩ := List.mem_map.mp hp
  simp only [tagless_append]
  exact ⟨⟨⟨Color.tagless_css _, blank⟩, Number.tagless_css _⟩, percent⟩

theorem Gradient.tagless_css? {p : Paint} {text : String} (h : Gradient.css? p = some text) :
    Tagless text := by
  have linear : Tagless "linear-gradient(" := tagless_of_all rfl
  have turn : Tagless "deg, " := tagless_of_all rfl
  have conic : Tagless "conic-gradient(" := tagless_of_all rfl
  have radial : Tagless "radial-gradient(circle, " := tagless_of_all rfl
  have closing : Tagless ")" := tagless_of_all rfl
  have stops := Gradient.tagless_stops p.stops (p.opacity.getD 1)
  unfold Gradient.css? at h
  split at h
  · cases h
  · dsimp only at h
    split at h <;> cases h <;> simp only [tagless_append]
    · exact ⟨⟨⟨⟨linear, Number.tagless_css _⟩, turn⟩, stops⟩, closing⟩
    · exact ⟨⟨conic, stops⟩, closing⟩
    · exact ⟨⟨radial, stops⟩, closing⟩

namespace Layer

variable (l : Layer)

theorem tame_sizeStyles : Tame l.sizeStyles := by
  unfold sizeStyles
  split
  · exact (tame_singleton fun _ h => by cases h).append (tame_singleton fun _ h => by cases h)
  · exact tame_nil

theorem tame_flowStyles : Tame l.flowStyles := by
  have flex : Tame [(Property.display, .keyword "flex")] :=
    tame_singleton fun _ h => by cases h; exact tagless_of_all rfl
  unfold flowStyles
  dsimp only
  split
  · exact tame_nil
  · next direction known =>
    have word : Tagless direction := by
      split at known <;> cases known <;> exact tagless_of_all rfl
    refine flex.append (Tame.append (tame_singleton fun _ h => by cases h; exact word) ?_)
    split
    · split
      · exact tame_singleton fun _ h => by cases h
      · exact tame_nil
    · exact tame_nil

theorem tame_paddingStyles : Tame l.paddingStyles := by
  unfold paddingStyles
  dsimp only
  split
  · exact tame_nil
  · split <;> exact tame_singleton fun _ h => by cases h

theorem tame_backgroundStyles : Tame l.backgroundStyles := by
  unfold backgroundStyles
  dsimp only
  split
  · exact tame_singleton fun _ h => by cases h
  · split
    · next gradient found =>
      obtain ⟨p, -, css⟩ := List.exists_of_findSome?_eq_some found
      refine Tame.append ?_ (tame_singleton fun _ h => by cases h; exact Gradient.tagless_css? css)
      split
      · exact tame_singleton fun _ h => by cases h
      · exact tame_nil
    · split
      · exact tame_singleton fun _ h => by cases h
      · exact tame_nil

theorem tame_borderStyles : Tame l.borderStyles := by
  have solid : Tagless "px solid " := tagless_of_all rfl
  unfold borderStyles
  split
  · refine tame_singleton fun _ h => ?_
    cases h
    simp only [tagless_append]
    exact ⟨⟨Number.tagless_css _, solid⟩, Color.tagless_css _⟩
  · exact tame_nil

theorem tame_cornerStyles : Tame l.cornerStyles := by
  unfold cornerStyles
  split
  · split
    · exact tame_singleton fun _ h => by cases h
    · exact tame_nil
  · exact tame_nil

theorem tagless_shadowText (e : Effect) : Tagless (shadowText e) := by
  refine tagless_intercalate (tagless_of_all rfl) fun part hp => ?_
  rcases List.mem_append.mp hp with length | color
  · obtain ⟨x, -, rfl⟩ := List.mem_map.mp length
    exact StyleValue.tagless_pxText x
  · rw [List.mem_singleton.mp color]
    exact Color.tagless_css _

theorem tame_effectStyles : Tame l.effectStyles := by
  have blur : Tagless "blur(" := tagless_of_all rfl
  have closing : Tagless "px)" := tagless_of_all rfl
  unfold effectStyles
  dsimp only
  apply Tame.append
  · split
    · exact tame_nil
    · refine tame_singleton fun _ h => ?_
      cases h
      refine tagless_intercalate (tagless_of_all rfl) fun part hp => ?_
      obtain ⟨e, -, rfl⟩ := List.mem_map.mp hp
      exact tagless_shadowText e
  · split
    · refine tame_singleton fun _ h => ?_
      cases h
      simp only [tagless_append]
      exact ⟨⟨blur, Number.tagless_css _⟩, closing⟩
    · exact tame_nil

theorem tame_opacityStyles : Tame l.opacityStyles := by
  unfold opacityStyles
  split
  · split
    · exact tame_singleton fun _ h => by cases h
    · exact tame_nil
  · exact tame_nil

/-- No tag begins in the font family of the layer. -/
def PlainFont (l : Layer) : Prop :=
  ∀ t, l.typography = some t → ∀ family, t.family = some family → Tagless family

variable {l}

theorem tame_textStyles (font : l.PlainFont) : Tame l.textStyles := by
  intro e he text eq
  obtain ⟨t, typography, style⟩ := mem_textStyles he
  cases style with
  | family given =>
    cases eq
    exact font t typography _ given
  | align a =>
    cases eq
    cases a <;> exact tagless_of_all rfl
  | size | weight | height | spacing | color => cases eq

/-- No tag begins in what a layer declares. -/
theorem tame_declarations (font : l.PlainFont) : Tame l.declarations := by
  have text : Tame (if l.isText then l.textStyles else []) := by
    split
    · exact tame_textStyles font
    · exact tame_nil
  unfold declarations
  exact (((((((l.tame_sizeStyles.append l.tame_flowStyles).append l.tame_paddingStyles).append
    l.tame_backgroundStyles).append l.tame_borderStyles).append l.tame_cornerStyles).append
    l.tame_effectStyles).append l.tame_opacityStyles).append text

theorem worded_of_mem_declarations {e : String × StyleValue} (h : e ∈ l.declarations) :
    Text.Worded e.1 := by
  have known {keys : List String}
      (h : (keys.all fun key => key.toList.all Text.isWordChar) = true) (mem : e.1 ∈ keys) :
      Text.Worded e.1 :=
    consists_iff_all.mpr (List.all_eq_true.mp h _ mem)
  rcases mem_declarations_cases h with box | padding | ⟨-, text⟩
  · exact known rfl box
  · have only : e.1 ∈ [Property.padding] := List.mem_singleton.mpr (key_of_mem_paddingStyles padding)
    exact known rfl only
  · exact known rfl (key_of_mem_textStyles text)

end Layer

/-! ## Bags -/

/-- Every property of a bag is worded, and no tag begins in its value. -/
def StyleBag.Clean (bag : StyleBag) : Prop :=
  ∀ key v, bag.get? key = some v → Text.Worded key ∧ Tagless v.css

/-- The styles of a layer with a plain font are clean. -/
theorem Layer.clean_resolve {l : Layer} (font : l.PlainFont) : l.resolve.Clean := by
  intro key v there
  have declared := mem_declarations_of_get? there
  exact ⟨worded_of_mem_declarations declared,
    StyleValue.tagless_css (tame_declarations font _ declared)⟩

/-- Screens make clean styles clean ones. -/
theorem ScreenPolicy.clean_apply (p : ScreenPolicy) {base : StyleBag} (clean : base.Clean) :
    (p.apply base).Clean := by
  intro key v there
  rw [get?_apply, Option.map_eq_some_iff] at there
  obtain ⟨w, there, rfl⟩ := there
  obtain ⟨worded, tagless⟩ := clean key w there
  refine ⟨worded, ?_⟩
  rcases p.change_cases key w with same | ⟨x, px⟩
  · rwa [same]
  · rw [px]
    exact StyleValue.tagless_pxText x

theorem StyleBag.clean_diff {a : StyleBag} (clean : a.Clean) (b : StyleBag) :
    (StyleBag.diff a b).Clean := by
  intro key v there
  rw [StyleBag.get?_diff, Option.filter_eq_some_iff] at there
  exact clean key v there.1

end Handoff

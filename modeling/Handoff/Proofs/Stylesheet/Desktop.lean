import Handoff.Component.Emission
import Handoff.Proofs.Stylesheet
import Handoff.Proofs.Utility.Layers
/-!
# The desktop policy

A policy has something to say about each of three kinds of screen. A rule-based stylesheet has media
blocks for two of them, and above the wider one the styles of the design stay in force as they are:
what the policy asks for on desktop screens is written nowhere. Utility classes have a layer for it.

Results:
* `inForce_above`: above the tablet's width a rule-based stylesheet gives every node its own styles.
* `Emitter.stylesheetText_desktop`: another desktop policy makes no difference to such a stylesheet.
* `inForce_desktop_iff`: both, with what the utility classes come to at the same width.
-/
namespace Handoff

/-! ## Another desktop policy -/

def ViewportPolicy.onDesktop (p : ViewportPolicy) (desktop : ScreenPolicy) : ViewportPolicy :=
  { p with desktop }

def StyledLayer.onDesktop (desktop : ScreenPolicy) (s : StyledLayer) : StyledLayer :=
  { s with variants := s.variants.map fun v => { v with desktop := desktop.apply s.styles } }

namespace Styled

theorem layerOf_onDesktop (p : ViewportPolicy) (desktop : ScreenPolicy) (layer : Layer)
    (verdict : Verdict) (className : String) :
    layerOf (some (p.onDesktop desktop)) layer verdict className =
      (layerOf (some p) layer verdict className).onDesktop desktop := by
  simp only [layerOf, StyledLayer.onDesktop, ViewportPolicy.onDesktop, ViewportPolicy.variants,
    ViewportPolicy.derive, ViewportPolicy.adapts, Option.map_some]

/-- Another desktop policy changes the desktop variant of every node, and nothing else. -/
theorem ofNode_onDesktop (p : ViewportPolicy) (desktop : ScreenPolicy) (node : Node)
    (c : Classification) : ofNode (some (p.onDesktop desktop)) node c =
      (ofNode (some p) node c).map (StyledLayer.onDesktop desktop) :=
  ofNode_of_layerOf (layerOf_onDesktop p desktop) node c

theorem adapts_onDesktop (desktop : ScreenPolicy) (root : Styled) :
    adapts (root.map (StyledLayer.onDesktop desktop)) = root.adapts := by
  rw [adapts, Tree.value_map, adapts, StyledLayer.adapts, StyledLayer.adapts, StyledLayer.onDesktop]
  cases root.value.variants <;> rfl

end Styled

namespace Stylesheet

theorem overrides_onDesktop (desktop : ScreenPolicy) (root : Styled) {variant : Variants → StyleBag}
    (blind : ∀ v bag, variant { v with desktop := bag } = variant v) :
    overrides (root.map (StyledLayer.onDesktop desktop)) variant = overrides root variant := by
  rw [overrides, numbered_map, List.filterMap_map]
  refine List.filterMap_congr fun e _ => ?_
  cases given : e.2.variants with
  | none => simp only [Function.comp_apply, StyledLayer.onDesktop, given, Option.map_none]
  | some v => simp only [Function.comp_apply, StyledLayer.onDesktop, given, Option.map_some,
      Option.bind_some, blind]

theorem ofStyled_onDesktop (desktop : ScreenPolicy) (root : Styled) (widths : Option Breakpoints) :
    ofStyled (root.map (StyledLayer.onDesktop desktop)) widths = ofStyled root widths := by
  have rules : ((numbered (root.map (StyledLayer.onDesktop desktop))).filterMap fun e =>
      rule? e.1 e.2.className e.2.styles) =
      (numbered root).filterMap fun e => rule? e.1 e.2.className e.2.styles := by
    rw [numbered_map, List.filterMap_map]
    rfl
  have media : mediaOf (root.map (StyledLayer.onDesktop desktop)) widths = mediaOf root widths := by
    cases widths with
    | none => rfl
    | some widths =>
      rw [mediaOf, Styled.adapts_onDesktop, overrides_onDesktop desktop root fun _ _ => rfl,
        overrides_onDesktop desktop root fun _ _ => rfl]
      rfl
  rw [ofStyled, ofStyled, media]
  exact congrArg (Stylesheet.mk · _) rules

/-! ## Above the tablet's width -/

/-- Above the tablet's width every node has its own styles. -/
theorem inForce_above {root : Styled} (adapts : root.adapts = true) {widths : Breakpoints}
    (ordered : widths.mobileMax ≤ widths.tabletMax) {width : Nat} (wide : widths.tabletMax < width)
    {position : Nat} {s : StyledLayer} {v : Variants} (there : root.values[position]? = some s)
    (variants : s.variants = some v) :
    (ofStyled root (some widths)).inForce width position = s.styles := by
  have tablet : ¬width ≤ widths.tabletMax := by omega
  have mobile : ¬width ≤ widths.mobileMax := by omega
  rw [inForce_eq adapts widths there variants]
  dsimp only
  rw [if_neg tablet, if_neg mobile]

end Stylesheet

theorem ScreenPolicy.apply_eq_self_iff (p : ScreenPolicy) (base : StyleBag) :
    p.apply base = base ↔ ∀ key v, base.get? key = some v → p.change key v = v := by
  constructor
  · intro kept key v there
    have changed := p.get?_apply base key
    rw [kept, there, Option.map_some] at changed
    exact (Option.some.inj changed).symm
  · intro each
    refine StyleBag.ext_base (p.keys_apply base) rfl fun key v there => ?_
    rw [p.get?_apply, there, Option.map_some, each key v there]

/-- A stylesheet made of rules is the same under every desktop policy. -/
theorem Emitter.stylesheetText_desktop (policy : ViewportPolicy) (desktop : ScreenPolicy) (node : Node)
    (c : Classification) {style : StyleDialect} (rules : style ≠ .utility) (name tag : String)
    (widths : Option Breakpoints) :
    stylesheetText (Styled.ofNode (some (policy.onDesktop desktop)) node c) style name tag widths =
      stylesheetText (Styled.ofNode (some policy) node c) style name tag widths := by
  rw [Styled.ofNode_onDesktop]
  cases style with
  | utility => exact absurd rfl rules
  | plain | scopedModule | cssInJs => simp only [stylesheetText, Stylesheet.ofStyled_onDesktop]

namespace Stylesheet

/-- A component that adapts, on desktop screens. In a stylesheet made of rules every node keeps its own
styles, whatever the policy says: that is the node's desktop variant exactly if the policy keeps each
of its values, and the text of the stylesheet does not depend on the desktop policy at all. The utility
classes that hold there come to the desktop variant unless padding is stale. -/
theorem inForce_desktop_iff (scale : UtilityScale) (policy : ViewportPolicy) (node : Node)
    (c : Classification) (adapts : (Styled.ofNode (some policy) node c).adapts = true)
    {widths : Breakpoints} (ordered : widths.mobileMax ≤ widths.tabletMax) {width : Nat}
    (wide : widths.tabletMax < width) {position : Nat} {s : StyledLayer}
    (there : (Styled.ofNode (some policy) node c).values[position]? = some s) :
    let root := Styled.ofNode (some policy) node c
    let shown := (ofStyled root (some widths)).inForce width position
    ∃ v, s.variants = some v ∧ shown = s.styles ∧
      (shown = v.desktop ↔
        ∀ key value, s.styles.get? key = some value → policy.desktop.change key value = value) ∧
      (∀ desktop style name tag, style ≠ .utility →
        Emitter.stylesheetText (Styled.ofNode (some (policy.onDesktop desktop)) node c) style name tag
          (some widths) = Emitter.stylesheetText root style name tag (some widths)) ∧
      ((∀ slot, scale.valueOf (classesAt widths width (scale.tieredClasses v)) slot =
          scale.valueOf (scale.classes v.desktop) slot) ↔
        ¬scale.StalePadding v.desktop [v.tablet, v.mobile]) := by
  obtain ⟨layer, -, verdict, namer, made⟩ := Styled.mem_values_ofNode (List.mem_of_getElem? there)
  have styles : s.styles = layer.resolve := by rw [made]; rfl
  have variants : s.variants = some (policy.variants layer layer.resolve) := by rw [made]; rfl
  have own := inForce_above adapts ordered wide there variants
  have tablet : ¬width ≤ widths.tabletMax := by omega
  have mobile : ¬width ≤ widths.mobileMax := by omega
  intro root shown
  refine ⟨_, variants, own, ?_, fun desktop style name tag rules =>
    Emitter.stylesheetText_desktop policy desktop node c rules name tag (some widths), ?_⟩
  · rw [show shown = s.styles from own, styles, ← ScreenPolicy.apply_eq_self_iff]
    exact eq_comm
  · have realises := scale.realises_iff policy layer ordered width
    simp only [Variants.shown, Variants.narrower, if_neg tablet, if_neg mobile] at realises
    exact realises

def wideDesktop : ViewportPolicy :=
  { mobile := {}, tablet := {}, desktop := { compactPadding := some 24 } }

def roomyStyled : Styled :=
  Styled.ofNode (some wideDesktop) paddedRow (Classifier.standard.classify paddedRow)

def roomyVariants : Variants :=
  wideDesktop.variants paddedRow.value paddedRow.value.resolve

/-- On desktop screens the row keeps its padding in a stylesheet made of rules, and has the wide padding
in utility classes. -/
theorem inForce_desktop_paddedRow :
    roomyStyled.adapts = true ∧ roomyStyled.value.variants = some roomyVariants ∧
      (ofStyled roomyStyled (some {})).inForce 1440 0 ≠ roomyVariants.desktop ∧
      ∀ slot, UtilityScale.standard.valueOf
          (classesAt {} 1440 (UtilityScale.standard.tieredClasses roomyVariants)) slot =
        UtilityScale.standard.valueOf (UtilityScale.standard.classes roomyVariants.desktop) slot := by
  have adapts : roomyStyled.adapts = true := by decide +kernel
  have variants : roomyStyled.value.variants = some roomyVariants := by rfl
  have there := Tree.getElem?_values_zero roomyStyled
  have padding : paddedRow.value.resolve.get? Property.padding = some (.px 8) := by rfl
  have wide : wideDesktop.desktop.change Property.padding (.px 8) = .px 24 :=
    wideDesktop.desktop.change_padding _
  have other : StyleValue.px 24 ≠ .px 8 := by
    intro eq
    have same : (StyleValue.px 24 == .px 8) = true := by rw [eq]; decide +kernel
    exact absurd same (by decide +kernel)
  have fresh : ¬UtilityScale.standard.StalePadding roomyVariants.desktop
      [roomyVariants.tablet, roomyVariants.mobile] := by
    rintro ⟨⟨sides, edges, -⟩, -⟩
    have desktop := wideDesktop.desktop.get?_apply paddedRow.value.resolve Property.padding
    rw [padding, Option.map_some, wide] at desktop
    cases desktop.symm.trans edges
  have ordered : ({} : Breakpoints).mobileMax ≤ ({} : Breakpoints).tabletMax := by decide
  have beyond : ({} : Breakpoints).tabletMax < 1440 := by decide
  obtain ⟨v, given, -, desktop, -, realises⟩ := inForce_desktop_iff .standard wideDesktop paddedRow
    (Classifier.standard.classify paddedRow) adapts ordered beyond there
  cases variants.symm.trans given
  exact ⟨adapts, variants, fun eq => other (wide.symm.trans (desktop.mp eq _ _ padding)),
    realises.mpr fresh⟩

end Stylesheet
end Handoff

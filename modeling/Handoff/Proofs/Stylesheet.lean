import Handoff.Proofs.Styled
import Handoff.Proofs.Viewport
import Handoff.Stylesheet
/-!
# What a stylesheet comes to at each width

The rules about one node come to its styles, overlaid with what its media blocks change. Above the
widest mobile screen that is the tablet variant, always. On mobile screens both blocks apply, each
with only what differs from the styles without a block: where the tablet variant changes a property
and the mobile variant leaves it as it is, the mobile block is silent and the tablet's value stays.

Results:
* `inForce_eq`: the rules in force for one node, as overlays of differences.
* `inForce_variant_iff`: tablet screens get the tablet variant; mobile screens get the mobile variant
  exactly if the mobile variant changes whatever the tablet variant changes.
-/
namespace Handoff

namespace Stylesheet

/-! ## The rules about one node -/

/-- What the rules about the node at a place come to when they are set on some styles. -/
def overlaid (position : Nat) (rules : List StyleRule) (bag : StyleBag) : StyleBag :=
  (rules.filter fun r => r.position == position).foldl (fun bag r => StyleBag.overlay r.styles bag) bag

theorem overlaid_append (position : Nat) (a b : List StyleRule) (bag : StyleBag) :
    overlaid position (a ++ b) bag = overlaid position b (overlaid position a bag) := by
  rw [overlaid, List.filter_append, List.foldl_append]
  rfl

theorem stylesAt_eq (position : Nat) (rules : List StyleRule) :
    stylesAt position rules = overlaid position rules .empty := rfl

/-- A rule made for each node that has something to say about it. -/
def Placed (f : Nat × StyledLayer → Option StyleRule) : Prop :=
  ∀ position s r, f (position, s) = some r → r.position = position

theorem filter_beyond {f : Nat × StyledLayer → Option StyleRule} (placed : Placed f)
    (layers : List StyledLayer) {start position : Nat} (lt : position < start) :
    (((layers.zipIdx start).map fun (layer, p) => (p, layer)).filterMap f).filter
      (fun r => r.position == position) = [] := by
  rw [List.filter_eq_nil_iff]
  intro r hr
  obtain ⟨⟨p, s⟩, mem, made⟩ := List.mem_filterMap.mp hr
  obtain ⟨⟨s', p'⟩, mem', eq⟩ := List.mem_map.mp mem
  cases eq
  have ge := List.le_snd_of_mem_zipIdx mem'
  rw [placed _ _ _ made, beq_iff_eq]
  exact fun eq => absurd ge (by dsimp only; omega)

theorem filter_position {f : Nat × StyledLayer → Option StyleRule} (placed : Placed f)
    {layers : List StyledLayer} {i : Nat} {s : StyledLayer} (there : layers[i]? = some s) (start : Nat) :
    (((layers.zipIdx start).map fun (layer, p) => (p, layer)).filterMap f).filter
      (fun r => r.position == start + i) = (f (start + i, s)).toList := by
  induction layers generalizing i start with
  | nil => cases there
  | cons first rest ih =>
    rw [List.zipIdx_cons, List.map_cons]
    cases i with
    | zero =>
      cases (show some first = some s from there)
      have later := filter_beyond placed rest (Nat.lt_succ_self start)
      rw [List.filterMap_cons, Nat.add_zero]
      dsimp only
      cases made : f (start, s) with
      | none => exact later
      | some r =>
        dsimp only
        rw [List.filter_cons_of_pos (by rw [placed _ _ _ made]; exact beq_self_eq_true start), later]
        rfl
    | succ i =>
      have later := ih (i := i) there (start + 1)
      rw [Nat.add_right_comm, Nat.add_assoc] at later
      rw [List.filterMap_cons]
      dsimp only
      cases made : f (start, first) with
      | none => exact later
      | some r =>
        have other : ¬(r.position == start + (i + 1)) = true := by
          rw [placed _ _ _ made, beq_iff_eq]
          omega
        dsimp only
        refine Eq.trans (List.filter_cons_of_neg ?_) later
        exact other

theorem numbered_eq (root : Styled) :
    numbered root = (root.values.zipIdx 0).map fun (layer, p) => (p, layer) := rfl

theorem numbered_map (f : StyledLayer → StyledLayer) (root : Styled) :
    numbered (root.map f) = (numbered root).map fun e => (e.1, f e.2) := by
  rw [numbered, numbered, Tree.values_map, List.zipIdx_map, List.map_map, List.map_map]
  rfl

/-- Of rules made node by node, only those made for a node are about it. -/
theorem overlaid_filterMap {f : Nat × StyledLayer → Option StyleRule} (placed : Placed f)
    {root : Styled} {i : Nat} {s : StyledLayer} (there : root.values[i]? = some s) (bag : StyleBag) :
    overlaid i ((numbered root).filterMap f) bag =
      (f (i, s)).toList.foldl (fun bag r => StyleBag.overlay r.styles bag) bag := by
  have own := filter_position placed there 0
  rw [Nat.zero_add] at own
  rw [overlaid, numbered_eq, own]

theorem placed_of_rule? {f : Nat × StyledLayer → Option StyleRule}
    (makes : ∀ position s r, f (position, s) = some r →
      ∃ styles, rule? position s.className styles = some r) : Placed f := by
  intro position s r made
  obtain ⟨styles, rule⟩ := makes position s r made
  unfold rule? at rule
  split at rule <;> cases rule
  rfl

/-- A rule that is left out because it is empty would change nothing. -/
theorem foldl_rule? (position : Nat) (className : String) (styles bag : StyleBag) :
    (rule? position className styles).toList.foldl (fun bag r => StyleBag.overlay r.styles bag) bag =
      StyleBag.overlay styles bag := by
  unfold rule?
  split
  · next empty => exact (StyleBag.overlay_of_isEmpty empty bag).symm
  · rfl

/-! ## Blocks -/

/-- A block that is left out because it is empty would hold no rules. -/
theorem rules_block? (maxWidth width : Nat) (rules : List StyleRule) :
    ((block? maxWidth rules).toList.filter fun b => width ≤ b.maxWidth).flatMap MediaBlock.rules =
      if width ≤ maxWidth then rules else [] := by
  unfold block?
  by_cases empty : rules.isEmpty = true
  · rw [if_pos empty, List.isEmpty_iff.mp empty]
    exact (ite_self []).symm
  · rw [if_neg empty]
    by_cases le : width ≤ maxWidth <;> simp [le]

theorem mediaOf_eq {root : Styled} (adapts : root.adapts = true) (widths : Breakpoints) :
    mediaOf root (some widths) =
      (block? widths.tabletMax (overrides root Variants.tablet)).toList ++
        (block? widths.mobileMax (overrides root Variants.mobile)).toList := by
  unfold mediaOf
  dsimp only
  rw [if_pos adapts]
  cases block? widths.tabletMax (overrides root Variants.tablet) <;>
    cases block? widths.mobileMax (overrides root Variants.mobile) <;> rfl

/-! ## The styles in force -/

theorem overlaid_rules {root : Styled} {i : Nat} {s : StyledLayer} (there : root.values[i]? = some s)
    (widths : Option Breakpoints) : overlaid i (ofStyled root widths).rules .empty = s.styles := by
  have placed : Placed fun e => rule? e.1 e.2.className e.2.styles :=
    placed_of_rule? fun _ s _ made => ⟨s.styles, made⟩
  rw [ofStyled]
  dsimp only
  rw [overlaid_filterMap placed there, foldl_rule?, StyleBag.overlay_on_empty]

theorem overlaid_overrides {root : Styled} {i : Nat} {s : StyledLayer} {v : Variants}
    (there : root.values[i]? = some s) (variants : s.variants = some v) (variant : Variants → StyleBag)
    (bag : StyleBag) :
    overlaid i (overrides root variant) bag =
      StyleBag.overlay (StyleBag.diff (variant v) s.styles) bag := by
  have placed : Placed fun e =>
      e.2.variants.bind fun v =>
        rule? e.1 e.2.className (StyleBag.diff (variant v) e.2.styles) := by
    refine placed_of_rule? fun _ s _ made => ?_
    obtain ⟨v, -, rule⟩ := Option.bind_eq_some_iff.mp made
    exact ⟨_, rule⟩
  rw [overrides, overlaid_filterMap placed there]
  dsimp only
  rw [variants, Option.bind_some, foldl_rule?]

theorem overlaid_ite (i : Nat) (p : Prop) [Decidable p] (rules : List StyleRule) (bag : StyleBag) :
    overlaid i (if p then rules else []) bag = if p then overlaid i rules bag else bag := by
  split <;> rfl

/-- The styles in force for one node: its own, then what the wider block changes, then what the
narrower block changes, each where it applies. -/
theorem inForce_eq {root : Styled} (adapts : root.adapts = true) (widths : Breakpoints) {i : Nat}
    {s : StyledLayer} {v : Variants} (there : root.values[i]? = some s)
    (variants : s.variants = some v) (width : Nat) :
    (ofStyled root (some widths)).inForce width i =
      let wider := if width ≤ widths.tabletMax then
        StyleBag.overlay (StyleBag.diff v.tablet s.styles) s.styles else s.styles
      if width ≤ widths.mobileMax then
        StyleBag.overlay (StyleBag.diff v.mobile s.styles) wider else wider := by
  have media : (ofStyled root (some widths)).media = mediaOf root (some widths) := rfl
  rw [inForce, stylesAt_eq, rulesAt, overlaid_append, overlaid_rules there, media, mediaOf_eq adapts,
    List.filter_append, List.flatMap_append, overlaid_append, rules_block?, rules_block?,
    overlaid_ite, overlaid_ite, overlaid_overrides there variants, overlaid_overrides there variants]

/-- Narrower screens in a rule-based stylesheet: every node of a component that adapts has its tablet
variant on tablet screens. On mobile screens it has its mobile variant exactly if the mobile variant
changes every property that the tablet variant changes; otherwise the tablet block stays in force
for what the mobile variant leaves as it is. -/
theorem inForce_variant_iff (policy : ViewportPolicy) (node : Node) (c : Classification)
    (adapts : (Styled.ofNode (some policy) node c).adapts = true) (widths : Breakpoints) {width : Nat}
    (narrow : width ≤ widths.tabletMax) {position : Nat} {s : StyledLayer}
    (there : (Styled.ofNode (some policy) node c).values[position]? = some s) :
    ∃ v, s.variants = some v ∧
      let shown := (ofStyled (Styled.ofNode (some policy) node c) (some widths)).inForce width position
      (widths.mobileMax < width → shown = v.tablet) ∧
        (width ≤ widths.mobileMax →
          (shown = v.mobile ↔
            ∀ key ∈ (StyleBag.diff v.tablet s.styles).keys,
              key ∈ (StyleBag.diff v.mobile s.styles).keys)) := by
  obtain ⟨layer, -, verdict, namer, made⟩ := Styled.mem_values_ofNode (List.mem_of_getElem? there)
  have styles : s.styles = layer.resolve := by rw [made]; rfl
  have variants : s.variants = some (policy.variants layer layer.resolve) := by rw [made]; rfl
  refine ⟨_, variants, ?_⟩
  have tablet : StyleBag.Varies (policy.variants layer layer.resolve).tablet layer.resolve :=
    policy.tablet.varies_apply layer
  have mobile : StyleBag.Varies (policy.variants layer layer.resolve).mobile layer.resolve :=
    policy.mobile.varies_apply layer
  have eq := inForce_eq adapts widths there variants width
  dsimp only at eq
  rw [if_pos narrow, styles, tablet.overlay_diff] at eq
  intro shown
  rw [styles]
  constructor
  · intro above
    rw [if_neg (Nat.not_le.mpr above)] at eq
    exact eq
  · intro within
    rw [if_pos within] at eq
    rw [show shown = _ from eq]
    exact tablet.overlay_diff_iff mobile

def paddedRow : Node :=
  .leaf { name := "Row", kind := .frame, layout := ⟨.horizontal, none, .uniform 8⟩ }

def compactTablet : ViewportPolicy := { mobile := {}, tablet := { compactPadding := some 4 } }

def paddedStyled : Styled :=
  Styled.ofNode (some compactTablet) paddedRow (Classifier.standard.classify paddedRow)

def paddedVariants : Variants :=
  compactTablet.variants paddedRow.value paddedRow.value.resolve

/-- The row has its tablet variant on tablet screens, but keeps that variant's padding on mobile ones,
where its own is as without a screen. -/
theorem inForce_variant_paddedRow :
    paddedStyled.adapts = true ∧ paddedStyled.value.variants = some paddedVariants ∧
      (ofStyled paddedStyled (some {})).inForce 900 0 = paddedVariants.tablet ∧
      (ofStyled paddedStyled (some {})).inForce 375 0 ≠ paddedVariants.mobile := by
  have adapts : paddedStyled.adapts = true := by decide +kernel
  have variants : paddedStyled.value.variants = some paddedVariants := by rfl
  have there := Tree.getElem?_values_zero paddedStyled
  have stale : ¬∀ key ∈ (StyleBag.diff paddedVariants.tablet paddedStyled.value.styles).keys,
      key ∈ (StyleBag.diff paddedVariants.mobile paddedStyled.value.styles).keys := by
    decide +kernel
  have wide : 900 ≤ ({} : Breakpoints).tabletMax := by decide
  have narrow : 375 ≤ ({} : Breakpoints).tabletMax := by decide
  obtain ⟨v, given, tablet, -⟩ := inForce_variant_iff compactTablet paddedRow
    (Classifier.standard.classify paddedRow) adapts {} wide there
  obtain ⟨w, given', -, mobile⟩ := inForce_variant_iff compactTablet paddedRow
    (Classifier.standard.classify paddedRow) adapts {} narrow there
  cases variants.symm.trans given
  cases variants.symm.trans given'
  exact ⟨adapts, variants, tablet (by decide), fun eq => stale ((mobile (by decide)).mp eq)⟩

end Stylesheet
end Handoff

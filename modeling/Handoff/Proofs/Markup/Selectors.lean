import Handoff.Proofs.Markup.Nesting
import Handoff.Proofs.Naming.Binding
import Handoff.Proofs.Stylesheet
/-!
# Which elements a rule of a style module is about

A rule of a style module is made for one node, and elements refer to it by the binding of that node's
class name. Class names differ from each other, bindings need not: a rule reaches the element of its own
node, and besides it the elements whose class names differ from its own in hyphens between digits only.

Result: `Emitter.moduleRules_refer_iff`.
-/
namespace Handoff

/-- An element refers to a rule of a style module by this name. -/
def ElementHead.RefersTo (h : ElementHead) (binding : String) : Prop :=
  .classRef (.binding binding) ∈ h.attributes

instance (h : ElementHead) (binding : String) : Decidable (h.RefersTo binding) :=
  inferInstanceAs (Decidable (_ ∈ _))

namespace Element

theorem refersTo_headOf {tag : String} {place : Place} {ref : ClassRef} {s : StyledLayer}
    {optimizeImages : Bool} (binding : String) :
    (headOf tag place ref s optimizeImages).RefersTo binding ↔ ref = .binding binding := by
  have role : .classRef (.binding binding) ∉ roleAttributes s :=
    fun h => ne_classRef_of_mem_roleAttributes h _ rfl
  have void : .classRef (.binding binding) ∉ voidAttributes tag s optimizeImages :=
    fun h => ne_classRef_of_mem_voidAttributes h _ rfl
  have click : .classRef (.binding binding) ∉ clickAttributes place s :=
    fun h => ne_classRef_of_mem_clickAttributes h _ rfl
  unfold ElementHead.RefersTo headOf
  dsimp only
  simp only [List.mem_append, List.mem_cons, role, click, or_false]
  by_cases isVoid : Tag.isVoid tag = true <;> by_cases button : (tag == "button") = true <;>
    simp [isVoid, button, void, eq_comm]

end Element

namespace Stylesheet

/-- All rules of a stylesheet, those in media blocks included. -/
def allRules (sheet : Stylesheet) : List StyleRule :=
  sheet.rules ++ sheet.media.flatMap MediaBlock.rules

/-- The class name of a rule is that of the node at its place. -/
def NamedAfter (root : Styled) (r : StyleRule) : Prop :=
  ∃ s, root.values[r.position]? = some s ∧ s.className = r.className

theorem exists_of_mem {root : Styled} {f : StyledLayer → Option StyleBag} {r : StyleRule}
    (h : r ∈ (numbered root).filterMap fun (position, layer) =>
      (f layer).bind fun styles => rule? position layer.className styles) :
    ∃ s, root.values[r.position]? = some s ∧ s.className = r.className ∧ f s = some r.styles := by
  obtain ⟨⟨position, s⟩, mem, made⟩ := List.mem_filterMap.mp h
  obtain ⟨⟨s', position'⟩, mem, eq⟩ := List.mem_map.mp mem
  cases eq
  obtain ⟨styles, given, rule⟩ := Option.bind_eq_some_iff.mp made
  unfold rule? at rule
  split at rule <;> cases rule
  exact ⟨_, List.mem_zipIdx_iff_getElem?.mp mem, rfl, given⟩

theorem exists_of_mem_overrides {root : Styled} {variant : Variants → StyleBag} {r : StyleRule}
    (h : r ∈ overrides root variant) :
    ∃ s, root.values[r.position]? = some s ∧ s.className = r.className ∧
      ∃ v, s.variants = some v ∧ StyleBag.diff (variant v) s.styles = r.styles := by
  obtain ⟨s, there, named, same⟩ := exists_of_mem
    (f := fun s => s.variants.map fun v => StyleBag.diff (variant v) s.styles)
    (by simpa [overrides, Option.bind_map, Function.comp_def] using h)
  exact ⟨s, there, named, Option.map_eq_some_iff.mp same⟩

theorem rules_of_block? {maxWidth : Nat} {rules : List StyleRule} {block : MediaBlock}
    (h : block? maxWidth rules = some block) : block.rules = rules := by
  unfold block? at h
  split at h <;> cases h
  rfl

/-- Every rule is about the styles of a node, or about what is different on one of the screens. -/
theorem mem_allRules {root : Styled} {widths : Option Breakpoints} {r : StyleRule}
    (h : r ∈ (ofStyled root widths).allRules) : r ∈ (ofStyled root widths).rules ∨
      r ∈ overrides root Variants.tablet ∨ r ∈ overrides root Variants.mobile := by
  refine (List.mem_append.mp h).imp_right fun rule => ?_
  obtain ⟨block, hb, hr⟩ := List.mem_flatMap.mp rule
  simp only [ofStyled] at hb
  unfold mediaOf at hb
  split at hb
  · cases hb
  · split at hb
    · simp only [List.mem_filterMap, List.mem_cons, List.not_mem_nil, or_false, id_eq,
        exists_eq_right] at hb
      rcases hb with tablet | mobile
      · exact .inl (rules_of_block? tablet.symm ▸ hr)
      · exact .inr (rules_of_block? mobile.symm ▸ hr)
    · cases hb

theorem namedAfter_of_mem_allRules {root : Styled} {widths : Option Breakpoints} {r : StyleRule}
    (h : r ∈ (ofStyled root widths).allRules) : NamedAfter root r := by
  rcases mem_allRules h with own | tablet | mobile
  · obtain ⟨s, there, named, -⟩ := exists_of_mem (f := fun s => some s.styles) own
    exact ⟨s, there, named⟩
  · obtain ⟨s, there, named, -⟩ := exists_of_mem_overrides tablet
    exact ⟨s, there, named⟩
  · obtain ⟨s, there, named, -⟩ := exists_of_mem_overrides mobile
    exact ⟨s, there, named⟩

end Stylesheet

namespace Styled

theorem className_ledByLetters {policy : Option ViewportPolicy} {n : Node} {c : Classification}
    {s : StyledLayer} (h : s ∈ (ofNode policy n c).values) : Naming.LedByLetters s.className := by
  obtain ⟨layer, -, verdict, namer, rfl⟩ := mem_values_ofNode h
  exact ClassNamer.next_ledByLetters namer layer.name verdict.category

end Styled

namespace Emitter
open Naming (moduleBinding fused)

/-- A rule of a style module is about the element of its own node, and about another element exactly if
their class names differ in hyphens between digits only. So all bindings of a component are distinct
exactly if no two of its class names differ in that only. -/
theorem moduleRules_refer_iff (e : Emitter) (policy : Option ViewportPolicy) (node : Node)
    (c : Classification) (options : EmissionOptions) :
    let root := Styled.ofNode policy node c
    let sheet := Stylesheet.ofStyled root (widthsFor root options)
    let element := e.element root .scopedModule options
    (∀ rule ∈ sheet.allRules, ∃ own, root.values[rule.position]? = some own ∧
      own.className = rule.className ∧
      List.Forall₂ (fun s h =>
          h.RefersTo (moduleBinding rule.className) ↔ fused s.className = fused own.className)
        root.values element.values) ∧
    ((root.values.map fun s => moduleBinding s.className).Nodup ↔
      (root.values.map fun s => fused s.className).Nodup) := by
  intro root sheet element
  have led : ∀ s ∈ root.values, Naming.LedByLetters s.className :=
    fun s hs => Styled.className_ledByLetters hs
  constructor
  · intro rule mem
    obtain ⟨own, there, named⟩ := Stylesheet.namedAfter_of_mem_allRules mem
    refine ⟨own, there, named, ?_⟩
    have ownLed := led own (List.mem_of_getElem? there)
    have along : List.Forall₂ _ root.walk element.walk :=
      Element.forall₂_walk_ofNode .root false root
    refine List.forall₂_map_left_iff.mpr (List.forall₂_map_right_iff.mpr ?_)
    refine ((List.forall₂_and_left _ _).mpr ⟨fun n hn => led _ (List.mem_map_of_mem hn), along⟩).imp ?_
    rintro ⟨s, children⟩ e ⟨sLed, place, inside, rfl⟩
    rw [Element.ofNode]
    refine (Element.refersTo_headOf _).trans ?_
    rw [← named]
    simp only [classAssignment, ClassRef.binding.injEq]
    exact Naming.moduleBinding_eq_iff sLed ownLed
  · rw [List.Nodup, List.Nodup, List.pairwise_map, List.pairwise_map]
    exact List.Pairwise.iff_of_mem fun ha hb =>
      not_congr (Naming.moduleBinding_eq_iff (led _ ha) (led _ hb))

/-- Two steps, one of them laid out as a row and the other one as a column. -/
def wizard : Node :=
  .node { id := "1", name := "Wizard", kind := .frame } [
    .leaf { id := "2", name := "Step 1 2", kind := .frame, layout := { mode := .horizontal } },
    .leaf { id := "3", name := "Step 12", kind := .frame, layout := { mode := .vertical } }]

def wizardStyled : Styled :=
  Styled.ofNode none wizard (Classifier.standard.classify wizard)

/-- Both steps have a rule, and both rules are about both steps: row or column is left to the later. -/
theorem moduleRules_refer_wizard :
    (wizardStyled.values.map fun s => (s.className, moduleBinding s.className)) =
      [("wizard", "wizard"), ("step-1-2", "step12"), ("step-12", "step12")] ∧
    (Stylesheet.ofStyled wizardStyled none).allRules.map StyleRule.position = [1, 2] ∧
    ¬(wizardStyled.values.map fun s => moduleBinding s.className).Nodup := by
  refine ⟨by decide +kernel, by decide +kernel, ?_⟩
  have condition := moduleRules_refer_iff {} none wizard (Classifier.standard.classify wizard) {}
  exact condition.2.not.mpr (by decide +kernel)

end Emitter
end Handoff

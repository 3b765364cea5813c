import Handoff.Proofs.Markup.Nesting
import Handoff.Proofs.Stylesheet
/-!
# Components that do not adapt

Whether widths of screens count for a component is settled once, at its root. Every layer of a styled
tree has variants of its own, and a verdict of its own on whether it adapts; where no widths count, none
of them is looked at, neither for the classes of an element nor for the rules of a stylesheet.

Results:
* `Emitter.emit_withoutVariants`: where no widths count, variants make no difference to the code.
* `Emitter.emit_of_not_adapts`: a component whose root does not adapt has the code that it has without
  variants and without widths.
-/
namespace Handoff

def StyledLayer.withoutVariants (s : StyledLayer) : StyledLayer :=
  { s with variants := none }

namespace Styled

theorem layerOf_none (policy : Option ViewportPolicy) (layer : Layer) (verdict : Verdict)
    (className : String) : layerOf none layer verdict className =
      (layerOf policy layer verdict className).withoutVariants := rfl

theorem ofNode_none (policy : Option ViewportPolicy) (node : Node) (c : Classification) :
    ofNode none node c = (ofNode policy node c).map StyledLayer.withoutVariants :=
  ofNode_of_layerOf (layerOf_none policy) node c

theorem adapts_ofNode (policy : ViewportPolicy) (node : Node) (c : Classification) :
    (ofNode (some policy) node c).adapts = policy.adapts node.value := by
  cases node
  cases c
  rfl

end Styled

theorem UtilityScale.nodeClasses_withoutVariants (scale : UtilityScale) (s : StyledLayer) :
    scale.nodeClasses none s.withoutVariants = scale.nodeClasses none s := by
  unfold nodeClasses
  cases s.variants <;> rfl

theorem Stylesheet.ofStyled_withoutVariants (root : Styled) :
    ofStyled (root.map StyledLayer.withoutVariants) none = ofStyled root none := by
  rw [ofStyled, numbered_map, List.filterMap_map]
  rfl

namespace Emitter

variable {root : Styled} {options : EmissionOptions}

theorem classAssignment_withoutVariants (e : Emitter) (style : StyleDialect) (place : Place)
    (s : StyledLayer) :
    e.classAssignment style none place s.withoutVariants = e.classAssignment style none place s := by
  cases style with
  | utility => exact congrArg ClassRef.names (e.utility.nodeClasses_withoutVariants s)
  | _ => rfl

theorem stylesheetText_withoutVariants (style : StyleDialect) (name tag : String) :
    stylesheetText (root.map StyledLayer.withoutVariants) style name tag none =
      stylesheetText root style name tag none := by
  simp only [stylesheetText, Stylesheet.ofStyled_withoutVariants]

theorem widthsFor_withoutVariants :
    widthsFor (root.map StyledLayer.withoutVariants) options = none := by
  rw [widthsFor, Styled.adapts, Tree.value_map]
  rfl

theorem element_withoutVariants (e : Emitter) (style : StyleDialect) (widths : Option Breakpoints)
    (uncounted : widthsFor root options = none) :
    e.element (root.map StyledLayer.withoutVariants) style { options with widths } =
      e.element root style options := by
  rw [element, element, uncounted, widthsFor_withoutVariants]
  refine Element.ofNode_map StyledLayer.withoutVariants (fun _ => rfl) (fun tag place s => ?_) ..
  rw [e.classAssignment_withoutVariants]
  rfl

/-- Where no widths count, neither variants nor widths make a difference to the code of a component. -/
theorem emit_withoutVariants (e : Emitter) (name : String) (dialect : Dialect)
    (widths : Option Breakpoints) (uncounted : widthsFor root options = none) :
    e.emit (root.map StyledLayer.withoutVariants) name dialect { options with widths } =
      e.emit root name dialect options := by
  have verdict : (root.map StyledLayer.withoutVariants).value.verdict = root.value.verdict := by
    rw [Tree.value_map]
    rfl
  simp only [emit, e.element_withoutVariants dialect.style widths uncounted, verdict, uncounted,
    widthsFor_withoutVariants, stylesheetText_withoutVariants]

/-- A component whose root does not adapt to its screen, whatever the nodes below it do, has the code
that it has without variants and without widths. -/
theorem emit_of_not_adapts (e : Emitter) (policy : ViewportPolicy) (node : Node) (c : Classification)
    (name : String) (dialect : Dialect) (options : EmissionOptions) (widths : Breakpoints)
    (fixed : policy.adapts node.value = false) :
    e.emit (Styled.ofNode (some policy) node c) name dialect { options with widths := some widths } =
      e.emit (Styled.ofNode none node c) name dialect { options with widths := none } := by
  have uncounted : widthsFor (Styled.ofNode (some policy) node c)
      { options with widths := some widths } = none := by
    rw [widthsFor, Styled.adapts_ofNode, fixed]
    rfl
  rw [Styled.ofNode_none (some policy)]
  exact (e.emit_withoutVariants name dialect none uncounted).symm

/-- A page that lays nothing out, with a row in it that does. -/
def rowPage : Node :=
  .node { id := "1", name := "Page" }
    [.leaf { id := "2", name := "Row", layout := { mode := .horizontal, padding := .uniform 24 } }]

/-- The row adapts to its screen and the page does not. -/
theorem emit_rowPage :
    let policy : ViewportPolicy := {}
    let c := Classifier.standard.classify rowPage
    let dialect : Dialect := ⟨.componentized, .utility, nofun⟩
    policy.adapts rowPage.value = false ∧ (∃ row ∈ rowPage.children, policy.adapts row.value = true) ∧
      Emitter.emit {} (Styled.ofNode (some policy) rowPage c) "Page" dialect { widths := some {} } =
        Emitter.emit {} (Styled.ofNode none rowPage c) "Page" dialect { widths := none } :=
  ⟨rfl, ⟨_, List.mem_cons_self .., rfl⟩, emit_of_not_adapts _ _ rowPage _ _ _ {} _ rfl⟩

end Emitter
end Handoff

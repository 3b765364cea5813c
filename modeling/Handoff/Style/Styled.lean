import Handoff.Classification
import Handoff.Naming
import Handoff.Style.Resolve
import Handoff.Viewport
/-!
# Styled trees

A styled tree pairs every node of a scene with what is known of it, a class name of its own, its
styles and, where asked for, their variants. Class names are given out in the order of the walk.
-/
namespace Handoff

/-- A node with all that its markup and its rules are made from. -/
structure StyledLayer where
  layer : Layer
  verdict : Verdict
  className : String
  styles : StyleBag
  /-- The styles on each kind of screen, where asked for. -/
  variants : Option Variants
deriving Inhabited

def StyledLayer.adapts (s : StyledLayer) : Bool :=
  s.variants.any Variants.adapts

abbrev Styled := Tree StyledLayer

namespace Styled

/-- One node of a styled tree. -/
def layerOf (policy : Option ViewportPolicy) (layer : Layer) (verdict : Verdict)
    (className : String) : StyledLayer :=
  let styles := layer.resolve
  { layer, verdict, className, styles, variants := policy.map fun p => p.variants layer styles }

/-- The styled tree of a node with its classification, and the namer after it. -/
def build (policy : Option ViewportPolicy) (namer : ClassNamer) :
    Node → Classification → Styled × ClassNamer
  | .node layer children, .node verdict verdicts =>
    let (className, namer) := namer.next layer.name verdict.category.label
    let (below, namer) := buildAll namer children verdicts
    (.node (layerOf policy layer verdict className) below, namer)
where
  buildAll (namer : ClassNamer) : List Node → List Classification → List Styled × ClassNamer
    | n :: ns, c :: cs =>
      let (first, namer) := build policy namer n c
      let (rest, namer) := buildAll namer ns cs
      (first :: rest, namer)
    | _, _ => ([], namer)

/-- The styled tree of a node with its classification. -/
def ofNode (policy : Option ViewportPolicy) (node : Node) (classification : Classification) :
    Styled :=
  (build policy {} node classification).1

def adapts (s : Styled) : Bool :=
  s.value.adapts

end Styled
end Handoff

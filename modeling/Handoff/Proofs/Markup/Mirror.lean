import Handoff.Proofs.Classification
import Handoff.Proofs.Markup.Nesting
/-!
# One element for every node

Nothing of a scene is left out of its markup: the tree of elements has the shape of the tree of
nodes, and every element refers to the rule of the node that stands in its place. Elements without
content end a branch, and they are only built for nodes that end one too.

Results:
* `Element.map_classRefs_build`: the references of a built tree, each in its place.
* `Element.build_mirrors`: the element of a component mirrors its scene.
-/
namespace Handoff

/-- The rule that an attribute refers to, if it is a reference. -/
def Attribute.classRef? : Attribute → Option ClassRef
  | .classRef ref => some ref
  | _ => none

def ElementHead.classRefs (h : ElementHead) : List ClassRef :=
  h.attributes.filterMap Attribute.classRef?

/-- One reference for every node of a component: the root is asked for as such, the others as inner
nodes. -/
def Styled.references (classOf : ClassAssignment) : Styled → Tree (List ClassRef)
  | .node s children =>
    .node [classOf .root s] (children.map (Tree.map fun inner => [classOf .inner inner]))

namespace Element

variable {tags : TagTable} {optimizeImages : Bool} {classOf : ClassAssignment}

theorem filterMap_classRef?_eq_nil {attributes : List Attribute}
    (h : ∀ a ∈ attributes, ∀ ref, a ≠ .classRef ref) :
    attributes.filterMap Attribute.classRef? = [] := by
  rw [List.filterMap_eq_nil_iff]
  intro a ha
  cases a with
  | classRef ref => exact absurd rfl (h _ ha ref)
  | _ => rfl

theorem classRefs_headOf (tag : String) (place : Place) (ref : ClassRef) (s : StyledLayer) :
    (headOf tag place ref s optimizeImages).classRefs = [ref] := by
  have button : (if tag == "button" then [Attribute.buttonType] else []).filterMap
      Attribute.classRef? = [] := by split <;> rfl
  have void : (if Tag.isVoid tag then voidAttributes tag s optimizeImages else []).filterMap
      Attribute.classRef? = [] := by
    split
    · exact filterMap_classRef?_eq_nil fun a => ne_classRef_of_mem_voidAttributes
    · rfl
  have role := filterMap_classRef?_eq_nil fun a (h : a ∈ roleAttributes s) =>
    ne_classRef_of_mem_roleAttributes h
  have click := filterMap_classRef?_eq_nil fun a (h : a ∈ clickAttributes place s) =>
    ne_classRef_of_mem_clickAttributes h
  unfold ElementHead.classRefs headOf
  dsimp only
  rw [List.cons_append, List.cons_append, List.cons_append, List.filterMap_cons]
  simp only [Attribute.classRef?, List.filterMap_append]
  rw [button, void, role, click]
  rfl

theorem map_classRefs_inner (inside : Bool) (n : Styled) :
    (ofNode tags optimizeImages classOf .inner inside n).map ElementHead.classRefs =
      n.map fun s => [classOf .inner s] := by
  induction n using Tree.ind generalizing inside with
  | node s children ih =>
    rw [ofNode, ofNodes_eq, Tree.map_node, Tree.map_node, classRefs_headOf, List.map_map]
    exact congrArg _ (List.map_congr_left fun c hc => ih c hc _)

/-- The references of a built tree are those of its nodes, each in its place. -/
theorem map_classRefs_build (root : Styled) :
    (build tags optimizeImages classOf root).map ElementHead.classRefs =
      root.references classOf := by
  cases root with
  | node s children =>
    unfold build
    rw [ofNode, ofNodes_eq, Tree.map_node, classRefs_headOf, List.map_map, Styled.references]
    exact congrArg _ (List.map_congr_left fun c _ => map_classRefs_inner _ c)

/-- A built tree has the shape of what it is built from, whatever that is seen to carry. -/
theorem sameShape_ofNode {α : Type} (carried : StyledLayer → α) (place : Place) (inside : Bool)
    (n : Styled) :
    (n.map carried).sameShape (ofNode tags optimizeImages classOf place inside n) = true := by
  induction n using Tree.ind generalizing place inside with
  | node s children ih =>
    rw [ofNode, ofNodes_eq, Tree.map_node, Tree.sameShape_iff]
    refine List.forall₂_map_left_iff.mpr (List.forall₂_map_right_iff.mpr ?_)
    exact List.forall₂_same.mpr fun c hc => ih c hc .inner _

theorem children_of_isVoid {place : Place} {inside : Bool} {root : Styled} {u : Element}
    (h : u ∈ (ofNode tags optimizeImages classOf place inside root).walk)
    (void : Tag.isVoid u.value.tag = true) : u.children = [] ∧ u.value.text = none := by
  obtain ⟨⟨s, children⟩, -, place, inside, rfl⟩ := mem_walk_ofNode h
  rw [ofNode] at void ⊢
  have childless := List.isEmpty_iff.mp (isLeaf_of_isVoid_tagOf void)
  subst childless
  exact ⟨rfl, if_pos void⟩

/-- The element of a component mirrors its scene. Every node has one element, in the same shape and
order, which refers to the rule of that node and to no other; and no element without content has
children or a text in it, so that nothing of the scene is dropped with it. -/
theorem build_mirrors (tags : TagTable) (optimizeImages : Bool) (classOf : ClassAssignment)
    (policy : Option ViewportPolicy) (classifier : Classifier) (root : Node) :
    let styled := Styled.ofNode policy root (classifier.classify root)
    let element := build tags optimizeImages classOf styled
    root.sameShape element = true ∧ styled.map StyledLayer.layer = root ∧
      element.map ElementHead.classRefs = styled.references classOf ∧
      ∀ u ∈ element.walk, Tag.isVoid u.value.tag = true →
        u.children = [] ∧ u.value.text = none := by
  intro styled element
  have scene : styled.map StyledLayer.layer = root :=
    Styled.map_layer_ofNode policy (classifier.sameShape_classify root)
  have refs : element.map ElementHead.classRefs = styled.references classOf :=
    map_classRefs_build styled
  have shape : root.sameShape element = true := scene ▸ sameShape_ofNode _ .root false styled
  exact ⟨shape, scene, refs, fun u hu void => children_of_isVoid hu void⟩

end Element
end Handoff

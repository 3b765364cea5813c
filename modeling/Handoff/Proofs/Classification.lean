import Handoff.Classification
import Handoff.Proofs.Tree
/-!
# The classification of a scene

Result: `sameShape_classify`, the classification of a node has the shape of the node.
-/
namespace Handoff.Classifier

theorem classifyAll_eq (c : Classifier) (ns : List Node) :
    classify.classifyAll c ns = ns.map c.classify := by
  induction ns with
  | nil => rfl
  | cons n ns ih => rw [classify.classifyAll, ih, List.map_cons]

theorem children_classify (c : Classifier) (n : Node) :
    (c.classify n).children = n.children.map c.classify := by
  cases n
  rw [classify, classifyAll_eq]
  rfl

/-- The classification of a node has the shape of the node. -/
theorem sameShape_classify (c : Classifier) (n : Node) : n.sameShape (c.classify n) = true := by
  induction n using Tree.ind with
  | node layer children ih =>
    rw [Tree.sameShape_iff, children_classify, List.forall₂_map_right_iff]
    exact List.forall₂_same.mpr ih

end Handoff.Classifier

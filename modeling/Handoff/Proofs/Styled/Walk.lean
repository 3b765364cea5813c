import Handoff.Proofs.Classification
import Handoff.Proofs.Naming.Distinct
import Handoff.Proofs.Tree.Path
/-!
# One walk for a scene and its styled tree

A scene is walked with a stack, and its styled tree is walked with a stack and built by recursion. All
three come to the nodes in preorder, so that what is given out along the way, class names above all,
goes to the nodes in the order in which they are walked.

Results:
* `BuiltFor.walk`: node by node, the walk of a styled tree is that of its scene.
* `walk_ofNode`: the walks, the class names along them, and what is counted and tested below the root.
-/
namespace Handoff.Styled

/-- A styled node stands for a node of the scene: it has the layer and the verdict of that node, and the
styles that belong to them. -/
structure StandsFor (policy : Option ViewportPolicy) (classifier : Classifier) (n : Node) (s : Styled) :
    Prop where
  layer : s.value.layer = n.value
  verdict : s.value.verdict = (classifier.classify n).value
  styles : s.value.styles = n.value.resolve
  variants : s.value.variants = policy.map fun p => p.variants n.value n.value.resolve

variable {policy : Option ViewportPolicy} {classifier : Classifier}

/-- A styled tree is that of a node of the scene, whatever names were free when it was built. -/
def BuiltFor (policy : Option ViewportPolicy) (classifier : Classifier) (n : Node) (s : Styled) : Prop :=
  ∃ namer, s = (build policy namer n (classifier.classify n)).1

theorem BuiltFor.standsFor {n : Node} {s : Styled} (h : BuiltFor policy classifier n s) :
    StandsFor policy classifier n s := by
  obtain ⟨namer, rfl⟩ := h
  cases n
  exact ⟨rfl, rfl, rfl, rfl⟩

theorem builtFor_buildAll (ns : List Node) (namer : ClassNamer) :
    List.Forall₂ (BuiltFor policy classifier) ns
      (build.buildAll policy namer ns (ns.map classifier.classify)).1 := by
  induction ns generalizing namer with
  | nil => exact .nil
  | cons n ns ih => exact .cons ⟨namer, rfl⟩ (ih _)

theorem BuiltFor.children {n : Node} {s : Styled} (h : BuiltFor policy classifier n s) :
    List.Forall₂ (BuiltFor policy classifier) n.children s.children := by
  obtain ⟨namer, rfl⟩ := h
  cases n with
  | node layer children =>
    rw [Classifier.classify, Classifier.classifyAll_eq, build]
    exact builtFor_buildAll children _

/-- The walk of a styled tree comes to what stands for each node of the scene, in order. -/
theorem BuiltFor.walk {n : Node} {s : Styled} (h : BuiltFor policy classifier n s) :
    List.Forall₂ (StandsFor policy classifier) n.walk s.walk :=
  (Tree.forall₂_walk (fun _ _ => BuiltFor.children) h).imp fun _ _ => BuiltFor.standsFor

theorem BuiltFor.paths {n : Node} {s : Styled} (h : BuiltFor policy classifier n s) :
    s.paths = n.paths := by
  obtain ⟨namer, rfl⟩ := h
  have scene : (build policy namer n (classifier.classify n)).1.map StyledLayer.layer = n :=
    map_layer_build (classifier.sameShape_classify n) namer
  rw [← Tree.paths_map StyledLayer.layer, scene]

/-- Names are asked for with what the nodes of the scene are called and classified as. -/
theorem BuiltFor.requests {n : Node} {s : Styled} (h : BuiltFor policy classifier n s) :
    s.values.map StyledLayer.request = n.walk.map fun m =>
      (m.value.name, (classifier.classify m).value.category.label) := by
  rw [Tree.values, List.map_map, eq_comm, ← List.forall₂_eq_eq_eq, List.forall₂_map_left_iff,
    List.forall₂_map_right_iff]
  refine h.walk.imp fun m t stands => ?_
  rw [Function.comp_apply, StyledLayer.request, stands.layer, stands.verdict]

/-- The walk of a scene is its preorder. It comes to the end of every path once, in the order of the
paths; the walk of the styled tree comes to what stands for each of these nodes, in the same places; and
a new namer that is asked for the nodes of the walk gives out the class names of the styled tree. Below
the root there is one node less than in the tree, and only these are tested for a condition on what is
below. -/
theorem walk_ofNode (policy : Option ViewportPolicy) (classifier : Classifier) (n : Node) :
    let styled := ofNode policy n (classifier.classify n)
    (n.walk = n.preorder ∧ n.walk.map some = n.paths.map n.at? ∧ n.paths.Pairwise (· < ·) ∧
      ∀ path, path ∈ n.paths ↔ (n.at? path).isSome = true) ∧
    (styled.walk.map some = n.paths.map styled.at? ∧
      List.Forall₂ (StandsFor policy classifier) n.walk styled.walk) ∧
    styled.walk.map (fun s => s.value.className) = (ClassNamer.run {} (n.walk.map fun m =>
      (m.value.name, (classifier.classify m).value.category.label))).1 ∧
    n.descendantCount + 1 = n.size ∧
    ∀ p, n.anyDescendant p = true ↔ ∃ path m, path ≠ [] ∧ n.at? path = some m ∧ p m = true := by
  intro styled
  have built : BuiltFor policy classifier n styled := ⟨{}, rfl⟩
  have names : (ClassNamer.run {} (styled.values.map StyledLayer.request)).1 =
      styled.values.map StyledLayer.className :=
    congrArg Prod.fst (run_build policy {} n (classifier.classify n))
  refine ⟨⟨n.walk_eq_preorder, n.map_at?_paths.symm, n.pairwise_paths, fun _ => Tree.mem_paths_iff⟩,
    ⟨?_, built.walk⟩, ?_, n.descendantCount_add_one, fun _ => Tree.anyDescendant_iff⟩
  · rw [← built.paths, Tree.map_at?_paths]
  · rw [← built.requests, names, Tree.values, List.map_map]
    rfl

end Handoff.Styled

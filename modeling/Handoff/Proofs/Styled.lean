import Handoff.Proofs.Text.Words
import Handoff.Proofs.Tree
import Handoff.Style.Styled
/-!
# What a styled tree carries

Results:
* `Styled.mem_values_ofNode`: every node of a styled tree is one of the scene's layers with a verdict
  and a class name that was given out for it.
* `Styled.className_chars`: class names are letters, digits and hyphens.
* `Styled.map_layer_ofNode`: a styled tree carries the layers of its scene, each in its place.
* `Styled.ofNode_of_layerOf`: what another policy changes in a layer it changes in every layer of a tree.
-/
namespace Handoff.Styled

/-- A styled layer is made from a layer, a verdict and the next name of some namer. -/
def MadeFrom (policy : Option ViewportPolicy) (layers : List Layer) (s : StyledLayer) : Prop :=
  ∃ layer ∈ layers, ∃ verdict : Verdict, ∃ namer : ClassNamer,
    s = layerOf policy layer verdict (namer.next layer.name verdict.category.label).1

theorem mem_buildAll {policy : Option ViewportPolicy} {ns : List Node} {namer : ClassNamer}
    {cs : List Classification} {t : Styled} (h : t ∈ (build.buildAll policy namer ns cs).1) :
    ∃ n ∈ ns, ∃ namer c, t = (build policy namer n c).1 := by
  induction ns generalizing namer cs with
  | nil => cases cs <;> cases h
  | cons n ns ih =>
    cases cs with
    | nil => cases h
    | cons c cs =>
      rcases List.mem_cons.mp h with rfl | h
      · exact ⟨n, List.mem_cons_self .., namer, c, rfl⟩
      · obtain ⟨m, hm, made⟩ := ih h
        exact ⟨m, List.mem_cons_of_mem _ hm, made⟩

theorem mem_values_build {policy : Option ViewportPolicy} {n : Node} {namer : ClassNamer}
    {c : Classification} {s : StyledLayer} (h : s ∈ (build policy namer n c).1.values) :
    MadeFrom policy n.values s := by
  induction n using Tree.ind generalizing namer c s with
  | node layer children ih =>
    cases c with
    | node verdict verdicts =>
      rw [Tree.values_node]
      simp only [build, Tree.values_node] at h
      rcases List.mem_cons.mp h with rfl | h
      · exact ⟨layer, List.mem_cons_self .., verdict, namer, rfl⟩
      · obtain ⟨t, ht, hs⟩ := List.mem_flatMap.mp h
        obtain ⟨m, hm, namer', c', rfl⟩ := mem_buildAll ht
        obtain ⟨l, hl, made⟩ := ih m hm hs
        exact ⟨l, List.mem_cons_of_mem _ (List.mem_flatMap.mpr ⟨m, hm, hl⟩), made⟩

/-- Every node of a styled tree is one of the scene's layers with a verdict and a class name that was
given out for it. -/
theorem mem_values_ofNode {policy : Option ViewportPolicy} {n : Node} {c : Classification}
    {s : StyledLayer} (h : s ∈ (ofNode policy n c).values) : MadeFrom policy n.values s :=
  mem_values_build h

/-- Class names are letters, digits and hyphens. -/
theorem className_chars {policy : Option ViewportPolicy} {n : Node} {c : Classification}
    {s : StyledLayer} (h : s ∈ (ofNode policy n c).values) :
    Consists isNameChar s.className.toList := by
  obtain ⟨layer, -, verdict, namer, rfl⟩ := mem_values_ofNode h
  exact ClassNamer.next_chars namer layer.name (Category.label_worded _)

theorem map_layer_buildAll {policy : Option ViewportPolicy} {ns : List Node} {cs : List Classification}
    (each : ∀ n ∈ ns, ∀ namer c, n.sameShape c = true →
      (build policy namer n c).1.map StyledLayer.layer = n)
    (shape : List.Forall₂ (fun n c => Tree.sameShape n c = true) ns cs) (namer : ClassNamer) :
    (build.buildAll policy namer ns cs).1.map (Tree.map StyledLayer.layer) = ns := by
  induction shape generalizing namer with
  | nil => rfl
  | cons first rest ih =>
    simp only [build.buildAll, List.map_cons]
    rw [each _ (List.mem_cons_self ..) _ _ first, ih fun n hn => each n (List.mem_cons_of_mem _ hn)]

theorem map_layer_build {policy : Option ViewportPolicy} {n : Node} {c : Classification}
    (shape : n.sameShape c = true) (namer : ClassNamer) :
    (build policy namer n c).1.map StyledLayer.layer = n := by
  induction n using Tree.ind generalizing namer c with
  | node layer children ih =>
    cases c with
    | node verdict verdicts =>
      have below := map_layer_buildAll (fun n hn namer c h => ih n hn h namer)
        (Tree.sameShape_iff.mp shape)
      simp only [build, Tree.map_node, layerOf]
      exact congrArg _ (below _)

/-- A styled tree carries the layers of its scene, each in its place. -/
theorem map_layer_ofNode (policy : Option ViewportPolicy) {n : Node} {c : Classification}
    (shape : n.sameShape c = true) : (ofNode policy n c).map StyledLayer.layer = n :=
  map_layer_build shape {}

/-! ## Another policy -/

section
variable {p q : Option ViewportPolicy} {f : StyledLayer → StyledLayer}

theorem buildAll_of_build {ns : List Node}
    (each : ∀ n ∈ ns, ∀ namer c,
      build q namer n c = ((build p namer n c).1.map f, (build p namer n c).2))
    (namer : ClassNamer) (cs : List Classification) :
    build.buildAll q namer ns cs =
      ((build.buildAll p namer ns cs).1.map (Tree.map f), (build.buildAll p namer ns cs).2) := by
  induction ns generalizing namer cs with
  | nil => cases cs <;> rfl
  | cons n ns ih =>
    cases cs with
    | nil => rfl
    | cons c cs =>
      simp only [build.buildAll, each n (List.mem_cons_self ..), List.map_cons,
        ih fun m hm => each m (List.mem_cons_of_mem _ hm)]

theorem build_of_layerOf
    (each : ∀ layer verdict className,
      layerOf q layer verdict className = f (layerOf p layer verdict className)) (node : Node) :
    ∀ namer c, build q namer node c = ((build p namer node c).1.map f, (build p namer node c).2) := by
  induction node using Tree.ind with
  | node layer children ih =>
    rintro namer ⟨verdict, verdicts⟩
    simp only [build, buildAll_of_build ih, Tree.map_node, each]

/-- What another policy changes in a layer it changes in every layer of a tree, and nothing else: names
are given out as before. -/
theorem ofNode_of_layerOf
    (each : ∀ layer verdict className,
      layerOf q layer verdict className = f (layerOf p layer verdict className)) (node : Node)
    (c : Classification) : ofNode q node c = (ofNode p node c).map f := by
  rw [ofNode, build_of_layerOf each]
  rfl

end

end Handoff.Styled

import Handoff.Proofs.Classification
import Handoff.Proofs.Styled
/-!
# Scenes without their hidden paints and effects

A paint or an effect that is not shown can be taken out of a scene. The styles of a layer only ever
look at those shown, so a styled tree stays as it is but for the layers that it carries and for one
thing that is counted without a look at what is shown: how involved a node is.

Results:
* `Layer.resolve_withoutHidden`: a layer keeps its styles.
* `Classifier.classify_withoutHidden`, `Styled.ofNode_withoutHidden`: what is known of a scene, and
  its styled tree, complexity aside.
-/
namespace Handoff

/-! ## Layers -/

/-- The layer without the paints and effects that are not shown. -/
def Layer.withoutHidden (l : Layer) : Layer :=
  { l with
    fills := l.fills.filter Paint.isVisible
    strokes := l.strokes.filter Paint.isVisible
    effects := l.effects.filter Effect.isVisible
    typography := l.typography.map fun t => { t with fills := t.fills.filter Paint.isVisible } }

theorem Paint.firstSolid?_filter (paints : List Paint) :
    firstSolid? (paints.filter isVisible) = firstSolid? paints := by
  simp only [firstSolid?, List.filter_filter, Bool.and_self]

namespace Layer

variable (l : Layer)

theorem backgroundStyles_withoutHidden : l.withoutHidden.backgroundStyles = l.backgroundStyles := by
  simp only [backgroundStyles, withoutHidden, Paint.firstSolid?_filter, List.filter_filter,
    Bool.and_self]

theorem borderStyles_withoutHidden : l.withoutHidden.borderStyles = l.borderStyles := by
  simp only [borderStyles, withoutHidden, Paint.firstSolid?_filter]

theorem effectStyles_withoutHidden : l.withoutHidden.effectStyles = l.effectStyles := by
  simp only [effectStyles, withoutHidden, List.filter_filter, Bool.and_self]

theorem textStyles_withoutHidden : l.withoutHidden.textStyles = l.textStyles := by
  unfold textStyles withoutHidden
  dsimp only
  cases l.typography with
  | none => rfl
  | some t => simp only [Option.map_some, Paint.firstSolid?_filter]

/-- No image is shown that was not there. -/
theorem hasImageFill_of_withoutHidden {l : Layer} (h : l.withoutHidden.hasImageFill = true) :
    l.hasImageFill = true := by
  obtain ⟨p, hp, kind⟩ := List.any_eq_true.mp h
  exact List.any_eq_true.mpr ⟨p, (List.mem_filter.mp hp).1, kind⟩

/-- A layer keeps its styles. -/
theorem resolve_withoutHidden : l.withoutHidden.resolve = l.resolve := by
  have same : l.withoutHidden.declarations = l.declarations := by
    unfold declarations
    rw [backgroundStyles_withoutHidden, borderStyles_withoutHidden, effectStyles_withoutHidden,
      textStyles_withoutHidden]
    rfl
  rw [resolve, resolve, same]

end Layer

/-! ## Classification -/

def Verdict.plain (v : Verdict) : Verdict :=
  { v with complexity := .simple }

namespace Classifier

/-- Whatever is known of a scene, complexity aside, does not come from hidden paints and effects. -/
theorem classify_withoutHidden (c : Classifier) (n : Node) :
    (c.classify (n.map Layer.withoutHidden)).map Verdict.plain = (c.classify n).map Verdict.plain := by
  induction n using Tree.ind with
  | node layer children ih =>
    have below : (children.map fun n => c.classify (n.map Layer.withoutHidden)).map
        (Tree.map Verdict.plain) = (children.map c.classify).map (Tree.map Verdict.plain) := by
      rw [List.map_map, List.map_map]
      exact List.map_congr_left ih
    have interactive (ts : List Classification) : (ts.any fun t => t.value.isInteractive) =
        (ts.map (Tree.map Verdict.plain)).any fun t => t.value.isInteractive := by
      rw [List.any_map]
      exact congrArg (List.any ts) (funext fun t => by cases t; rfl)
    have root : (c.verdict layer.withoutHidden children.length
          ((children.map fun n => c.classify (n.map Layer.withoutHidden)).any fun t =>
            t.value.isInteractive)).plain =
        (c.verdict layer children.length
          ((children.map c.classify).any fun t => t.value.isInteractive)).plain := by
      rw [interactive, below, ← interactive]
      rfl
    rw [Tree.map_node, classify, classify, classifyAll_eq, classifyAll_eq, List.map_map,
      List.length_map, Tree.map_node, Tree.map_node]
    exact congr (congrArg Tree.node root) below

end Classifier

/-! ## Styled trees -/

namespace StyledLayer

/-- The styled layer, however involved the node is. -/
def plain (s : StyledLayer) : StyledLayer :=
  { s with verdict := s.verdict.plain }

/-- The styled layer without hidden paints and effects. -/
def withoutHidden (s : StyledLayer) : StyledLayer :=
  { s with layer := s.layer.withoutHidden }

end StyledLayer

namespace Styled

theorem layerOf_withoutHidden (policy : Option ViewportPolicy) (layer : Layer) {v w : Verdict}
    (alike : v.plain = w.plain) (className : String) :
    (layerOf policy layer.withoutHidden v className).plain =
      (layerOf policy layer w className).withoutHidden.plain := by
  have variants (p : ViewportPolicy) (bag : StyleBag) :
      p.variants layer.withoutHidden bag = p.variants layer bag := rfl
  simp only [layerOf, StyledLayer.plain, StyledLayer.withoutHidden, Layer.resolve_withoutHidden,
    variants, alike]

theorem buildAll_withoutHidden {policy : Option ViewportPolicy} {ns : List Node}
    (each : ∀ n ∈ ns, ∀ namer (c d : Classification), c.map Verdict.plain = d.map Verdict.plain →
      (build policy namer (n.map Layer.withoutHidden) c).1.map StyledLayer.plain =
          ((build policy namer n d).1.map StyledLayer.withoutHidden).map StyledLayer.plain ∧
        (build policy namer (n.map Layer.withoutHidden) c).2 = (build policy namer n d).2)
    {cs ds : List Classification}
    (alike : cs.map (Tree.map Verdict.plain) = ds.map (Tree.map Verdict.plain)) (namer : ClassNamer) :
    (build.buildAll policy namer (ns.map (Tree.map Layer.withoutHidden)) cs).1.map
          (Tree.map StyledLayer.plain) =
        ((build.buildAll policy namer ns ds).1.map (Tree.map StyledLayer.withoutHidden)).map
          (Tree.map StyledLayer.plain) ∧
      (build.buildAll policy namer (ns.map (Tree.map Layer.withoutHidden)) cs).2 =
        (build.buildAll policy namer ns ds).2 := by
  induction ns generalizing cs ds namer with
  | nil => exact ⟨rfl, rfl⟩
  | cons n ns ih =>
    cases cs with
    | nil => cases ds with
      | nil => exact ⟨rfl, rfl⟩
      | cons d ds => cases alike
    | cons c cs => cases ds with
      | nil => cases alike
      | cons d ds =>
        obtain ⟨first, rest⟩ := List.cons.inj alike
        obtain ⟨here, after⟩ := each n (List.mem_cons_self ..) namer c d first
        obtain ⟨later, last⟩ := ih (fun m hm => each m (List.mem_cons_of_mem _ hm)) rest
          (build policy namer n d).2
        simp only [List.map_cons, build.buildAll, after, here, later, last, and_self]

theorem build_withoutHidden {policy : Option ViewportPolicy} (n : Node) :
    ∀ namer (c d : Classification), c.map Verdict.plain = d.map Verdict.plain →
      (build policy namer (n.map Layer.withoutHidden) c).1.map StyledLayer.plain =
          ((build policy namer n d).1.map StyledLayer.withoutHidden).map StyledLayer.plain ∧
        (build policy namer (n.map Layer.withoutHidden) c).2 = (build policy namer n d).2 := by
  induction n using Tree.ind with
  | node layer children ih =>
    rintro namer ⟨v, cs⟩ ⟨w, ds⟩ alike
    rw [Tree.map_node, Tree.map_node] at alike
    obtain ⟨verdict, below⟩ := Tree.node.inj alike
    have category : v.category = w.category :=
      show v.plain.category = w.plain.category by rw [verdict]
    obtain ⟨children', after⟩ := buildAll_withoutHidden ih below
      (namer.next layer.name w.category.label).2
    have name : layer.withoutHidden.name = layer.name := rfl
    simp only [build, Tree.map_node, name, category, layerOf_withoutHidden policy layer verdict,
      children', after, and_self]

/-- A styled tree is, complexity aside, that of the scene with its layers as they are shown. -/
theorem ofNode_withoutHidden (policy : Option ViewportPolicy) (c : Classifier) (n : Node) :
    (ofNode policy (n.map Layer.withoutHidden) (c.classify (n.map Layer.withoutHidden))).map
        StyledLayer.plain =
      ((ofNode policy n (c.classify n)).map StyledLayer.withoutHidden).map StyledLayer.plain :=
  (build_withoutHidden n {} _ _ (c.classify_withoutHidden n)).1

end Styled
end Handoff

import Handoff.Proofs.Markup.Content
import Handoff.Proofs.Scene.Hidden
import Handoff.Session
import Mathlib.Data.List.Flatten
/-!
# What hidden paints do to markup and audits

An image fill that is not shown still makes an image of a node without children whose name asks for
nothing, still names the picture if it comes first, and still calls for a text in the picture's place.
Nothing else that is hidden leaves a trace, in the elements of a component or in the issues of its
audit.

Results:
* `Element.ofNode_withoutHidden_iff`: which elements stay as they are without what is hidden.
* `Auditor.issuesAt_withoutHidden_iff`: which layers keep their issues.
* `Settings.withoutHidden_iff`: both, for a scene and its component.
-/
namespace Handoff

open List

/-! ## Elements -/

namespace Element

variable {tags : TagTable} {optimizeImages : Bool} {classOf : ClassAssignment}

/-- The element of a node does not tell how involved the node is, unless its class does. -/
theorem ofNode_plain (blind : ∀ place s, classOf place s.plain = classOf place s) (place : Place)
    (inside : Bool) (n : Styled) :
    ofNode tags optimizeImages classOf place inside (n.map StyledLayer.plain) =
      ofNode tags optimizeImages classOf place inside n := by
  refine ofNode_map StyledLayer.plain (fun _ => rfl) (fun tag place s => ?_) place inside n
  rw [blind]
  rfl

/-- Only a node without children that an image fill makes an image may have another tag without what
is hidden, a plain one. -/
theorem ownTag_withoutHidden (tags : TagTable) (l : Layer) (isLeaf : Bool) :
    ownTag tags l.withoutHidden isLeaf = ownTag tags l isLeaf ∨
      ownTag tags l isLeaf = "img" ∧ ownTag tags l.withoutHidden isLeaf ∈ ["span", "div"] := by
  have name : l.withoutHidden.name = l.name := rfl
  have text : l.withoutHidden.isText = l.isText := rfl
  unfold ownTag
  rw [name, text]
  cases (tags.tag? l.name).filter fun tag => isLeaf || !Tag.isVoid tag with
  | some tag => exact .inl rfl
  | none =>
    dsimp only
    by_cases image : (l.hasImageFill && isLeaf) = true
    · by_cases kept : (l.withoutHidden.hasImageFill && isLeaf) = true
      · exact .inl (by rw [if_pos image, if_pos kept])
      · refine .inr ⟨if_pos image, ?_⟩
        rw [if_neg kept]
        cases l.isText <;> decide
    · have none : ¬(l.withoutHidden.hasImageFill && isLeaf) = true := fun h => by
        obtain ⟨shown, leaf⟩ := Bool.and_eq_true_iff.mp h
        exact image (Bool.and_eq_true_iff.mpr ⟨Layer.hasImageFill_of_withoutHidden shown, leaf⟩)
      exact .inl (by rw [if_neg image, if_neg none])

/-- What is hidden does not decide what stands inside an interactive element. -/
theorem isInteractive_tagOf_withoutHidden (tags : TagTable) (l : Layer) (isLeaf inside : Bool) :
    Tag.isInteractive (tagOf tags l.withoutHidden isLeaf inside) =
      Tag.isInteractive (tagOf tags l isLeaf inside) := by
  unfold tagOf
  dsimp only
  rcases ownTag_withoutHidden tags l isLeaf with same | ⟨image, plain⟩
  · rw [same]
  · have notInteractive : Tag.isInteractive (ownTag tags l.withoutHidden isLeaf) = false := by
      rcases mem_cons.mp plain with eq | plain
      · rw [eq]; decide
      · rw [mem_singleton.mp plain]; decide
    rw [image, notInteractive]
    simp only [Bool.and_false, Bool.false_eq_true, if_false, notInteractive]
    cases inside <;> decide

/-- A node keeps its tag without what is hidden exactly if it is no image or stays one. -/
theorem tagOf_withoutHidden_iff (tags : TagTable) (l : Layer) (isLeaf inside : Bool) :
    tagOf tags l.withoutHidden isLeaf inside = tagOf tags l isLeaf inside ↔
      (ownTag tags l isLeaf = "img" → ownTag tags l.withoutHidden isLeaf = "img") := by
  rcases ownTag_withoutHidden tags l isLeaf with same | ⟨image, plain⟩
  · exact iff_of_true (by rw [tagOf, tagOf, same]) fun image => same.trans image
  · have other : ownTag tags l.withoutHidden isLeaf ≠ "img" := by
      rintro eq
      rw [eq] at plain
      exact absurd plain (by decide)
    refine iff_of_false (fun eq => other ?_) fun h => other (h image)
    rw [← tagOf_eq_img_iff, eq, tagOf_eq_img_iff]
    exact image

/-- The head of an element stays as it is, given the same tag, exactly if an image shows the same
picture. -/
theorem headOf_withoutHidden_iff (tag : String) (place : Place) (ref : ClassRef) (s : StyledLayer) :
    headOf tag place ref s.withoutHidden optimizeImages = headOf tag place ref s optimizeImages ↔
      (tag = "img" → imageName s.withoutHidden = imageName s) := by
  have void : voidAttributes tag s.withoutHidden optimizeImages =
        voidAttributes tag s optimizeImages ↔
      (tag = "img" → imageName s.withoutHidden = imageName s) := by
    unfold voidAttributes
    by_cases image : tag = "img"
    · subst image
      simp only [beq_self_eq_true, if_true, cons_append, cons.injEq, Attribute.source.injEq,
        forall_const]
      constructor
      · rintro ⟨path, -⟩
        have chars := congrArg String.toList path
        simp only [String.toList_append, append_assoc, append_cancel_left_eq,
          append_cancel_right_eq] at chars
        exact String.toList_injective chars
      · intro same
        exact ⟨by rw [same], rfl, trivial⟩
    · rw [if_neg (by simpa using image), if_neg (by simpa using image)]
      exact iff_of_true rfl fun eq => absurd eq image
  rw [← void]
  by_cases empty : Tag.isVoid tag = true
  · have roles : roleAttributes s.withoutHidden = roleAttributes s := rfl
    have clicks : clickAttributes place s.withoutHidden = clickAttributes place s := rfl
    simp only [headOf, if_pos empty, ElementHead.mk.injEq, true_and, and_true, roles, clicks,
      append_cancel_right_eq, append_cancel_left_eq]
  · have other : tag ≠ "img" := fun eq => empty (by rw [eq]; decide)
    refine iff_of_true ?_ (void.mpr fun eq => absurd eq other)
    simp only [headOf, if_neg empty]
    rfl

/-- A node that is shown as an image is still shown as one, and as the same one, without the paints
that are not shown. -/
def KeepsImage (tags : TagTable) (n : Styled) : Prop :=
  ShownAsImage tags (n.map StyledLayer.layer) →
    ShownAsImage tags ((n.map StyledLayer.layer).map Layer.withoutHidden) ∧
      imageName n.value.withoutHidden = imageName n.value

instance (tags : TagTable) (n : Styled) : Decidable (KeepsImage tags n) :=
  inferInstanceAs (Decidable (_ → _ ∧ _))

theorem shownAsImage_iff (tags : TagTable) (layer : Layer) (children : List Node) :
    ShownAsImage tags (.node layer children) ↔ ownTag tags layer children.isEmpty = "img" :=
  (ownTag_eq_img_iff ..).symm

/-- The element of a node, its children aside, stays as it is without what is hidden exactly if the
node keeps its image. -/
theorem head_withoutHidden_iff (place : Place) (inside : Bool) (ref : ClassRef) (s : StyledLayer)
    (children : List Styled) :
    headOf (tagOf tags s.withoutHidden.layer children.isEmpty inside) place ref s.withoutHidden
          optimizeImages =
        headOf (tagOf tags s.layer children.isEmpty inside) place ref s optimizeImages ↔
      KeepsImage tags (.node s children) := by
  unfold KeepsImage
  rw [Tree.map_node, Tree.map_node, shownAsImage_iff, shownAsImage_iff]
  simp only [List.isEmpty_map]
  have tags' := tagOf_withoutHidden_iff tags s.layer children.isEmpty inside
  constructor
  · intro heads image
    have same : tagOf tags s.layer.withoutHidden children.isEmpty inside =
        tagOf tags s.layer children.isEmpty inside := congrArg ElementHead.tag heads
    rw [show s.withoutHidden.layer = s.layer.withoutHidden from rfl, same,
      headOf_withoutHidden_iff] at heads
    exact ⟨tags'.mp same image, heads ((tagOf_eq_img_iff ..).mpr image)⟩
  · intro keeps
    rw [show s.withoutHidden.layer = s.layer.withoutHidden from rfl,
      tags'.mpr fun image => (keeps image).1, headOf_withoutHidden_iff]
    exact fun image => (keeps ((tagOf_eq_img_iff ..).mp image)).2

/-- An element stays as it is without what is hidden exactly if every node keeps its image. -/
theorem ofNode_withoutHidden_iff
    (blind : ∀ place s, classOf place s.withoutHidden = classOf place s) (place : Place)
    (inside : Bool) (n : Styled) :
    ofNode tags optimizeImages classOf place inside (n.map StyledLayer.withoutHidden) =
        ofNode tags optimizeImages classOf place inside n ↔
      ∀ u ∈ n.walk, KeepsImage tags u := by
  induction n using Tree.ind generalizing place inside with
  | node s children ih =>
    have interactive := isInteractive_tagOf_withoutHidden tags s.layer children.isEmpty inside
    rw [Tree.map_node, ofNode, ofNode, ofNodes_eq, ofNodes_eq, List.isEmpty_map, List.map_map, blind,
      show s.withoutHidden.layer = s.layer.withoutHidden from rfl, interactive, Tree.node.injEq,
      List.map_inj_left, Tree.walk_node, forall_mem_cons]
    refine and_congr (head_withoutHidden_iff place inside _ s children) ?_
    simp only [mem_flatMap, forall_exists_index, and_imp]
    constructor
    · exact fun each u c hc hu => (ih c hc _ _).mp (each c hc) u hu
    · exact fun each c hc => (ih c hc _ _).mpr fun u hu => each u c hc hu

end Element

/-! ## Issues -/

namespace Auditor

variable (a : Auditor)

theorem issuesAt_eq (l : Layer) : a.issuesAt l = (a.contrastIssue? l).toList ++
    ((a.focusIssue? l).toList ++ ((a.headingIssue? l).toList ++ (a.imageIssue? l).toList)) := by
  unfold issuesAt RuleId.all
  simp only [filterMap_cons, filterMap_nil, issue?]
  cases a.contrastIssue? l <;> cases a.focusIssue? l <;> cases a.headingIssue? l <;>
    cases a.imageIssue? l <;> rfl

/-- Without what is hidden, only a text in an image's place may no longer be called for. -/
theorem issuesAt_withoutHidden (l : Layer) : a.issuesAt l.withoutHidden =
    (a.contrastIssue? l).toList ++ ((a.focusIssue? l).toList ++ ((a.headingIssue? l).toList ++
      (a.imageIssue? l.withoutHidden).toList)) := by
  have contrast : a.contrastIssue? l.withoutHidden = a.contrastIssue? l := by
    simp only [contrastIssue?, Layer.withoutHidden, Paint.firstSolid?_filter]
    rfl
  rw [issuesAt_eq, contrast]
  rfl

/-- A layer keeps its issues without what is hidden exactly if a fill that is shown, or the name, makes
it an image where a fill does. -/
theorem issuesAt_withoutHidden_iff (l : Layer) : a.issuesAt l.withoutHidden = a.issuesAt l ↔
    (l.hasImageFill = true →
      l.withoutHidden.hasImageFill = true ∨ a.imageKeywords.matchesName l.name = true) := by
  have name : l.withoutHidden.name = l.name := rfl
  have element : elementOf l.withoutHidden = elementOf l := rfl
  have fewer := Layer.hasImageFill_of_withoutHidden (l := l)
  rw [issuesAt_withoutHidden, issuesAt_eq]
  simp only [append_cancel_left_eq, imageIssue?, name, element]
  cases named : a.imageKeywords.matchesName l.name with
  | true => simp
  | false =>
    cases image : l.hasImageFill with
    | false => simp [Bool.eq_false_iff.mpr fun h => absurd (fewer h) (by simp [image])]
    | true => cases l.withoutHidden.hasImageFill <;> simp

theorem issuesAt_withoutHidden_sublist (l : Layer) :
    a.issuesAt l.withoutHidden <+ a.issuesAt l := by
  by_cases same : a.issuesAt l.withoutHidden = a.issuesAt l
  · rw [same]
  · have none : a.imageIssue? l.withoutHidden = none := by
      rw [issuesAt_withoutHidden_iff, Classical.not_imp, not_or] at same
      exact if_neg fun h => (Bool.or_eq_true_iff.mp h).elim same.2.1 same.2.2
    rw [issuesAt_withoutHidden, issuesAt_eq, none]
    simp

/-- Lists that are put together from smaller ones, part by part, are equal only if no part is. -/
theorem flatMap_eq_iff_of_sublist {α β : Type} {f g : α → List β} {l : List α}
    (h : ∀ x ∈ l, f x <+ g x) : l.flatMap f = l.flatMap g ↔ ∀ x ∈ l, f x = g x := by
  induction l with
  | nil => simp
  | cons x l ih =>
    have first := h x (mem_cons_self ..)
    have rest : ∀ y ∈ l, f y <+ g y := fun y hy => h y (mem_cons_of_mem _ hy)
    rw [flatMap_cons, flatMap_cons, forall_mem_cons, ← ih rest]
    constructor
    · intro eq
      have later : (l.flatMap f).length ≤ (l.flatMap g).length :=
        (Sublist.flatMap_right l rest).length_le
      have lengths := congrArg length eq
      rw [length_append, length_append] at lengths
      have here := first.eq_of_length (by have := first.length_le; omega)
      rw [here] at eq
      exact ⟨here, append_cancel_left eq⟩
    · rintro ⟨here, later⟩
      rw [here, later]

/-- What is missing from a component as a whole has nothing to do with what is hidden. -/
theorem componentIssues_withoutHidden (n : Node) (category : Category) :
    componentIssues (n.map Layer.withoutHidden) category = componentIssues n category := by
  have text : (n.map Layer.withoutHidden).any (fun l => l.text?.isSome) =
      n.any fun l => l.text?.isSome := by
    rw [Tree.any, Tree.any, Tree.values_map, any_map]
    rfl
  have element : elementOf (n.map Layer.withoutHidden).value = elementOf n.value := by
    rw [Tree.value_map]
    rfl
  have children : (n.map Layer.withoutHidden).children.isEmpty = n.children.isEmpty := by
    rw [Tree.children_map, List.isEmpty_map]
  unfold componentIssues
  rw [text, element, children]

/-- A scene keeps its issues without what is hidden exactly if each of its layers does. -/
theorem issues_withoutHidden_iff (n : Node) (category : Category) :
    a.issues (n.map Layer.withoutHidden) category = a.issues n category ↔
      ∀ l ∈ n.values, l.hasImageFill = true →
        l.withoutHidden.hasImageFill = true ∨ a.imageKeywords.matchesName l.name = true := by
  rw [issues, issues, componentIssues_withoutHidden, append_cancel_right_eq, Tree.values_map,
    flatMap_map, flatMap_eq_iff_of_sublist fun l _ => a.issuesAt_withoutHidden_sublist l]
  simp only [issuesAt_withoutHidden_iff]

end Auditor

/-! ## Components -/

namespace Emitter

/-- Rules are referred to regardless of hidden paints and effects, and of complexity. -/
theorem classAssignment_withoutHidden (e : Emitter) (style : StyleDialect) (widths : Option Breakpoints)
    (place : Place) (s : StyledLayer) :
    e.classAssignment style widths place s.withoutHidden = e.classAssignment style widths place s ∧
      e.classAssignment style widths place s.plain = e.classAssignment style widths place s :=
  ⟨rfl, rfl⟩

theorem element_plain (e : Emitter) (root : Styled) (style : StyleDialect)
    (options : EmissionOptions) :
    e.element (root.map StyledLayer.plain) style options = e.element root style options := by
  have widths : widthsFor (root.map StyledLayer.plain) options = widthsFor root options := by
    rw [widthsFor, Styled.adapts, Tree.value_map]
    rfl
  rw [element, element, widths]
  exact Element.ofNode_plain (fun place s => (e.classAssignment_withoutHidden style _ place s).2) ..

/-- The element of a component stays as it is without what is hidden exactly if every node keeps its
image. -/
theorem element_withoutHidden_iff (e : Emitter) (root : Styled) (style : StyleDialect)
    (options : EmissionOptions) :
    e.element (root.map StyledLayer.withoutHidden) style options = e.element root style options ↔
      ∀ u ∈ root.walk, Element.KeepsImage e.tags u := by
  have widths : widthsFor (root.map StyledLayer.withoutHidden) options = widthsFor root options := by
    rw [widthsFor, Styled.adapts, Tree.value_map]
    rfl
  rw [element, element, widths]
  exact Element.ofNode_withoutHidden_iff
    (fun place s => (e.classAssignment_withoutHidden style _ place s).1) ..

end Emitter

namespace Settings

/-- Deleting the hidden paints and effects of a scene, at every node. The elements of its component stay
as they are exactly if every node that is shown as an image is still shown as one, with the same
picture; and the issues of its audit exactly if wherever a fill is an image, one that is shown is, or
the name says so. -/
theorem withoutHidden_iff (s : Settings) (node : Node) (options : Options)
    (style : StyleDialect) :
    let bare := node.map Layer.withoutHidden
    (s.emitter.element (s.styled bare options) style (emissionOptions options) =
        s.emitter.element (s.styled node options) style (emissionOptions options) ↔
      ∀ u ∈ (s.styled node options).walk, Element.KeepsImage s.tags u) ∧
    (s.auditor.issues bare (s.classifier.classify bare).value.category =
        s.auditor.issues node (s.classifier.classify node).value.category ↔
      ∀ l ∈ node.values, l.hasImageFill = true →
        l.withoutHidden.hasImageFill = true ∨ s.auditor.imageKeywords.matchesName l.name = true) := by
  intro bare
  constructor
  · have styled := Styled.ofNode_withoutHidden
      (if options.includeResponsive then some s.viewport else none) s.classifier node
    rw [← Emitter.element_plain, Settings.styled, styled, Emitter.element_plain]
    exact Emitter.element_withoutHidden_iff ..
  · have verdict := congrArg (fun t : Classification => t.value.category)
      (s.classifier.classify_withoutHidden node)
    simp only [Tree.value_map] at verdict
    have category : (s.classifier.classify bare).value.category =
        (s.classifier.classify node).value.category := verdict
    rw [category]
    exact s.auditor.issues_withoutHidden_iff node _

def coveredPanel : Node :=
  .leaf { id := "1", name := "Panel", kind := .rectangle, fills := [(Paint.image "old").hide] }

/-- The panel is an image that lacks a text, and without what is hidden it is not. -/
theorem withoutHidden_coveredPanel :
    let s : Settings := {}
    let bare := coveredPanel.map Layer.withoutHidden
    s.emitter.element (s.styled bare {}) .plain (emissionOptions {}) ≠
        s.emitter.element (s.styled coveredPanel {}) .plain (emissionOptions {}) ∧
      s.auditor.issues bare (s.classifier.classify bare).value.category ≠
        s.auditor.issues coveredPanel (s.classifier.classify coveredPanel).value.category := by
  intro s bare
  obtain ⟨elements, issues⟩ := withoutHidden_iff s coveredPanel {} .plain
  have lost : ¬Element.KeepsImage s.tags (s.styled coveredPanel {}) := by decide +kernel
  have silent : ¬(coveredPanel.value.hasImageFill = true →
      coveredPanel.value.withoutHidden.hasImageFill = true ∨
        s.auditor.imageKeywords.matchesName coveredPanel.value.name = true) := by decide +kernel
  have first : coveredPanel.value ∈ coveredPanel.values :=
    mem_of_getElem? (Tree.getElem?_values_zero coveredPanel)
  exact ⟨fun eq => lost (elements.mp eq _ (Tree.mem_walk_self _)),
    fun eq => silent (issues.mp eq _ first)⟩

end Settings
end Handoff

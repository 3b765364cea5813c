import Handoff.Proofs.Classification
import Handoff.Proofs.Markup.Nesting
/-!
# Texts of a scene in its markup

Every node has its element, in the order of the walk, and a text of the node is the text of the element
or, where the element is an input, its placeholder. One kind of node is the exception: a text node
without children whose name asks for an image, or that has an image fill and a name that asks for
nothing, becomes an image, and the image says nothing of the text.

Results:
* `Element.ownTag_eq_img_iff`: which nodes become images.
* `Element.walk_carries_iff`: an element carries the text of its node exactly if it is no image.
-/
namespace Handoff

/-- A text is there for the reader: between the tags, or as the placeholder of an input. -/
def ElementHead.Carries (h : ElementHead) (text : String) : Prop :=
  h.text = some text ∨ h.tag = "input" ∧ .placeholder text ∈ h.attributes

instance (h : ElementHead) (text : String) : Decidable (h.Carries text) :=
  inferInstanceAs (Decidable (_ ∨ _ ∧ _))

namespace Element

/-- A node without children is shown as an image: its name asks for that, or its name asks for nothing
and it has an image fill. -/
def ShownAsImage (tags : TagTable) (n : Node) : Prop :=
  n.children.isEmpty = true ∧ (tags.tag? n.value.name = some "img" ∨
    tags.tag? n.value.name = none ∧ n.value.hasImageFill = true)

instance (tags : TagTable) (n : Node) : Decidable (ShownAsImage tags n) :=
  inferInstanceAs (Decidable (_ ∧ (_ ∨ _ ∧ _)))

/-! ## Images -/

theorem ownTag_leaf (tags : TagTable) (layer : Layer) : ownTag tags layer true =
    (tags.tag? layer.name).getD
      (if layer.hasImageFill then "img" else if layer.isText then "span" else "div") := by
  unfold ownTag
  cases tags.tag? layer.name <;> simp [Option.filter]

/-- Which nodes become images, if nothing around them matters. -/
theorem ownTag_eq_img_iff (tags : TagTable) (layer : Layer) (isLeaf : Bool) :
    ownTag tags layer isLeaf = "img" ↔ isLeaf = true ∧ (tags.tag? layer.name = some "img" ∨
      tags.tag? layer.name = none ∧ layer.hasImageFill = true) := by
  have leaf (img : ownTag tags layer isLeaf = "img") : isLeaf = true :=
    isLeaf_of_isVoid_ownTag (by rw [img]; decide)
  cases isLeaf with
  | false => simpa using leaf
  | true =>
    rw [ownTag_leaf]
    cases tags.tag? layer.name with
    | some tag => simp
    | none => cases layer.hasImageFill <;> cases layer.isText <;> simp

/-- Standing inside an interactive element does not turn anything into an image, or out of one. -/
theorem tagOf_eq_img_iff (tags : TagTable) (layer : Layer) (isLeaf inside : Bool) :
    tagOf tags layer isLeaf inside = "img" ↔ ownTag tags layer isLeaf = "img" := by
  unfold tagOf
  dsimp only
  split
  · next demoted =>
    have interactive := (Bool.and_eq_true_iff.mp demoted).2
    constructor
    · exact fun h => absurd h (by decide)
    · intro img
      rw [img] at interactive
      exact absurd interactive (by decide)
  · rfl

/-- A node with a text has it in its element exactly if the element is no image. -/
theorem carries_headOf_iff {optimizeImages : Bool} {tag : String} {place : Place} {ref : ClassRef}
    {s : StyledLayer} {text : String} (has : s.layer.text? = some text) :
    (headOf tag place ref s optimizeImages).Carries text ↔ tag ≠ "img" := by
  have img : Tag.isVoid "img" = true := by decide
  have input : Tag.isVoid "input" = true := by decide
  unfold ElementHead.Carries headOf
  dsimp only
  by_cases void : Tag.isVoid tag = true
  · have known : tag = "img" ∨ tag = "input" := by simpa [Tag.isVoid] using void
    rcases known with rfl | rfl
    · simp [img]
    · simp [input, voidAttributes, has]
  · have other : tag ≠ "img" := fun eq => void (eq ▸ img)
    simp [void, has, other]

/-- Along the walk, the element of a node with a text carries that text exactly if the node is not
shown as an image. -/
theorem walk_carries_iff (tags : TagTable) (optimizeImages : Bool) (classOf : ClassAssignment)
    (policy : Option ViewportPolicy) (classifier : Classifier) (root : Node) :
    List.Forall₂ (fun n e => ∀ text, n.value.text? = some text →
        (e.value.Carries text ↔ ¬ShownAsImage tags n))
      root.walk
      (build tags optimizeImages classOf
        (Styled.ofNode policy root (classifier.classify root))).walk := by
  have scene := Styled.map_layer_ofNode policy (classifier.sameShape_classify root)
  unfold build
  generalize Styled.ofNode policy root (classifier.classify root) = styled at scene ⊢
  rw [← scene, Tree.walk_map, List.forall₂_map_left_iff]
  refine (forall₂_walk_ofNode .root false styled).imp ?_
  rintro ⟨s, children⟩ e ⟨place, inside, rfl⟩ text has
  rw [Tree.map_node] at has ⊢
  rw [ofNode]
  refine (carries_headOf_iff has).trans (not_congr ?_)
  rw [tagOf_eq_img_iff, ownTag_eq_img_iff]
  unfold ShownAsImage
  simp [Tree.children, Tree.value]

/-- A card with four texts: two become images, for a name and for a fill, one becomes the placeholder of
an input, and one stays a text. -/
def photoCard : Node :=
  .node { id := "1", name := "Card", kind := .frame } [
    Node.text "2" "Photo credit" "Jane Roe",
    .leaf { id := "3", name := "Slogan", kind := .text, characters := some "Fresh daily",
            fills := [.image "dew"] },
    Node.text "4" "Email field" "you@example.com",
    Node.text "5" "Caption" "Harbour at dusk"]

def photoCardElement : Element :=
  build .standard false (fun _ s => .names s.className)
    (Styled.ofNode none photoCard (Classifier.standard.classify photoCard))

/-- The images drop their texts, the others keep them. -/
theorem walk_carries_photoCard :
    (photoCardElement.values.map fun h => (h.tag,
        ["Jane Roe", "Fresh daily", "you@example.com", "Harbour at dusk"].filter (h.Carries ·))) =
      [("div", []), ("img", []), ("img", []), ("input", ["you@example.com"]),
        ("span", ["Harbour at dusk"])] ∧
      photoCard.walk.map (fun n => decide (ShownAsImage .standard n)) =
        [false, true, true, false, false] ∧
      List.Forall₂ (fun n e => ∀ text, n.value.text? = some text →
          (e.value.Carries text ↔ ¬ShownAsImage .standard n))
        photoCard.walk photoCardElement.walk :=
  ⟨by decide +kernel, by decide +kernel,
    walk_carries_iff .standard false _ none .standard photoCard⟩

end Element
end Handoff

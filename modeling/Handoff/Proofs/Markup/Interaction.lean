import Handoff.Proofs.Markup.Nesting
/-!
# Interactive elements never nest

An element that can be acted on holds no other one, however many plain elements lie between. What
keeps them apart is handed down: once the builder is inside an interactive element it stays there,
and gives out no interactive tag any more, neither for a keyword of the table nor for an image.

A wrapper hides the tag of the root, as the markup then names the wrapper. The tag that its
declaration gives counts for it.

Results:
* `Element.not_interactive_inside`: what is built inside an interactive element is not interactive.
* `Element.apart_ofNode`: interactive elements stand apart, wherever a tree is built.
* `Emitter.interactive_apart`: so they do in every component, behind a wrapper too.
-/
namespace Handoff

def ElementHead.isInteractive (h : ElementHead) : Bool := Tag.isInteractive h.tag

namespace Element

/-- No interactive element has an interactive one below it, at any depth. -/
def Apart (e : Element) : Prop :=
  ∀ u ∈ e.walk, u.value.isInteractive = true →
    ∀ c ∈ u.children, ∀ v ∈ c.walk, v.value.isInteractive = false

def retag (tag : String) : Element → Element
  | .node head children => .node { head with tag } children

variable {tags : TagTable} {optimizeImages : Bool} {classOf : ClassAssignment}

/-- Inside an interactive element no tag is interactive. -/
theorem tagOf_inside (layer : Layer) (isLeaf : Bool) :
    Tag.isInteractive (tagOf tags layer isLeaf true) = false := by
  unfold tagOf
  dsimp only
  split
  · decide
  · next plain => simpa using plain

/-- What is built inside an interactive element is not interactive, at any depth. -/
theorem not_interactive_inside (place : Place) (n : Styled) :
    ∀ v ∈ (ofNode tags optimizeImages classOf place true n).walk,
      v.value.isInteractive = false := by
  induction n using Tree.ind generalizing place with
  | node s children ih =>
    rw [ofNode, ofNodes_eq, Bool.true_or, Tree.walk_node]
    intro v hv
    rcases List.mem_cons.mp hv with rfl | below
    · exact tagOf_inside s.layer children.isEmpty
    · obtain ⟨e, he, hv⟩ := List.mem_flatMap.mp below
      obtain ⟨c, hc, rfl⟩ := List.mem_map.mp he
      exact ih c hc .inner v hv

/-- Interactive elements stand apart, whatever tree they are built from. -/
theorem apart_ofNode (place : Place) (inside : Bool) (n : Styled) :
    (ofNode tags optimizeImages classOf place inside n).Apart := by
  intro u hu
  obtain ⟨⟨s, children⟩, -, place, inside, rfl⟩ := mem_walk_ofNode hu
  rw [ofNode, ofNodes_eq]
  intro interactive e he
  obtain ⟨c, -, rfl⟩ := List.mem_map.mp he
  -- The tag of the root is interactive, so its children are built as inside of it.
  have inner : Tag.isInteractive (tagOf tags s.layer children.isEmpty inside) = true := interactive
  rw [inner, Bool.or_true]
  exact not_interactive_inside .inner c

theorem retag_written (name : String) (e : Element) :
    (Emitter.written .cssInJs name e).retag e.value.tag = e := by
  cases e
  rfl

end Element

namespace Emitter

/-- Interactive elements never nest. That holds of every element that is built, for every table of
tags; and where a wrapper stands in for the root, it holds of the element that is written, with the
tag in place of the wrapper that the stylesheet declares it with. -/
theorem interactive_apart (root : Styled) :
    (∀ tags optimizeImages classOf, (Element.build tags optimizeImages classOf root).Apart) ∧
      ∀ (e : Emitter) (name : String) (dialect : Dialect) (options : EmissionOptions),
        dialect.style = .cssInJs →
          let shown := written dialect.style name (e.element root dialect.style options)
          let code := e.emit root name dialect options
          ∃ (tag : String) (p : ComponentParts),
            code.stylesheet =
                (Stylesheet.ofStyled root (widthsFor root options)).wrapperText name tag ∧
              code.markup = p.file dialect.markup ∧ p.body = shown.render dialect.markup 0 ∧
              (shown.retag tag).Apart := by
  have built (tags : TagTable) (optimizeImages : Bool) (classOf : ClassAssignment) :
      (Element.build tags optimizeImages classOf root).Apart :=
    Element.apart_ofNode .root false root
  refine ⟨built, fun e name dialect options wrapped => ?_⟩
  unfold emit
  dsimp only
  rw [wrapped]
  refine ⟨(e.element root .cssInJs options).value.tag, _, rfl, rfl, rfl, ?_⟩
  rw [Element.retag_written]
  exact built e.tags options.optimizeImages _

/-- A link with a button and a field in it, a plain group between the link and the button. -/
def teaserLink : Node :=
  .node { id := "1", name := "Teaser link", kind := .frame } [
    .node { id := "2", name := "Actions", kind := .group } [
      .node { id := "3", name := "Buy button", kind := .frame } [Node.text "4" "Label" "Buy"]],
    Node.named "5" "Email field" .rectangle]

def teaserStyled : Styled :=
  Styled.ofNode none teaserLink (Classifier.standard.classify teaserLink)

def wrapperDialect : Dialect := ⟨.componentized, .cssInJs, fun _ => rfl⟩

/-- The wrapper is declared as a link, so neither the button nor the field in it is one any more. -/
theorem interactive_apart_teaserLink :
    let element := ({} : Emitter).element teaserStyled .cssInJs {}
    wrapperDialect.style = .cssInJs ∧
      (teaserStyled.values.map fun s => TagTable.standard.tag? s.layer.name) =
        [some "a", none, some "button", none, some "input"] ∧
      element.values.map ElementHead.tag = ["a", "div", "span", "span", "span"] ∧
      ∃ (tag : String) (p : ComponentParts),
        (({} : Emitter).emit teaserStyled "Teaser" wrapperDialect {}).stylesheet =
            (Stylesheet.ofStyled teaserStyled none).wrapperText "Teaser" tag ∧
          (({} : Emitter).emit teaserStyled "Teaser" wrapperDialect {}).markup =
            p.file .componentized ∧
          p.body = (written .cssInJs "Teaser" element).render .componentized 0 ∧
          ((written .cssInJs "Teaser" element).retag tag).Apart :=
  ⟨rfl, by decide +kernel, by decide +kernel,
    (interactive_apart teaserStyled).2 {} "Teaser" wrapperDialect {} rfl⟩

end Emitter
end Handoff

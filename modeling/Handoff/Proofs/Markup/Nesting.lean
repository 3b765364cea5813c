import Handoff.Component.Emission
import Handoff.Proofs.Markup.Render
import Handoff.Proofs.Styled
/-!
# Emitted markup is well nested

Whatever a design contains, the elements that an emitter builds are safe to write: their tags come
from the table of tags or are fixed, a tag without content only goes to a node without children, and
the only names written as they are, those of module bindings, are letters and digits.

Results:
* `Element.safe_build`: built elements are safe.
* `Emitter.render_wellNested`: their text has angle brackets around tags only, and the tags, read with
  a stack, are the tree of the element.
-/
namespace Handoff
open Markup (Bare PlainName isTagChar isTagChar_of_isAlphanum WellNested tagsIn readTree markOf)

theorem ElementHead.bare_of_isAlphanum {cs : List Char} (h : Consists Char.isAlphanum cs) : Bare cs :=
  bare_of_isTagChar fun c hc => isTagChar_of_isAlphanum (h c hc)

def TagTable.Plain (t : TagTable) : Prop := ∀ entry ∈ t.entries, PlainName entry.2

instance (t : TagTable) : Decidable t.Plain :=
  decidable_of_iff ((t.entries.all fun entry => decide (PlainName entry.2)) = true) <| by
    simp only [List.all_eq_true, decide_eq_true_eq]
    rfl

namespace Element

/-! ## The tags of nodes -/

theorem ownTag_satisfies (P : String → Prop) {tags : TagTable} (table : ∀ entry ∈ tags.entries, P entry.2)
    (img : P "img") (span : P "span") (div : P "div") (layer : Layer) (isLeaf : Bool) :
    P (ownTag tags layer isLeaf) := by
  unfold ownTag
  cases asked : (tags.tag? layer.name).filter fun tag => isLeaf || !Tag.isVoid tag with
  | some tag =>
    have found := (Option.filter_eq_some_iff.mp asked).1
    obtain ⟨entry, first, rfl⟩ := Option.map_eq_some_iff.mp found
    exact table entry (List.mem_of_find?_eq_some first)
  | none =>
    dsimp only
    split_ifs
    · exact img
    · exact span
    · exact div

theorem tagOf_satisfies (P : String → Prop) {tags : TagTable} (table : ∀ entry ∈ tags.entries, P entry.2)
    (img : P "img") (span : P "span") (div : P "div") (layer : Layer) (isLeaf insideInteractive : Bool) :
    P (tagOf tags layer isLeaf insideInteractive) := by
  unfold tagOf
  dsimp only
  split_ifs
  · exact span
  · exact ownTag_satisfies P table img span div layer isLeaf

theorem plainName_tagOf {tags : TagTable} (plain : tags.Plain) (layer : Layer)
    (isLeaf insideInteractive : Bool) : PlainName (tagOf tags layer isLeaf insideInteractive) :=
  tagOf_satisfies PlainName plain (by decide) (by decide) (by decide) layer isLeaf insideInteractive

theorem isLeaf_of_isVoid_ownTag {tags : TagTable} {layer : Layer} {isLeaf : Bool}
    (void : Tag.isVoid (ownTag tags layer isLeaf) = true) : isLeaf = true := by
  unfold ownTag at void
  cases asked : (tags.tag? layer.name).filter fun tag => isLeaf || !Tag.isVoid tag with
  | some tag =>
    have kept := (Option.filter_eq_some_iff.mp asked).2
    rw [asked] at void
    rw [void, Bool.not_true, Bool.or_false] at kept
    exact kept
  | none =>
    rw [asked] at void
    dsimp only at void
    split_ifs at void with image text
    · exact (Bool.and_eq_true_iff.mp image).2
    · exact absurd void (by decide)
    · exact absurd void (by decide)

/-- A tag without content only goes to a node without children. -/
theorem isLeaf_of_isVoid_tagOf {tags : TagTable} {layer : Layer} {isLeaf insideInteractive : Bool}
    (void : Tag.isVoid (tagOf tags layer isLeaf insideInteractive) = true) : isLeaf = true := by
  unfold tagOf at void
  dsimp only at void
  split_ifs at void
  · exact absurd void (by decide)
  · exact isLeaf_of_isVoid_ownTag void

/-! ## Built elements -/

variable {tags : TagTable} {optimizeImages : Bool} {classOf : ClassAssignment}

theorem ofNodes_eq (inside : Bool) (ns : List Styled) :
    ofNode.ofNodes tags optimizeImages classOf inside ns =
      ns.map (ofNode tags optimizeImages classOf .inner inside) := by
  induction ns with
  | nil => rfl
  | cons n ns ih => rw [ofNode.ofNodes, ih, List.map_cons]

/-- A styled tree with other layers has the same element if they are of the same nodes and every head is
the same. -/
theorem ofNode_map (f : StyledLayer → StyledLayer) {classOf' : ClassAssignment}
    (layer : ∀ s, (f s).layer = s.layer)
    (head : ∀ tag place s, headOf tag place (classOf' place (f s)) (f s) optimizeImages =
      headOf tag place (classOf place s) s optimizeImages) (place : Place) (inside : Bool) (n : Styled) :
    ofNode tags optimizeImages classOf' place inside (n.map f) =
      ofNode tags optimizeImages classOf place inside n := by
  induction n using Tree.ind generalizing place inside with
  | node s children ih =>
    rw [Tree.map_node, ofNode, ofNode, ofNodes_eq, ofNodes_eq, List.isEmpty_map, List.map_map, head,
      layer]
    exact congrArg _ (List.map_congr_left fun c hc => ih c hc .inner _)

/-- Along the walk, every node of a styled tree has its element, built at some place. -/
theorem forall₂_walk_ofNode (place : Place) (inside : Bool) (root : Styled) :
    List.Forall₂ (fun n e => ∃ place inside, e = ofNode tags optimizeImages classOf place inside n)
      root.walk (ofNode tags optimizeImages classOf place inside root).walk := by
  refine Tree.forall₂_walk ?_ ⟨place, inside, rfl⟩
  rintro ⟨s, children⟩ e ⟨place, inside, rfl⟩
  rw [ofNode, ofNodes_eq]
  exact List.forall₂_map_right_iff.mpr (List.forall₂_same.mpr fun n _ => ⟨.inner, _, rfl⟩)

theorem mem_walk_ofNode {place : Place} {inside : Bool} {root : Styled} {u : Element}
    (h : u ∈ (ofNode tags optimizeImages classOf place inside root).walk) :
    ∃ n ∈ root.walk, ∃ place inside, u = ofNode tags optimizeImages classOf place inside n := by
  obtain ⟨i, bound, rfl⟩ := List.mem_iff_getElem.mp h
  obtain ⟨same, made⟩ := List.forall₂_iff_get.mp (forall₂_walk_ofNode place inside root)
  exact ⟨root.walk[i], List.getElem_mem _, made i (same ▸ bound) bound⟩

theorem ne_classRef_of_mem_roleAttributes {s : StyledLayer} {a : Attribute}
    (h : a ∈ roleAttributes s) (ref : ClassRef) : a ≠ .classRef ref := by
  unfold roleAttributes at h
  split_ifs at h
  · simp only [List.mem_cons, List.not_mem_nil, or_false] at h
    rcases h with rfl | rfl <;> exact Attribute.noConfusion
  · cases h

theorem ne_classRef_of_mem_voidAttributes {tag : String} {s : StyledLayer} {a : Attribute}
    (h : a ∈ voidAttributes tag s optimizeImages) (ref : ClassRef) : a ≠ .classRef ref := by
  unfold voidAttributes at h
  split_ifs at h with image optimized
  · simp only [List.mem_append, List.mem_cons, List.not_mem_nil, or_false] at h
    rcases h with (rfl | rfl) | rfl | rfl <;> exact Attribute.noConfusion
  · simp only [List.append_nil, List.mem_cons, List.not_mem_nil, or_false] at h
    rcases h with rfl | rfl <;> exact Attribute.noConfusion
  · cases text : s.layer.text? with
    | some text' =>
      rw [text] at h
      rw [List.mem_singleton.mp h]
      exact Attribute.noConfusion
    | none =>
      rw [text] at h
      cases h

theorem ne_classRef_of_mem_clickAttributes {place : Place} {s : StyledLayer} {a : Attribute}
    (h : a ∈ clickAttributes place s) (ref : ClassRef) : a ≠ .classRef ref := by
  unfold clickAttributes at h
  split_ifs at h
  · rw [List.mem_singleton.mp h]
    exact Attribute.noConfusion
  · cases h

/-- A head is safe if what refers to its rule is: its other attributes name no bindings. -/
theorem safe_headOf {tag : String} (plain : PlainName tag) (place : Place) {ref : ClassRef}
    (bare : ∀ name, ref = .binding name → Bare name.toList) (s : StyledLayer) :
    (headOf tag place ref s optimizeImages).Safe := by
  refine ⟨plain, ?_⟩
  rintro a ha name rfl
  unfold headOf at ha
  dsimp only at ha
  simp only [List.mem_append, List.mem_cons] at ha
  rcases ha with (((same | button) | role) | void) | click
  · exact bare name (Attribute.classRef.inj same).symm
  · split_ifs at button with isButton
    · cases List.mem_singleton.mp button
    · cases button
  · exact absurd rfl (ne_classRef_of_mem_roleAttributes role _)
  · split_ifs at void with isVoid
    · exact absurd rfl (ne_classRef_of_mem_voidAttributes void _)
    · cases void
  · exact absurd rfl (ne_classRef_of_mem_clickAttributes click _)

/-- Built elements are safe, if the table has plain names only and the names of bindings are bare. -/
theorem safe_build {root : Styled} (plain : tags.Plain)
    (bare : ∀ place, ∀ s ∈ root.values, ∀ name, classOf place s = .binding name → Bare name.toList) :
    (build tags optimizeImages classOf root).Safe := by
  intro u hu
  obtain ⟨n, hn, place, inside, rfl⟩ := mem_walk_ofNode hu
  cases n with
  | node s children =>
    have carried : s ∈ root.values := List.mem_map.mpr ⟨_, hn, rfl⟩
    rw [ofNode]
    refine ⟨safe_headOf (plainName_tagOf plain ..) place (bare place s carried) s, ?_⟩
    intro void
    have childless := List.isEmpty_iff.mp (isLeaf_of_isVoid_tagOf void)
    subst childless
    rfl

theorem Safe.wellNested {e : Element} (safe : e.Safe) (d : MarkupDialect) (column : Nat) :
    WellNested (e.render d column) (e.writtenTags d) (e.map ElementHead.tag) :=
  ⟨tagsIn_render safe d column, (reads_writtenTags safe d).readTree⟩

end Element

namespace Emitter

/-- Names of bindings are letters and digits, whatever the layers are called. -/
theorem binding_chars (e : Emitter) (style : StyleDialect) (widths : Option Breakpoints)
    {policy : Option ViewportPolicy} {node : Node} {c : Classification} {place : Place}
    {s : StyledLayer} (carried : s ∈ (Styled.ofNode policy node c).values) {name : String}
    (binding : e.classAssignment style widths place s = .binding name) :
    Consists Char.isAlphanum name.toList := by
  unfold classAssignment at binding
  cases style with
  | utility => cases binding
  | plain => cases binding
  | scopedModule =>
    cases binding
    exact Naming.moduleBinding_chars (Styled.className_chars carried)
  | cssInJs =>
    dsimp only at binding
    split_ifs at binding

theorem safe_element (e : Emitter) (plain : e.tags.Plain) (policy : Option ViewportPolicy)
    (node : Node) (c : Classification) (style : StyleDialect) (options : EmissionOptions) :
    (e.element (Styled.ofNode policy node c) style options).Safe :=
  Element.safe_build plain fun _ _ carried _ binding =>
    ElementHead.bare_of_isAlphanum (binding_chars e style _ carried binding)

/-- What the file of a component is put together from. -/
theorem exists_parts (e : Emitter) (root : Styled) (name : String) (dialect : Dialect) (options : EmissionOptions) :
    ∃ p : ComponentParts,
      (e.emit root name dialect options).markup = p.file dialect.markup ∧ p.name = name ∧
        p.body = (written dialect.style name (e.element root dialect.style options)).render
          dialect.markup 0 ∧
        p.stylesheet = stylesheetText root dialect.style name
          (e.element root dialect.style options).value.tag (widthsFor root options) ∧
        p.props = PropSpec.ofVerdict root.value.verdict :=
  ⟨_, rfl, rfl, rfl, rfl, rfl⟩

theorem plainName_wrapper (raw : String) : PlainName (Naming.componentName raw ++ "Root") := by
  unfold PlainName
  rw [String.toList_append]
  refine ⟨fun empty => absurd (List.append_eq_nil_iff.mp empty).2 (by decide), ?_⟩
  intro c hc
  rcases List.mem_append.mp hc with hc | hc
  · exact isTagChar_of_isAlphanum (Naming.componentName_chars raw c hc)
  · have fixed : PlainName "Root" := by decide
    exact fixed.2 c hc

theorem wrapper_not_void (name : String) : ¬Tag.isVoid (name ++ "Root") = true := by
  intro void
  have suffix : "Root".toList.reverse = ['t', 'o', 'o', 'R'] := by decide
  have ends {tag : String} (eq : name ++ "Root" = tag) : tag.toList.reverse.take 2 = ['t', 'o'] := by
    rw [← eq, String.toList_append, List.reverse_append, suffix]
    rfl
  simp only [Tag.isVoid, List.contains_eq_mem, List.mem_cons, List.not_mem_nil, or_false,
    decide_eq_true_eq] at void
  rcases void with img | input
  · exact absurd (ends img) (by decide)
  · exact absurd (ends input) (by decide)

/-- The element under the tag of a wrapper is safe, if the component has the name of some layer. -/
theorem safe_written {element : Element} (safe : element.Safe) (style : StyleDialect) (raw : String) :
    (written style (Naming.componentName raw) element).Safe := by
  cases element with
  | node head children =>
    have plain := plainName_wrapper raw
    have filled := wrapper_not_void (Naming.componentName raw)
    unfold written
    generalize Naming.componentName raw ++ "Root" = wrapper at plain filled ⊢
    split_ifs with wrapped
    · intro u hu
      rw [Tree.walk_node] at hu
      rcases List.mem_cons.mp hu with rfl | hu
      · exact ⟨⟨plain, safe.head.attributes⟩, fun void => absurd void filled⟩
      · apply safe
        rw [Tree.walk_node]
        exact List.mem_cons_of_mem _ hu
    · exact safe

/-- Emitted markup is well nested and cannot be broken by a design: whatever the names, texts, images
and fonts of the layers are, the text of a built element has angle brackets around the tags that it
writes and nowhere else, and those tags, read with a stack, are the tree of the element. The same holds
under the tag of a wrapper, where the component has the name of some layer. -/
theorem render_wellNested (e : Emitter) (plain : e.tags.Plain) (policy : Option ViewportPolicy)
    (node : Node) (c : Classification) (style : StyleDialect) (options : EmissionOptions)
    (raw : String) (d : MarkupDialect) (column : Nat) :
    let element := e.element (Styled.ofNode policy node c) style options
    ∀ shown ∈ [element, written style (Naming.componentName raw) element],
      WellNested (shown.render d column) (shown.writtenTags d) (shown.map ElementHead.tag) := by
  intro element shown hs
  have safe : element.Safe := safe_element e plain policy node c style options
  rcases List.mem_cons.mp hs with rfl | hs
  · exact safe.wellNested d column
  · rw [List.mem_singleton.mp hs]
    exact (safe_written safe style raw).wellNested d column

/-- A link whose name and text would open and close elements if they were written as they are. -/
def hostileNode : Node :=
  .node { name := "Link \"<b>\" /", kind := .frame } [Node.text "2" "</a>" "</a><br> & more"]

def hostileElement : Element :=
  ({} : Emitter).element (Styled.ofNode none hostileNode (Classifier.standard.classify hostileNode))
    .plain {}

/-- What the link contains stays text. -/
theorem render_wellNested_hostile :
    TagTable.standard.Plain ∧
      hostileElement.render .static 0 = "<a class=\"link-b\" role=\"link\" tabindex=\"0\">\n" ++
        "  <span class=\"a\">&lt;/a&gt;&lt;br&gt; &amp; more</span>\n</a>" ∧
      WellNested (hostileElement.render .static 0) (hostileElement.writtenTags .static)
        (hostileElement.map ElementHead.tag) := by
  have plain : TagTable.standard.Plain := by decide +kernel
  refine ⟨plain, by decide +kernel, ?_⟩
  exact render_wellNested {} plain none hostileNode (Classifier.standard.classify hostileNode) .plain
    {} hostileNode.value.name .static 0 hostileElement (List.mem_cons_self ..)

end Emitter
end Handoff

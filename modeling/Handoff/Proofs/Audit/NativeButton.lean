import Handoff.Proofs.Audit.File
import Handoff.Proofs.Stylesheet.Text
import Handoff.Session
/-!
# When a native button is suggested

The audit of a component reads its file. It suggests a native button if the file has a tag other than
`button` that carries the role of one. Those are the elements that have the role, under the tags they
are written with. A wrapper stands in for the tag of the root, whatever that is: in a file with wrappers
a root with the role is never taken for a button, although its wrapper may be declared to be one.

Results:
* `Emitter.legible_written`: the search can read every tag of a component.
* `Emitter.isMisplaced_emit_iff`: what the search finds in the file of a component.
* `Settings.mem_suggestions_build_iff`: when a native button is suggested.
-/
namespace Handoff
open Text (Tagless tagless_of_consists)
open Markup (PlainName)

/-! ## Tags in small letters -/

/-- A letter, then letters, digits and hyphens; all letters are small ones. -/
def Tag.isSmall (tag : String) : Bool :=
  match tag.toList with
  | [] => false
  | first :: rest => first.isLower && rest.all fun c => c.isLower || c.isDigit || c == '-'

/-- Every tag of a table is in small letters. -/
def TagTable.Small (t : TagTable) : Prop := ∀ entry ∈ t.entries, Tag.isSmall entry.2 = true

instance (t : TagTable) : Decidable t.Small :=
  inferInstanceAs (Decidable (∀ entry ∈ t.entries, _))

namespace Tag

theorem isSmall_iff {tag : String} : isSmall tag = true ↔ ∃ first rest, tag.toList = first :: rest ∧
    first.isLower = true ∧ ∀ c ∈ rest, (c.isLower || c.isDigit || c == '-') = true := by
  unfold isSmall
  cases tag.toList with
  | nil => simp
  | cons first rest => simp [List.all_eq_true]

theorem alphanum_or_hyphen {c : Char} (h : (c.isLower || c.isDigit || c == '-') = true) :
    c.isAlphanum = true ∨ c = '-' := by
  rw [Bool.or_eq_true, Bool.or_eq_true, beq_iff_eq] at h
  simp only [Char.isAlphanum, Char.isAlpha, Bool.or_eq_true]
  exact h.imp_left (Or.imp_left .inr)

variable {tag : String}

theorem plainName_of_isSmall (small : isSmall tag = true) : PlainName tag := by
  obtain ⟨first, rest, eq, letter, word⟩ := isSmall_iff.mp small
  rw [PlainName, eq]
  refine ⟨List.cons_ne_nil first rest, List.forall_mem_cons.mpr ⟨?_, fun c hc => ?_⟩⟩
  · apply Markup.isTagChar_of_isAlphanum
    rw [Char.isAlphanum, isAlpha_of_isLower letter, Bool.true_or]
  · rcases alphanum_or_hyphen (word c hc) with alphanum | rfl
    · exact Markup.isTagChar_of_isAlphanum alphanum
    · rfl

theorem legible_of_isSmall (small : isSmall tag = true) : Legible tag := by
  obtain ⟨first, rest, eq, letter, word⟩ := isSmall_iff.mp small
  refine ⟨first, rest, eq, isAlpha_of_isLower letter, fun c hc => ?_⟩
  rcases alphanum_or_hyphen (word c hc) with alphanum | rfl
  · exact ButtonRole.isNameChar_of_isAlphanum alphanum
  · rfl

theorem map_toLower_of_isSmall (small : isSmall tag = true) :
    tag.toList.map Char.toLower = tag.toList := by
  obtain ⟨first, rest, eq, letter, word⟩ := isSmall_iff.mp small
  have own : first.toLower = first :=
    Char.toLower_eq_of_not_isUpper (by rw [isUpper_eq_false_of_isLower letter]; decide)
  have others : rest.map Char.toLower = rest := by
    refine (List.map_congr_left fun c hc => ?_).trans (List.map_id rest)
    have kept := word c hc
    rw [Bool.or_eq_true, Bool.or_eq_true, beq_iff_eq] at kept
    apply Char.toLower_eq_of_not_isUpper
    rw [Bool.not_eq_true]
    rcases kept with (lower | digit) | rfl
    · exact isUpper_eq_false_of_isLower lower
    · exact isUpper_eq_false_of_isDigit digit
    · rfl
  rw [eq, List.map_cons, own, others]

end Tag

theorem TagTable.Small.plain {t : TagTable} (small : t.Small) : t.Plain :=
  fun entry he => Tag.plainName_of_isSmall (small entry he)

theorem Tag.legible_wrapper (raw : String) : Legible (Naming.componentName raw ++ "Root") := by
  obtain ⟨first, rest, eq, letter⟩ := Naming.componentName_letter raw
  have chars := Naming.componentName_chars raw
  rw [eq] at chars
  have later : Consists Char.isAlphanum (rest ++ "Root".toList) :=
    chars.tail.append (consists_iff_all.mpr rfl)
  refine ⟨first, rest ++ "Root".toList, by rw [String.toList_append, eq]; rfl, letter, ?_⟩
  exact fun c hc => ButtonRole.isNameChar_of_isAlphanum (later c hc)

theorem Tag.wrapper_ne_button (name : String) :
    (name ++ "Root").toList.map Char.toLower ≠ "button".toList := by
  intro eq
  have last := congrArg List.getLast? eq
  rw [String.toList_append, List.map_append, List.getLast?_append] at last
  change some 't' = some 'n' at last
  exact absurd last (by decide)

/-! ## Elements -/

namespace Element

variable {tags : TagTable} {optimizeImages : Bool} {classOf : ClassAssignment}

theorem isSmall_tagOf (small : tags.Small) (layer : Layer) (isLeaf insideInteractive : Bool) :
    Tag.isSmall (tagOf tags layer isLeaf insideInteractive) = true :=
  tagOf_satisfies (fun tag => Tag.isSmall tag = true) small rfl rfl rfl layer isLeaf insideInteractive

theorem legible_headOf {tag : String} (legible : Tag.Legible tag) (place : Place) {ref : ClassRef}
    (plain : (Attribute.classRef ref).Plain) (s : StyledLayer) :
    (headOf tag place ref s optimizeImages).Legible := by
  refine ⟨legible, ?_⟩
  rintro a ha name rfl
  exact plain name (congrArg _ ((refersTo_headOf name).mp ha))

theorem mem_values_build {root : Styled} {h : ElementHead}
    (mem : h ∈ (build tags optimizeImages classOf root).values) :
    ∃ s ∈ root.values, ∃ place isLeaf inside,
      h = headOf (tagOf tags s.layer isLeaf inside) place (classOf place s) s optimizeImages := by
  obtain ⟨u, hu, rfl⟩ := List.mem_map.mp mem
  obtain ⟨⟨s, children⟩, hn, place, inside, rfl⟩ := mem_walk_ofNode hu
  exact ⟨s, List.mem_map.mpr ⟨_, hn, rfl⟩, place, children.isEmpty, inside, rfl⟩

theorem mem_roleTags_iff {e : Element} {tag : List Char} :
    tag ∈ e.roleTags ↔ ∃ h ∈ e.values, .role .button ∈ h.attributes ∧ h.tag.toList = tag := by
  simp [roleTags, ElementHead.roleTag?]

end Element

/-- An element that is no button has the role of one. -/
def ElementHead.PosesAsButton (h : ElementHead) : Prop :=
  h.tag ≠ "button" ∧ .role .button ∈ h.attributes

instance (h : ElementHead) : Decidable h.PosesAsButton :=
  inferInstanceAs (Decidable (_ ∧ _))

/-! ## Components -/

namespace Emitter

theorem legible_element (e : Emitter) (small : e.tags.Small) (policy : Option ViewportPolicy)
    (node : Node) (c : Classification) (style : StyleDialect) (options : EmissionOptions) :
    ∀ h ∈ (e.element (Styled.ofNode policy node c) style options).values,
      h.Legible ∧ Tag.isSmall h.tag = true := by
  intro h mem
  obtain ⟨s, carried, place, isLeaf, inside, rfl⟩ := Element.mem_values_build mem
  have tag := Element.isSmall_tagOf small s.layer isLeaf inside
  have plain : (Attribute.classRef (e.classAssignment style
      (widthsFor (Styled.ofNode policy node c) options) place s)).Plain :=
    fun _ binding => binding_chars e style _ carried (Attribute.classRef.inj binding)
  exact ⟨Element.legible_headOf (Tag.legible_of_isSmall tag) place plain s, tag⟩

/-- The search can read every tag of a component. -/
theorem legible_written {element : Element} (legible : ∀ h ∈ element.values, h.Legible)
    (style : StyleDialect) (raw : String) :
    ∀ h ∈ (written style (Naming.componentName raw) element).values, h.Legible := by
  cases element with
  | node head children =>
    have wrapper := Tag.legible_wrapper raw
    unfold written
    generalize Naming.componentName raw ++ "Root" = tag at wrapper ⊢
    rw [Tree.values_node] at legible
    obtain ⟨own, below⟩ := List.forall_mem_cons.mp legible
    split_ifs
    · rw [Tree.values_node]
      exact List.forall_mem_cons.mpr ⟨⟨wrapper, own.attributes⟩, below⟩
    · rw [Tree.values_node]
      exact legible

/-- In the file of a component, the search finds the tags of the elements that have the role. -/
theorem tags_emit (e : Emitter) (small : e.tags.Small) (policy : Option ViewportPolicy) {node : Node}
    (font : ∀ l ∈ node.values, l.PlainFont) (c : Classification) (raw : String) (dialect : Dialect)
    (options : EmissionOptions) :
    let root := Styled.ofNode policy node c
    let name := Naming.componentName raw
    ButtonRole.tags (e.emit root name dialect options).markup =
      (written dialect.style name (e.element root dialect.style options)).roleTags := by
  intro root name
  have legible := legible_element e small policy node c dialect.style options
  have safe := safe_element e small.plain policy node c dialect.style options
  have body := Element.finds_render (safe_written safe dialect.style raw)
    (legible_written (fun h mem => (legible h mem).1) dialect.style raw) dialect.markup 0
  have chars := Naming.componentName_chars raw
  have tag : Tagless (e.element root dialect.style options).value.tag := by
    have small := (legible _ (List.mem_map.mpr ⟨_, Tree.mem_walk_self _, rfl⟩)).2
    exact fun mem => absurd ((Tag.plainName_of_isSmall small).2 _ mem) (by decide)
  have sheet : Tagless (stylesheetText root dialect.style name
      (e.element root dialect.style options).value.tag (widthsFor root options)) :=
    tagless_stylesheetText font dialect.style (tagless_of_consists chars rfl) tag _
  obtain ⟨p, file, named, bodied, styled, typed⟩ := exists_parts e root name dialect options
  have clean : p.Clean :=
    ⟨named ▸ chars, styled ▸ sheet, typed ▸ PropSpec.tagless_ofVerdict root.value.verdict⟩
  rw [ButtonRole.tags_eq, file]
  exact ComponentParts.names_file clean (bodied ▸ body) dialect.markup

/-- A wrapper with the role is not called like a button, and tags in small letters are what they are. -/
theorem exists_written_iff {element : Element} (small : ∀ h ∈ element.values, Tag.isSmall h.tag = true)
    (style : StyleDialect) (name : String) :
    (∃ h ∈ (written style name element).values,
        .role .button ∈ h.attributes ∧ h.tag.toList.map Char.toLower ≠ "button".toList) ↔
      (∃ h ∈ element.values, h.PosesAsButton) ∨
        style = .cssInJs ∧ .role .button ∈ element.value.attributes := by
  have same (h : ElementHead) (small : Tag.isSmall h.tag = true) :
      .role .button ∈ h.attributes ∧ h.tag.toList.map Char.toLower ≠ "button".toList ↔
        h.PosesAsButton := by
    rw [Tag.map_toLower_of_isSmall small, Ne, String.toList_inj, and_comm]
    rfl
  cases element with
  | node head children =>
    have wrapper := Tag.wrapper_ne_button name
    rw [Tree.values_node] at small
    obtain ⟨own, below⟩ := List.forall_mem_cons.mp small
    have inner := exists_congr fun h => and_congr_right fun mem => same h (below h mem)
    unfold written
    rw [Tree.values_node, List.exists_mem_cons_iff]
    split_ifs with wrapped
    · -- The root is written under another tag here, so its own tag no longer matters.
      rw [Tree.values_node, List.exists_mem_cons_iff, inner]
      have posing : head.PosesAsButton → .role .button ∈ head.attributes := And.right
      constructor
      · rintro (⟨role, -⟩ | poses)
        · exact .inr ⟨wrapped, role⟩
        · exact .inl (.inr poses)
      · rintro ((poses | poses) | ⟨-, role⟩)
        · exact .inl ⟨posing poses, wrapper⟩
        · exact .inr poses
        · exact .inl ⟨role, wrapper⟩
    · rw [Tree.values_node, List.exists_mem_cons_iff, inner, same head own]
      simp [wrapped]

/-- What the search finds in the file of a component: the elements that have the role of a button and
are none, and the wrapper of a root with the role. -/
theorem isMisplaced_emit_iff (e : Emitter) (small : e.tags.Small) (policy : Option ViewportPolicy)
    {node : Node} (font : ∀ l ∈ node.values, l.PlainFont) (c : Classification) (raw : String)
    (dialect : Dialect) (options : EmissionOptions) :
    let root := Styled.ofNode policy node c
    let element := e.element root dialect.style options
    ButtonRole.isMisplaced (e.emit root (Naming.componentName raw) dialect options).markup = true ↔
      (∃ h ∈ element.values, h.PosesAsButton) ∨
        dialect.style = .cssInJs ∧ .role .button ∈ element.value.attributes := by
  intro root element
  have found := tags_emit e small policy font c raw dialect options
  have tags := legible_element e small policy node c dialect.style options
  rw [ButtonRole.isMisplaced, found, List.any_eq_true,
    ← exists_written_iff (fun h mem => (tags h mem).2) dialect.style (Naming.componentName raw)]
  simp only [Element.mem_roleTags_iff, bne_iff_ne]
  constructor
  · rintro ⟨tag, ⟨h, mem, role, rfl⟩, misplaced⟩
    exact ⟨h, mem, role, misplaced⟩
  · rintro ⟨h, mem, role, misplaced⟩
    exact ⟨_, ⟨h, mem, role, rfl⟩, misplaced⟩

end Emitter

/-! ## Audits -/

namespace Auditor

/-- An auditor that has nothing else to say about native buttons. -/
structure Neutral (a : Auditor) : Prop where
  general : nativeButtonHint ∉ a.generalSuggestions
  category : ∀ entry ∈ a.categorySuggestions, nativeButtonHint ∉ entry.2

theorem mem_suggestions_iff {a : Auditor} (neutral : a.Neutral) (issues : List Issue)
    (category : Category) (markup : String) :
    nativeButtonHint ∈ a.suggestions issues category markup ↔
      ButtonRole.isMisplaced markup = true := by
  have own : nativeButtonHint ∉
      ((a.categorySuggestions.find? fun entry => entry.1 == category).map Prod.snd).getD [] := by
    cases found : a.categorySuggestions.find? fun entry => entry.1 == category with
    | none => exact List.not_mem_nil
    | some entry => exact neutral.category entry (List.mem_of_find?_eq_some found)
  have contrast : nativeButtonHint ≠ "Check color pairs with a WCAG contrast checker" := by decide
  have focus : nativeButtonHint ≠ "Add :focus-visible styling for keyboard users" := by decide
  have alt : nativeButtonHint ≠ "Write alt text that conveys the purpose of each image" := by decide
  unfold suggestions
  dsimp only
  simp only [List.mem_append, List.mem_ite_nil_right, List.mem_singleton, neutral.general, own,
    contrast, focus, alt, and_false, and_true, false_or]

end Auditor

namespace Settings

/-- When a native button is suggested: if an element that is no button has the role of one, and also,
in code with wrappers, if the root has it. The latter is regardless of the tag that the wrapper is
declared with, so the suggestion is made for a root that is a button as well. Nothing else in a file
can bring the suggestion about, whatever the names and texts of the design are, unless a tag begins in
a font family. -/
theorem mem_suggestions_build_iff (s : Settings) (small : s.tags.Small) (neutral : s.auditor.Neutral)
    (node : Node) (font : ∀ l ∈ node.values, l.PlainFont) (dialect : Dialect) (options : Options)
    (audited : options.includeAccessibility = true) (custom : CustomCode) :
    let element := s.emitter.element (s.styled node options) dialect.style (emissionOptions options)
    ∃ report, (s.build node dialect options custom).accessibility = some report ∧
      (Auditor.nativeButtonHint ∈ report.suggestions ↔
        (∃ h ∈ element.values, h.PosesAsButton) ∨
          dialect.style = .cssInJs ∧ .role .button ∈ element.value.attributes) := by
  intro element
  have misplaced := s.emitter.isMisplaced_emit_iff small
    (if options.includeResponsive then some s.viewport else none) font (s.classifier.classify node)
    node.value.name dialect (emissionOptions options)
  refine ⟨_, if_pos audited, ?_⟩
  exact (Auditor.mem_suggestions_iff neutral _ _ _).trans misplaced

/-- A button with a label in a font of its own. -/
def buyButton : Node :=
  .node { id := "1", name := "Buy button", kind := .frame } [
    .leaf { id := "2", name := "Label", kind := .text, characters := some "Buy",
            typography := some { family := some "Inter" } }]

/-- The button in code with a wrapper, for one width of screens. -/
def buyButtonReport : Option AuditReport :=
  (({} : Settings).build buyButton ⟨.componentized, .cssInJs, fun _ => rfl⟩
    { includeResponsive := false } {}).accessibility

/-- A native button is suggested for a wrapper that is declared as a button. -/
theorem mem_suggestions_build_buyButton :
    let options : Options := { includeResponsive := false }
    let element := ({} : Settings).emitter.element (({} : Settings).styled buyButton options) .cssInJs
      (emissionOptions options)
    TagTable.standard.Small ∧ Auditor.standard.Neutral ∧ (∀ l ∈ buyButton.values, l.PlainFont) ∧
      options.includeAccessibility = true ∧
      element.values.map (fun h => (h.tag, decide (.role .button ∈ h.attributes))) =
        [("button", true), ("span", false)] ∧
      ∃ report, buyButtonReport = some report ∧ Auditor.nativeButtonHint ∈ report.suggestions := by
  have small : TagTable.standard.Small := by decide +kernel
  have neutral : Auditor.standard.Neutral := ⟨by decide +kernel, by decide +kernel⟩
  have font : ∀ l ∈ buyButton.values, l.PlainFont := by
    intro l hl t typography family given
    simp only [buyButton, Tree.leaf, Tree.values_node, List.flatMap_cons, List.flatMap_nil,
      List.append_nil, List.mem_cons, List.not_mem_nil, or_false] at hl
    rcases hl with rfl | rfl
    · cases typography
    · cases typography
      cases given
      exact Text.tagless_of_all rfl
  refine ⟨small, neutral, font, rfl, by decide +kernel, ?_⟩
  obtain ⟨report, given, suggested⟩ := mem_suggestions_build_iff {} small neutral buyButton font
    ⟨.componentized, .cssInJs, fun _ => rfl⟩ { includeResponsive := false } rfl {}
  exact ⟨report, given, suggested.mpr (.inr ⟨rfl, by decide +kernel⟩)⟩

end Settings
end Handoff

import Handoff.Proofs.Audit.File
import Handoff.Proofs.Markup.Attributes
import Handoff.Proofs.Markup.Selectors
import Handoff.Proofs.Text.Indent
/-!
# Style modules in template files

A template file has a block for its style module only if there are rules to put in it, and a rule is only
made for a node with styles. Elements refer to the module whether they have a rule or not. So the file of
a scene without any styles refers to a module that is not there.

Results:
* `Stylesheet.moduleText_ofStyled_eq_empty_iff`: which scenes have no rules.
* `ComponentParts.hasModule_templateFile_iff`: which files have a module.
* `Emitter.templated_module_iff`: what a file refers to, and what it has.
-/
namespace Handoff

open Naming (moduleBinding)
open Text (rows Indented Tagless tagless_of_all tagless_append tagless_intercalate)

/-! ## Scenes without rules -/

theorem StyleBag.isEmpty_diff {a b : StyleBag} (keys : a.keys = b.keys) (empty : b.isEmpty = true) :
    (diff a b).isEmpty = true := by
  have none : b.keys = [] := List.map_eq_nil_iff.mpr (List.isEmpty_iff.mp empty)
  have kept := keys_diff_subset a b
  rw [keys, none] at kept
  exact List.isEmpty_iff.mpr (List.map_eq_nil_iff.mp (List.eq_nil_iff_forall_not_mem.mpr
    fun key mem => absurd (kept key mem) List.not_mem_nil))

namespace Stylesheet

theorem moduleText_eq_empty_iff {sheet : Stylesheet} :
    sheet.moduleText = "" ↔ sheet.rules = [] ∧ sheet.media = [] := by
  unfold moduleText classText
  dsimp only
  split
  · next none =>
    rw [List.isEmpty_iff, List.append_eq_nil_iff, List.map_eq_nil_iff, List.map_eq_nil_iff] at none
    exact ⟨fun _ => none, fun _ => rfl⟩
  · next filled =>
    rw [List.isEmpty_iff, List.append_eq_nil_iff, List.map_eq_nil_iff, List.map_eq_nil_iff] at filled
    refine ⟨fun empty => ?_, fun none => absurd none filled⟩
    have chars := congrArg String.toList empty
    rw [String.toList_append] at chars
    exact absurd (List.append_eq_nil_iff.mp chars).2 (by decide)

theorem mem_values_of_mem_numbered {root : Styled} {e : Nat × StyledLayer} (h : e ∈ numbered root) :
    e.2 ∈ root.values := by
  obtain ⟨⟨s, position⟩, mem, rfl⟩ := List.mem_map.mp h
  exact (List.mem_zipIdx mem).2.2 ▸ List.getElem_mem _

theorem rule?_eq_none_iff {position : Nat} {className : String} {styles : StyleBag} :
    rule? position className styles = none ↔ styles.isEmpty = true := by
  unfold rule?
  split <;> simp_all

/-- Every node with styles has a rule. -/
theorem rules_ofStyled_eq_nil_iff {root : Styled} {widths : Option Breakpoints} :
    (ofStyled root widths).rules = [] ↔ ∀ s ∈ root.values, s.styles.isEmpty = true := by
  simp only [ofStyled, List.filterMap_eq_nil_iff, rule?_eq_none_iff]
  constructor
  · intro none s hs
    obtain ⟨position, bound, rfl⟩ := List.mem_iff_getElem.mp hs
    exact none (position, root.values[position])
      (List.mem_map.mpr ⟨(root.values[position], position), by simp [List.mem_zipIdx_iff_getElem?], rfl⟩)
  · exact fun none e he => none e.2 (mem_values_of_mem_numbered he)

theorem overrides_eq_nil {root : Styled} {variant : Variants → StyleBag}
    (same : ∀ s ∈ root.values, ∀ v, s.variants = some v →
      (StyleBag.diff (variant v) s.styles).isEmpty = true) : overrides root variant = [] := by
  refine List.filterMap_eq_nil_iff.mpr fun e he => ?_
  refine Option.bind_eq_none_iff.mpr fun v given => ?_
  exact rule?_eq_none_iff.mpr (same e.2 (mem_values_of_mem_numbered he) v given)

theorem media_ofStyled_eq_nil {root : Styled} (tablet : overrides root Variants.tablet = [])
    (mobile : overrides root Variants.mobile = []) (widths : Option Breakpoints) :
    (ofStyled root widths).media = [] := by
  show mediaOf root widths = []
  unfold mediaOf
  rw [tablet, mobile]
  split
  · rfl
  · split <;> rfl

end Stylesheet

namespace Styled

theorem styles_eq_resolve {policy : Option ViewportPolicy} {n : Node} {c : Classification}
    {s : StyledLayer} (h : s ∈ (ofNode policy n c).values) : s.styles = s.layer.resolve := by
  obtain ⟨layer, -, verdict, namer, rfl⟩ := mem_values_ofNode h
  rfl

/-- On every screen a node has the properties that it has without one. -/
theorem keys_variants {policy : Option ViewportPolicy} {n : Node} {c : Classification}
    {s : StyledLayer} (h : s ∈ (ofNode policy n c).values) {v : Variants} (given : s.variants = some v) :
    v.tablet.keys = s.styles.keys ∧ v.mobile.keys = s.styles.keys := by
  obtain ⟨layer, -, verdict, namer, rfl⟩ := mem_values_ofNode h
  obtain ⟨screens, -, rfl⟩ := Option.map_eq_some_iff.mp given
  exact ⟨screens.tablet.keys_apply _, screens.mobile.keys_apply _⟩

end Styled

/-- The stylesheet of a scene is empty if none of its nodes has styles. -/
theorem Stylesheet.moduleText_ofStyled_eq_empty_iff (policy : Option ViewportPolicy)
    (classifier : Classifier) (node : Node) (widths : Option Breakpoints) :
    (ofStyled (Styled.ofNode policy node (classifier.classify node)) widths).moduleText = "" ↔
      ∀ layer ∈ node.values, layer.resolve.isEmpty = true := by
  have scene : (Styled.ofNode policy node (classifier.classify node)).values.map StyledLayer.layer =
      node.values := by
    rw [← Tree.values_map, Styled.map_layer_ofNode policy (classifier.sameShape_classify node)]
  rw [moduleText_eq_empty_iff, rules_ofStyled_eq_nil_iff, ← scene, List.forall_mem_map]
  constructor
  · intro none s hs
    rw [← Styled.styles_eq_resolve hs]
    exact none.1 s hs
  · intro none
    have unstyled (s) (hs : s ∈ (Styled.ofNode policy node (classifier.classify node)).values) :
        s.styles.isEmpty = true := by
      rw [Styled.styles_eq_resolve hs]
      exact none s hs
    refine ⟨unstyled, media_ofStyled_eq_nil ?_ ?_ widths⟩
    · exact overrides_eq_nil fun s hs v given =>
        StyleBag.isEmpty_diff (Styled.keys_variants hs given).1 (unstyled s hs)
    · exact overrides_eq_nil fun s hs v given =>
        StyleBag.isEmpty_diff (Styled.keys_variants hs given).2 (unstyled s hs)

/-! ## Files with a module -/

def moduleTag : String := "<style module>"

def HasModule (file : String) : Prop := moduleTag.toList ∈ rows file.toList

instance (file : String) : Decidable (HasModule file) := inferInstanceAs (Decidable (_ ∈ _))

/-- A name brings the line of a style module with it. -/
def BringsModule (name : String) : Prop := '\n' :: moduleTag.toList ++ ['\n'] <:+: name.toList

theorem not_hasModule_indent (body : String) : ¬HasModule (Text.indent 2 body) := by
  intro has
  have row : Indented 2 moduleTag.toList := by
    unfold HasModule Text.indent at has
    rw [String.toList_ofList] at has
    exact Text.mem_rows_indentChars has
  rcases row with blank | spaces
  · exact absurd blank (by decide)
  · exact absurd spaces (by decide)

theorem hasModule_intercalate {first : String} {rest : List String} :
    HasModule (String.intercalate "\n" (first :: rest)) ↔ ∃ text ∈ first :: rest, HasModule text :=
  Text.mem_rows_intercalate

theorem hasModule_framed {front name back : String}
    (plain : '\n' ∉ front.toList ++ moduleTag.toList ++ back.toList)
    (begins : ¬front.toList <+: moduleTag.toList) (ends : ¬back.toList <:+ moduleTag.toList) :
    HasModule (front ++ name ++ back) ↔ BringsModule name := by
  unfold HasModule
  rw [String.toList_append, String.toList_append]
  exact Text.mem_rows_framed_iff plain begins ends

theorem not_hasModule_of_tagless {text : String} (h : Tagless text) : ¬HasModule text :=
  fun has => h (Text.subset_of_mem_rows has (by decide))

/-- The type of the props only repeats the name of the component. -/
theorem PropSpec.hasModule_interfaceText (name : String) {props : List PropSpec}
    (hp : ∀ prop ∈ props, Tagless prop.name ∧ Tagless prop.type) :
    HasModule (interfaceText name props) ↔ BringsModule name := by
  have opening : HasModule ("interface " ++ name ++ "Props \x7b") ↔ BringsModule name :=
    hasModule_framed (by decide) (by decide) (by decide)
  unfold interfaceText
  dsimp only
  rw [List.cons_append, hasModule_intercalate]
  constructor
  · rintro ⟨line, mem, has⟩
    simp only [List.mem_cons, List.mem_append, List.mem_map, List.not_mem_nil, or_false] at mem
    rcases mem with rfl | ⟨prop, mem, rfl⟩ | rfl
    · exact opening.mp has
    · have margin : Tagless "  " := tagless_of_all rfl
      have colon : Tagless "?: " := tagless_of_all rfl
      have stop : Tagless ";" := tagless_of_all rfl
      obtain ⟨name, type⟩ := hp prop mem
      refine absurd has (not_hasModule_of_tagless ?_)
      simp only [tagless_append]
      exact ⟨⟨⟨⟨margin, name⟩, colon⟩, type⟩, stop⟩
    · exact absurd has (not_hasModule_of_tagless (tagless_of_all rfl))
  · exact fun brings => ⟨_, List.mem_cons_self .., opening.mpr brings⟩

namespace ComponentParts

variable {p : ComponentParts}

theorem hasModule_joined {first : String} {rest : List String} :
    HasModule (joined (first :: rest)) ↔ ∃ text ∈ first :: rest, HasModule text :=
  hasModule_intercalate

/-- Of the script only the types repeat the name of the component. -/
theorem hasModule_script (hp : ∀ prop ∈ p.props, Tagless prop.name ∧ Tagless prop.type) :
    HasModule p.script ↔ p.typescript = true ∧ BringsModule p.name := by
  have empty : ¬HasModule "" := not_hasModule_of_tagless (tagless_of_all rfl)
  have typedEvents : ¬HasModule "defineEmits<\x7b (e: 'click'): void \x7d>();" := by decide
  have events : ¬HasModule "defineEmits(['click']);" := not_hasModule_of_tagless (tagless_of_all rfl)
  have typed : HasModule ("defineProps<" ++ p.propsType ++ ">();") ↔ BringsModule p.name := by
    unfold propsType
    rw [← String.append_assoc, String.append_assoc]
    exact hasModule_framed (by decide) (by decide) (by decide)
  have listed : ¬HasModule ("defineProps([" ++ String.intercalate ", " (p.props.map fun prop =>
      "'" ++ prop.name ++ "'") ++ "]);") := by
    have opening : Tagless "defineProps([" := tagless_of_all rfl
    have closing : Tagless "]);" := tagless_of_all rfl
    refine not_hasModule_of_tagless (tagless_append.mpr ⟨tagless_append.mpr ⟨opening, ?_⟩, closing⟩)
    refine tagless_intercalate (tagless_of_all rfl) (List.forall_mem_map.mpr fun prop mem => ?_)
    have quote : Tagless "'" := tagless_of_all rfl
    exact tagless_append.mpr ⟨tagless_append.mpr ⟨quote, (hp prop mem).1⟩, quote⟩
  unfold script
  dsimp only
  cases p.typescript with
  | false => cases p.isInteractive <;> simp [hasModule_joined, listed, events]
  | true =>
    cases p.isInteractive <;>
      simp [hasModule_joined, PropSpec.hasModule_interfaceText _ hp, typed, typedEvents, empty]

theorem hasModule_styleBlock (style : p.style = .scopedModule) :
    HasModule p.styleBlock ↔ p.stylesheet ≠ "" := by
  unfold styleBlock
  rw [style]
  dsimp only
  split
  · next none =>
    have empty : ¬HasModule "" := not_hasModule_of_tagless (tagless_of_all rfl)
    exact ⟨fun has => absurd has empty, fun some => absurd none some⟩
  · next filled =>
    refine ⟨fun _ => filled, fun _ => ?_⟩
    have text : ("\n<style " ++ "module" ++ ">\n" ++ p.stylesheet ++ "</style>\n").toList =
        '\n' :: (moduleTag.toList ++ '\n' :: (p.stylesheet ++ "</style>\n").toList) := by
      simp only [String.toList_append]
      rfl
    unfold HasModule
    rw [text, ← List.nil_append ('\n' :: _), Text.rows_append_newline,
      Text.rows_not_mem_append_newline (by decide)]
    exact List.mem_append_right _ (List.mem_cons_self ..)

/-- A template file has a style module if there are rules to put in it, or if the types in its script
bring the line with them. -/
theorem hasModule_templateFile_iff (style : p.style = .scopedModule)
    (hp : ∀ prop ∈ p.props, Tagless prop.name ∧ Tagless prop.type) :
    HasModule p.templateFile ↔ p.stylesheet ≠ "" ∨ (p.typescript = true ∧ BringsModule p.name) := by
  have fixed : ¬HasModule "<template>" ∧ ¬HasModule "</template>" ∧ ¬HasModule "" ∧
      ¬HasModule "</script>" := by decide
  have opening : ¬HasModule ("<script setup" ++ (if p.typescript then " lang=\"ts\"" else "") ++ ">") := by
    cases p.typescript <;> decide
  unfold templateFile
  simp only [hasModule_joined, List.mem_cons, List.not_mem_nil, or_false, exists_eq_or_imp,
    exists_eq_left, fixed, not_hasModule_indent, opening, hasModule_script hp,
    hasModule_styleBlock style, false_or]
  exact or_comm

theorem exists_templateFile (p : ComponentParts) :
    ∃ rest, p.templateFile =
      "<template>\n" ++ Text.indent 2 p.body ++ "\n</template>\n\n<script setup" ++ rest := by
  refine ⟨(if p.typescript then " lang=\"ts\"" else "") ++ ">" ++
    String.ofList (Element.broken [p.script, "</script>", p.styleBlock]), ?_⟩
  apply String.toList_inj.mp
  unfold templateFile joined
  rw [Element.toList_intercalate_lines]
  simp only [String.toList_append, String.toList_ofList, Element.broken_cons]
  simp [Element.broken]

theorem exists_templateFile_module (style : p.style = .scopedModule) (filled : p.stylesheet ≠ "") :
    ∃ front, p.templateFile = front ++ "\n<style module>\n" ++ p.stylesheet ++ "</style>\n" := by
  have block : p.styleBlock = "\n<style " ++ "module" ++ ">\n" ++ p.stylesheet ++ "</style>\n" := by
    unfold styleBlock
    rw [style]
    exact if_neg filled
  refine ⟨joined ["<template>", Text.indent 2 p.body, "</template>", "",
    "<script setup" ++ (if p.typescript then " lang=\"ts\"" else "") ++ ">", p.script,
    "</script>"] ++ "\n", ?_⟩
  apply String.toList_inj.mp
  unfold templateFile joined
  rw [block]
  simp only [String.toList_append, Element.toList_intercalate_lines, Element.broken_cons]
  simp [Element.broken]

end ComponentParts

namespace Emitter

/-- The template of a component that refers to a style module. -/
def template (e : Emitter) (root : Styled) (options : EmissionOptions) : String :=
  Text.indent 2 ((e.element root .scopedModule options).render .templated 0)

def moduleReference (s : StyledLayer) : String :=
  Attribute.quoted ":class" ("$style." ++ moduleBinding s.className)

theorem exists_moduleParts (e : Emitter) (root : Styled) (name : String) (options : EmissionOptions) :
    let code := e.emit root name ⟨.templated, .scopedModule, nofun⟩ options
    ∃ p : ComponentParts, code.markup = p.templateFile ∧
      Text.indent 2 p.body = e.template root options ∧ p.name = name ∧
      p.stylesheet = code.stylesheet ∧ p.style = .scopedModule ∧ p.typescript = options.typescript ∧
      p.props = PropSpec.ofVerdict root.value.verdict := by
  refine ⟨_, rfl, ?_, rfl, rfl, rfl, rfl, rfl⟩
  have plain (element : Element) : written .scopedModule name element = element := by
    cases element
    rfl
  dsimp only
  rw [plain]
  rfl

theorem not_mem_moduleReference {policy : Option ViewportPolicy} {node : Node} {c : Classification}
    {s : StyledLayer} (mem : s ∈ (Styled.ofNode policy node c).values) {x : Char}
    (alphanum : x.isAlphanum = false) (apart : x ∉ ":class=\"$style.".toList) :
    x ∉ (moduleReference s).toList := by
  have letters := Naming.moduleBinding_chars (Styled.className_chars mem)
  have text : (moduleReference s).toList =
      ":class=\"$style.".toList ++ (moduleBinding s.className).toList ++ ['"'] := by
    unfold moduleReference Attribute.quoted
    simp only [String.toList_append]
    rfl
  have quote : x ≠ '"' := by
    rintro rfl
    exact apart (by decide)
  rw [text]
  simp only [List.mem_append, List.mem_singleton, not_or]
  refine ⟨⟨apart, fun inside => ?_⟩, quote⟩
  rw [letters x inside] at alphanum
  cases alphanum

theorem moduleReference_infix_template (e : Emitter) {policy : Option ViewportPolicy} {node : Node}
    {c : Classification} (options : EmissionOptions) {s : StyledLayer}
    (mem : s ∈ (Styled.ofNode policy node c).values) :
    (moduleReference s).toList <:+: (e.template (Styled.ofNode policy node c) options).toList := by
  have feed := not_mem_moduleReference mem (x := '\n') (by decide) (by decide)
  have return' := not_mem_moduleReference mem (x := '\r') (by decide) (by decide)
  generalize Styled.ofNode policy node c = root at mem
  obtain ⟨n, hn, rfl⟩ := List.mem_map.mp mem
  have element : ∃ u ∈ (e.element root .scopedModule options).walk, ∃ place inside,
      u = Element.ofNode e.tags options.optimizeImages
        (e.classAssignment .scopedModule (widthsFor root options)) place inside n :=
    Element.exists_mem_walk_ofNode hn
  obtain ⟨u, hu, place, inside, eq⟩ := element
  have refers : u.value.RefersTo (moduleBinding n.value.className) := by
    rw [eq]
    cases n
    rw [Element.ofNode]
    exact (Element.refersTo_headOf _).mpr rfl
  unfold template Text.indent
  rw [String.toList_ofList]
  refine Text.infix_indentChars feed return' ?_
  exact Element.infix_render (fun v hv void => (Element.children_of_isVoid hv void).1) 0 hu refers rfl

/-- What the template file of a component with a style module refers to, and what it has. The template
refers to the module for every node. The module is there, at the end of the file, if some node of the
scene has styles; otherwise it is not, save that the types in the script repeat the name of the
component. -/
theorem templated_module_iff (e : Emitter) (policy : Option ViewportPolicy) (classifier : Classifier)
    (node : Node) (name : String) (options : EmissionOptions) :
    let root := Styled.ofNode policy node (classifier.classify node)
    let code := e.emit root name ⟨.templated, .scopedModule, nofun⟩ options
    let template := e.template root options
    (∃ rest, code.markup = "<template>\n" ++ template ++ "\n</template>\n\n<script setup" ++ rest) ∧
    (∀ s ∈ root.values, (moduleReference s).toList <:+: template.toList) ∧
    ((∃ layer ∈ node.values, layer.resolve.isEmpty = false) →
      ∃ front, code.markup = front ++ "\n<style module>\n" ++ code.stylesheet ++ "</style>\n") ∧
    (HasModule code.markup ↔ (∃ layer ∈ node.values, layer.resolve.isEmpty = false) ∨
      options.typescript = true ∧ BringsModule name) := by
  intro root code template
  obtain ⟨p, file, body, named, sheet, style, typed, props⟩ := e.exists_moduleParts root name options
  have filled : p.stylesheet ≠ "" ↔ ∃ layer ∈ node.values, layer.resolve.isEmpty = false := by
    rw [sheet]
    refine (Stylesheet.moduleText_ofStyled_eq_empty_iff policy classifier node
      (widthsFor root options)).not.trans ?_
    simp
  refine ⟨?_, fun s hs => moduleReference_infix_template e options hs, fun styled => ?_, ?_⟩
  · obtain ⟨rest, eq⟩ := p.exists_templateFile
    rw [body] at eq
    exact ⟨rest, file.trans eq⟩
  · obtain ⟨front, eq⟩ := ComponentParts.exists_templateFile_module style (filled.mpr styled)
    rw [sheet] at eq
    exact ⟨front, file.trans eq⟩
  · have has := ComponentParts.hasModule_templateFile_iff style
      (props ▸ PropSpec.tagless_ofVerdict root.value.verdict)
    rw [filled, typed, named, ← file] at has
    exact has

def boxNode : Node :=
  .leaf { id := "1", name := "Box", kind := .frame }

/-- The template file of that frame refers to a style module, and has none. -/
theorem templated_module_box :
    let root := Styled.ofNode none boxNode (Classifier.standard.classify boxNode)
    let code := Emitter.emit {} root "Box" ⟨.templated, .scopedModule, nofun⟩ {}
    ":class=\"$style.box\"".toList <:+: (Emitter.template {} root {}).toList ∧
      ¬HasModule code.markup := by
  intro root code
  obtain ⟨-, refers, -, has⟩ := templated_module_iff {} none Classifier.standard boxNode "Box" {}
  have reference : moduleReference root.value = ":class=\"$style.box\"" := by decide +kernel
  have unstyled : ¬∃ layer ∈ boxNode.values, layer.resolve.isEmpty = false := by decide +kernel
  constructor
  · rw [← reference]
    exact refers _ (List.mem_map_of_mem (Tree.mem_walk_self root))
  · refine has.not.mpr (not_or.mpr ⟨unstyled, fun typed => ?_⟩)
    cases typed.1

end Emitter

end Handoff

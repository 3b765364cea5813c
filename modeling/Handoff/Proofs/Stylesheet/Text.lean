import Handoff.Component.Emission
import Handoff.Proofs.Markup.Selectors
import Handoff.Proofs.Style.Clean
/-!
# What stands in a stylesheet

A stylesheet holds the styles of layers, class names, the name of the component and a tag. So no tag
begins in it unless one begins in a font family of the design.

Results:
* `Stylesheet.cleanRule_of_mem_allRules`: every rule about clean layers is clean.
* `Emitter.tagless_stylesheetText`: the stylesheet of a component, in every dialect.
-/
namespace Handoff

open Text (Tagless tagless_of_all tagless_append tagless_intercalate tagless_of_consists tagless_spaces)

/-! ## Rules -/

namespace Stylesheet

/-- The name of a class, and clean styles. -/
structure CleanRule (r : StyleRule) : Prop where
  className : Consists isNameChar r.className.toList
  styles : r.styles.Clean

theorem tagless_declarationLines (column : Nat) {bag : StyleBag} (clean : bag.Clean) :
    ∀ line ∈ declarationLines column bag, Tagless line := by
  intro line hl
  obtain ⟨⟨key, v⟩, mem, rfl⟩ := List.mem_map.mp hl
  obtain ⟨worded, value⟩ := clean key v (Keyed.get?_eq_some_iff.mpr mem)
  have property : Tagless (propertyName key) := tagless_of_consists (Text.kebab_chars worded) rfl
  have colon : Tagless ": " := tagless_of_all rfl
  have stop : Tagless ";" := tagless_of_all rfl
  simp only [tagless_append]
  exact ⟨⟨⟨⟨tagless_spaces column, property⟩, colon⟩, value⟩, stop⟩

theorem tagless_ruleLines (column : Nat) {selector : String} (hs : Tagless selector) {bag : StyleBag}
    (clean : bag.Clean) : ∀ line ∈ ruleLines column selector bag, Tagless line := by
  have opening : Tagless " \x7b" := tagless_of_all rfl
  have closing : Tagless "\x7d" := tagless_of_all rfl
  intro line hl
  unfold ruleLines at hl
  simp only [List.mem_append, List.mem_cons, List.not_mem_nil, or_false] at hl
  rcases hl with (rfl | hl) | rfl
  · simp only [tagless_append]
    exact ⟨⟨tagless_spaces column, hs⟩, opening⟩
  · exact tagless_declarationLines _ clean line hl
  · exact tagless_append.mpr ⟨tagless_spaces column, closing⟩

theorem tagless_joinedLines {lines : List String} (h : ∀ line ∈ lines, Tagless line) :
    Tagless (joinedLines lines) :=
  tagless_intercalate (tagless_of_all rfl) h

theorem tagless_condition (block : MediaBlock) : Tagless (condition block) := by
  have query : Tagless "@media (max-width: " := tagless_of_all rfl
  have unit : Tagless "px)" := tagless_of_all rfl
  unfold condition
  rw [tagless_append, tagless_append]
  exact ⟨⟨query, Number.tagless_toString _⟩, unit⟩

theorem tagless_blockLines (column : Nat) (block : MediaBlock) {lines : StyleRule → List String}
    (h : ∀ r ∈ block.rules, ∀ line ∈ lines r, Tagless line) :
    ∀ line ∈ blockLines column block lines, Tagless line := by
  have opening : Tagless " \x7b" := tagless_of_all rfl
  have closing : Tagless "\x7d" := tagless_of_all rfl
  intro line hl
  unfold blockLines at hl
  simp only [List.mem_append, List.mem_cons, List.not_mem_nil, or_false] at hl
  rcases hl with (rfl | hl) | rfl
  · simp only [tagless_append]
    exact ⟨⟨tagless_spaces column, tagless_condition block⟩, opening⟩
  · obtain ⟨r, hr, hl⟩ := List.mem_flatMap.mp hl
    exact h r hr line hl
  · exact tagless_append.mpr ⟨tagless_spaces column, closing⟩

/-- The sections of a stylesheet, if its rules are clean and written without tags. -/
theorem tagless_sections {sheet : Stylesheet} (clean : ∀ r ∈ sheet.allRules, CleanRule r)
    (column inner : Nat) {lines : Nat → StyleRule → List String}
    (h : ∀ column r, CleanRule r → ∀ line ∈ lines column r, Tagless line) :
    ∀ section' ∈ sheet.rules.map (fun r => joinedLines (lines column r)) ++
      sheet.media.map (fun b => joinedLines (blockLines column b (lines inner))),
      Tagless section' := by
  intro text ht
  rcases List.mem_append.mp ht with rule | block
  · obtain ⟨r, hr, rfl⟩ := List.mem_map.mp rule
    exact tagless_joinedLines (h column r (clean r (List.mem_append_left _ hr)))
  · obtain ⟨b, hb, rfl⟩ := List.mem_map.mp block
    refine tagless_joinedLines (tagless_blockLines column b fun r hr => h inner r (clean r ?_))
    exact List.mem_append_right _ (List.mem_flatMap.mpr ⟨b, hb, hr⟩)

variable {sheet : Stylesheet}

theorem tagless_classText (clean : ∀ r ∈ sheet.allRules, CleanRule r) {selector : String → String}
    (h : ∀ r, CleanRule r → Tagless (selector r.className)) : Tagless (sheet.classText selector) := by
  have gap : Tagless "\n\n" := tagless_of_all rfl
  have feed : Tagless "\n" := tagless_of_all rfl
  have sections := tagless_sections clean 0 2 fun column r hr =>
    tagless_ruleLines column (h r hr) hr.styles
  unfold classText
  dsimp only
  split
  · exact tagless_of_all rfl
  · exact tagless_append.mpr ⟨tagless_intercalate gap sections, feed⟩

theorem tagless_plainText (clean : ∀ r ∈ sheet.allRules, CleanRule r) : Tagless sheet.plainText :=
  tagless_classText clean fun _ hr =>
    tagless_append.mpr ⟨tagless_of_all rfl, tagless_of_consists hr.className rfl⟩

theorem tagless_moduleText (clean : ∀ r ∈ sheet.allRules, CleanRule r) : Tagless sheet.moduleText :=
  tagless_classText clean fun _ hr => tagless_append.mpr
    ⟨tagless_of_all rfl, tagless_of_consists (Naming.moduleBinding_chars hr.className) rfl⟩

theorem tagless_wrapperText (clean : ∀ r ∈ sheet.allRules, CleanRule r) {component tag : String}
    (hc : Tagless component) (ht : Tagless tag) : Tagless (sheet.wrapperText component tag) := by
  have declaration : Tagless "const " := tagless_of_all rfl
  have wrapper : Tagless "Root = styled." := tagless_of_all rfl
  have opening : Tagless "`\n" := tagless_of_all rfl
  have gap : Tagless "\n\n" := tagless_of_all rfl
  have closing : Tagless "\n`;\n" := tagless_of_all rfl
  have inner : Tagless "& ." := tagless_of_all rfl
  have wrapped (column : Nat) (r : StyleRule) (hr : CleanRule r) :
      ∀ line ∈ wrappedLines column r, Tagless line := by
    unfold wrappedLines
    split
    · exact tagless_declarationLines column hr.styles
    · exact tagless_ruleLines column
        (tagless_append.mpr ⟨inner, tagless_of_consists hr.className rfl⟩) hr.styles
  have sections := tagless_sections clean 2 4 wrapped
  unfold wrapperText
  simp only [tagless_append]
  exact ⟨⟨⟨⟨⟨⟨declaration, hc⟩, wrapper⟩, ht⟩, opening⟩, tagless_intercalate gap sections⟩, closing⟩

/-! ## Components -/

/-- A layer with a class name, whose styles are clean on every screen. -/
structure CleanLayer (s : StyledLayer) : Prop where
  className : Consists isNameChar s.className.toList
  styles : s.styles.Clean
  variants : ∀ v, s.variants = some v → v.tablet.Clean ∧ v.mobile.Clean

theorem cleanRule_of_mem_overrides {root : Styled} (clean : ∀ s ∈ root.values, CleanLayer s)
    {variant : Variants → StyleBag}
    (h : ∀ s v, CleanLayer s → s.variants = some v → (variant v).Clean) {r : StyleRule}
    (mem : r ∈ overrides root variant) : CleanRule r := by
  obtain ⟨s, there, named, v, variants, same⟩ := exists_of_mem_overrides mem
  have carried := clean s (List.mem_of_getElem? there)
  exact ⟨named ▸ carried.className, same ▸ StyleBag.clean_diff (h s v carried variants) s.styles⟩

/-- Every rule about clean layers is clean. -/
theorem cleanRule_of_mem_allRules {root : Styled} (clean : ∀ s ∈ root.values, CleanLayer s)
    {widths : Option Breakpoints} : ∀ r ∈ (ofStyled root widths).allRules, CleanRule r := by
  intro r mem
  rcases mem_allRules mem with own | tablet | mobile
  · obtain ⟨s, there, named, same⟩ := exists_of_mem (f := fun s => some s.styles) own
    have carried := clean s (List.mem_of_getElem? there)
    exact ⟨named ▸ carried.className, Option.some.inj same ▸ carried.styles⟩
  · exact cleanRule_of_mem_overrides clean (fun s v carried given => (carried.variants v given).1) tablet
  · exact cleanRule_of_mem_overrides clean (fun s v carried given => (carried.variants v given).2) mobile

theorem cleanLayer_ofNode {policy : Option ViewportPolicy} {node : Node} {c : Classification}
    (font : ∀ l ∈ node.values, l.PlainFont) :
    ∀ s ∈ (Styled.ofNode policy node c).values, CleanLayer s := by
  intro s hs
  have className := Styled.className_chars hs
  obtain ⟨layer, mem, verdict, namer, rfl⟩ := Styled.mem_values_ofNode hs
  have clean := Layer.clean_resolve (font layer mem)
  refine ⟨className, clean, ?_⟩
  intro v given
  obtain ⟨p, -, rfl⟩ := Option.map_eq_some_iff.mp given
  exact ⟨p.tablet.clean_apply clean, p.mobile.clean_apply clean⟩

end Stylesheet

/-- No tag begins in the stylesheet of a component whose fonts are plain. -/
theorem Emitter.tagless_stylesheetText {policy : Option ViewportPolicy} {node : Node}
    {c : Classification} (font : ∀ l ∈ node.values, l.PlainFont) (style : StyleDialect)
    {name tag : String} (hn : Tagless name) (ht : Tagless tag) (widths : Option Breakpoints) :
    Tagless (stylesheetText (Styled.ofNode policy node c) style name tag widths) := by
  have layers : ∀ s ∈ (Styled.ofNode policy node c).values, Stylesheet.CleanLayer s :=
    Stylesheet.cleanLayer_ofNode font
  have clean : ∀ r ∈ (Stylesheet.ofStyled (Styled.ofNode policy node c) widths).allRules,
      Stylesheet.CleanRule r := Stylesheet.cleanRule_of_mem_allRules layers
  cases style with
  | utility => exact tagless_of_all (s := utilityStylesheet) rfl
  | plain => exact Stylesheet.tagless_plainText clean
  | scopedModule => exact Stylesheet.tagless_moduleText clean
  | cssInJs => exact Stylesheet.tagless_wrapperText clean hn ht

end Handoff

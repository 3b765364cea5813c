import Handoff.Proofs.Style.Resolve
import Handoff.Proofs.Text.Tagless
import Handoff.Proofs.Utility.Slots
/-!
# The names of utility classes

The classes of a layer are written side by side with a space after each but the last, so a class is only
what it is if no space stands in its name. Values may hold spaces; in brackets they lose them. Steps
have names without spaces, and one of the corners has none at all, which its class makes up for.

A property without a family of its own is written in brackets as a whole. Whether a property has one
depends on what kind of value it comes with, so this is said for the values that layers have.

Results:
* `classes_flatMap_filter`: classes come property by property.
* `proper_of_declares`: what the classes of a declared property are called.
* `classes_resolve`: the classes of a layer, and how to get them back from the class list.
-/
namespace Handoff

/-! ## Lists of classes -/

namespace Text

/-- A text that is read as one part of a list: no space in it, and a first character of some kind. -/
structure IsToken (first : Char → Bool) (s : String) : Prop where
  spaceless : ' ' ∉ s.toList
  begins : ∃ c rest, s.toList = c :: rest ∧ first c = true

variable {first : Char → Bool} {a b : String}

/-- A text that is read as one part of a list, as a test tells. -/
theorem IsToken.of_test (h : (a.toList.all (· != ' ') && a.toList.head?.any first) = true) :
    IsToken first a := by
  rw [Bool.and_eq_true, Option.any_eq_true] at h
  obtain ⟨spaceless, c, begins, known⟩ := h
  refine ⟨fun mem => absurd (List.all_eq_true.mp spaceless _ mem) (by decide), c, ?_⟩
  cases text : a.toList with
  | nil => rw [text] at begins; cases begins
  | cons d rest =>
    rw [text] at begins
    cases begins
    exact ⟨rest, rfl, known⟩

theorem IsToken.append (ha : IsToken first a) (hb : ' ' ∉ b.toList) : IsToken first (a ++ b) := by
  obtain ⟨spaceless, c, rest, text, known⟩ := ha
  refine ⟨?_, c, rest ++ b.toList, ?_, known⟩
  · rw [String.toList_append, List.mem_append, not_or]
    exact ⟨spaceless, hb⟩
  · rw [String.toList_append, text]
    rfl

theorem IsToken.ne_empty (h : IsToken first a) : a ≠ "" := by
  rintro rfl
  obtain ⟨-, c, rest, text, -⟩ := h
  cases text

/-- The parts of a text between its spaces, where there are characters between them. -/
def spaceParts (s : String) : List String :=
  ((s.toList.splitOn ' ').filter fun part => !part.isEmpty).map String.ofList

theorem spaceParts_intercalate {parts : List String}
    (whole : ∀ part ∈ parts, part ≠ "" ∧ ' ' ∉ part.toList) :
    spaceParts (String.intercalate " " parts) = parts := by
  by_cases filled : parts = []
  · subst filled
    rfl
  · have split : (String.intercalate " " parts).toList.splitOn ' ' = parts.map String.toList := by
      rw [String.toList_intercalate]
      refine List.splitOn_intercalate ' ' ?_ (by simpa using filled)
      simp only [List.mem_map, forall_exists_index, and_imp, forall_apply_eq_imp_iff₂]
      exact fun part mem => (whole part mem).2
    have kept : (parts.map String.toList).filter (fun part => !part.isEmpty) =
        parts.map String.toList := by
      rw [List.filter_eq_self]
      simp only [List.mem_map, forall_exists_index, and_imp, forall_apply_eq_imp_iff₂]
      intro part mem
      simpa using (whole part mem).1
    rw [spaceParts, split, kept, List.map_map]
    simp

end Text

open Text (IsToken)

/-! ## Names -/

theorem spaceless_bracketText (v : StyleValue) : ' ' ∉ (bracketText v).toList := by
  rw [bracketText, String.toList_ofList]
  intro mem
  obtain ⟨c, -, same⟩ := List.mem_map.mp mem
  split at same
  · cases same
  · next other => exact other same

theorem spaceless_number (x : Float) : ' ' ∉ (Number.css x).toList :=
  fun mem => absurd (Number.css_chars x _ mem) (by decide)

theorem isToken_bracketed {family value : String} (named : IsToken Char.isLower family)
    (spaceless : ' ' ∉ value.toList) : IsToken Char.isLower (family ++ "-[" ++ value ++ "]") :=
  ((named.append (by decide)).append spaceless).append (by decide)

namespace ClassSize

/-- Whether no space stands in the name of a step. -/
def Spaceless : ClassSize → Prop
  | .step name => ' ' ∉ name.toList
  | .px _ | .number _ => True

theorem Spaceless.isToken_text {size : ClassSize} (h : size.Spaceless) {family : String}
    (named : IsToken Char.isLower family) : IsToken Char.isLower (size.text family) := by
  cases size with
  | step name => exact (named.append (by decide)).append h
  | px x =>
    have px : ' ' ∉ (StyleValue.pxText x).toList := by
      rw [StyleValue.pxText, String.toList_append, List.mem_append, not_or]
      exact ⟨spaceless_number x, by decide⟩
    exact isToken_bracketed named px
  | number x => exact isToken_bracketed named (spaceless_number x)

end ClassSize

namespace UtilityClass

/-- The properties that are written in brackets as a whole. -/
def genericProperties : List String := [Property.border, Property.filter]

/-- A class of a property is read as one class, and its name shows whether the property has a family. -/
def Proper (key : String) (c : UtilityClass) : Prop :=
  (key ∈ genericProperties ∧ (∃ value, c = .generic key value) ∧ IsToken (· == '[') c.text) ∨
    (key ∉ genericProperties ∧ (∀ value, c ≠ .generic key value) ∧ IsToken Char.isLower c.text)

variable {key : String} {c : UtilityClass}

theorem Proper.of_generic {value : String} (mem : key ∈ genericProperties)
    (spaceless : ' ' ∉ value.toList) : (generic key value).Proper key := by
  have worded : Text.Worded key := by
    rw [Text.Worded, consists_iff_all]
    rcases List.mem_pair.mp mem with rfl | rfl <;> rfl
  have name : ' ' ∉ (Text.kebab key).toList :=
    fun mem => absurd (Text.kebab_chars worded _ mem) (by decide)
  have opening : IsToken (· == '[') "[" := .of_test rfl
  exact .inl ⟨mem, ⟨value, rfl⟩,
    (((opening.append name).append (by decide)).append spaceless).append (by decide)⟩

theorem Proper.of_named (apart : key ∉ genericProperties) (own : ∀ value, c ≠ .generic key value)
    (text : IsToken Char.isLower c.text) : c.Proper key :=
  .inr ⟨apart, own, text⟩

theorem Proper.generic_iff (h : c.Proper key) :
    (∃ value, c = .generic key value) ↔ key ∈ genericProperties := by
  rcases h with ⟨mem, generic, -⟩ | ⟨apart, other, -⟩
  · exact iff_of_true generic mem
  · exact iff_of_false (fun ⟨value, same⟩ => other value same) apart

theorem Proper.bracket_iff (h : c.Proper key) :
    c.text.toList.head? = some '[' ↔ key ∈ genericProperties := by
  rcases h with ⟨mem, -, -, first, rest, text, bracket⟩ | ⟨apart, -, -, first, rest, text, letter⟩
  · rw [text, List.head?_cons, Option.some_inj]
    exact iff_of_true (beq_iff_eq.mp bracket) mem
  · rw [text, List.head?_cons, Option.some_inj]
    refine iff_of_false ?_ apart
    rintro rfl
    cases letter

theorem Proper.isToken (h : c.Proper key) : c.text ≠ "" ∧ ' ' ∉ c.text.toList := by
  rcases h with ⟨-, -, text⟩ | ⟨-, -, text⟩ <;> exact ⟨text.ne_empty, text.spaceless⟩

end UtilityClass

/-! ## Steps -/

namespace UtilityScale

theorem mem_of_least {entries : List (String × Float)} {e : String × Float}
    (h : least entries = some e) : e ∈ entries := by
  cases entries with
  | nil => cases h
  | cons first rest =>
    cases h
    refine List.foldlRecOn rest _ (motive := fun e => e ∈ first :: rest) (List.mem_cons_self ..) ?_
    intro best kept e mem
    split
    · exact List.mem_cons_of_mem _ mem
    · exact kept

theorem mem_of_snap? {scale : UtilityScale} {steps : Steps} {x : Float} {name : String}
    (h : scale.snap? steps x = some name) : ∃ step, (name, step) ∈ steps := by
  obtain ⟨e, found, rfl⟩ := Option.map_eq_some_iff.mp h
  obtain ⟨⟨name, step⟩, mem, rfl⟩ := List.mem_map.mp (List.mem_filter.mp (mem_of_least found)).1
  exact ⟨step, mem⟩

/-- No space stands in the name of a step of any table. -/
structure Spaceless (scale : UtilityScale) : Prop where
  spacing : ∀ e ∈ scale.spacing, ' ' ∉ e.1.toList
  fontSizes : ∀ e ∈ scale.fontSizes, ' ' ∉ e.1.toList
  radii : ∀ e ∈ scale.radii, ' ' ∉ e.1.toList
  fontWeights : ∀ e ∈ scale.fontWeights, ' ' ∉ e.1.toList

theorem spaceless_standard : standard.Spaceless :=
  ⟨by decide, by decide, by decide, by decide⟩

variable {scale : UtilityScale} {steps : Steps}

theorem spaceless_of_snap? (h : ∀ e ∈ steps, ' ' ∉ e.1.toList) {x : Float} {name : String}
    (snapped : scale.snap? steps x = some name) : ' ' ∉ name.toList := by
  obtain ⟨step, mem⟩ := mem_of_snap? snapped
  exact h _ mem

theorem spaceless_length (h : ∀ e ∈ steps, ' ' ∉ e.1.toList) (x : Float) :
    (scale.length steps x).Spaceless := by
  unfold length
  split
  · next name snapped => exact spaceless_of_snap? h snapped
  · trivial

theorem spaceless_unitless (h : ∀ e ∈ steps, ' ' ∉ e.1.toList) (x : Float) :
    (scale.unitless steps x).Spaceless := by
  unfold unitless
  split
  · next name snapped => exact spaceless_of_snap? h snapped
  · trivial

/-! ## The classes of a property -/

theorem isToken_radius {size : ClassSize} (h : size.Spaceless) :
    IsToken Char.isLower (UtilityClass.radius size).text := by
  have rounded : IsToken Char.isLower "rounded" := .of_test rfl
  cases size with
  | step name =>
    by_cases unnamed : name = ""
    · subst unnamed
      exact rounded
    · have text : (UtilityClass.radius (.step name)).text = (ClassSize.step name).text "rounded" := by
        simp [UtilityClass.text, unnamed]
      rw [text]
      exact h.isToken_text rounded
  | px x => exact h.isToken_text rounded
  | number x => exact h.isToken_text rounded

theorem isToken_family (sides : PaddingSides) : IsToken Char.isLower sides.family := by
  cases sides <;> exact .of_test rfl

theorem eq_zero_of_sideClass? {sides : PaddingSides} {x : Float}
    (none : scale.sideClass? sides x = none) : (x == 0) = true := by
  unfold sideClass? at none
  split at none
  · cases none
  · next zero => simpa [bne] using zero

theorem paddingClasses_ne_nil {p : Padding} (filled : p.isZero = false) :
    scale.paddingClasses [p.top, p.right, p.bottom, p.left] ≠ [] := by
  intro none
  have zero (top : (p.top == 0) = true) (right : (p.right == 0) = true)
      (bottom : (p.bottom == 0) = true) (left : (p.left == 0) = true) : False := by
    rw [Padding.isZero, top, right, bottom, left] at filled
    cases filled
  unfold paddingClasses at none
  dsimp only at none
  split_ifs at none with opposite
  all_goals
    rw [List.filterMap_eq_nil_iff] at none
    simp only [List.forall_mem_cons, List.not_mem_nil, false_imp_iff, implies_true, and_true, id] at none
  · obtain ⟨vertical, horizontal⟩ := Bool.and_eq_true_iff.mp opposite
    have top := eq_zero_of_sideClass? none.1
    have right := eq_zero_of_sideClass? none.2
    have bottom := (Number.isZero_iff.mpr top).of_beq vertical
    have left := (Number.isZero_iff.mpr right).of_beq horizontal
    exact zero top right (Number.isZero_iff.mp bottom) (Number.isZero_iff.mp left)
  · obtain ⟨top, right, bottom, left⟩ := none
    exact zero (eq_zero_of_sideClass? top) (eq_zero_of_sideClass? right)
      (eq_zero_of_sideClass? bottom) (eq_zero_of_sideClass? left)

theorem proper_padding {sides : PaddingSides} {size : ClassSize} (h : size.Spaceless) :
    (UtilityClass.padding sides size).Proper Property.padding :=
  .of_named (by decide) (fun _ => nofun) (h.isToken_text (isToken_family sides))

/-- The classes of a property that a layer has: there are some, and they are called as they should. -/
theorem proper_of_declares (h : scale.Spaceless) {key : String} {v : StyleValue}
    (declared : Layer.Declares key v) :
    scale.propertyClasses key v ≠ [] ∧ ∀ c ∈ scale.propertyClasses key v, c.Proper key := by
  have single {c : UtilityClass} (eq : scale.propertyClasses key v = [c]) (proper : c.Proper key) :
      scale.propertyClasses key v ≠ [] ∧ ∀ c ∈ scale.propertyClasses key v, c.Proper key := by
    rw [eq, List.forall_mem_singleton]
    exact ⟨List.cons_ne_nil _ _, proper⟩
  have named {c : UtilityClass} (eq : scale.propertyClasses key v = [c])
      (apart : key ∉ UtilityClass.genericProperties) (own : ∀ value, c ≠ .generic key value)
      (text : IsToken Char.isLower c.text) := single eq (.of_named apart own text)
  cases declared with
  | length mem x =>
    have spacing : (scale.length scale.spacing x).Spaceless := spaceless_length h.spacing x
    have radius : (scale.length scale.radii x).Spaceless := spaceless_length h.radii x
    have fontSize : (scale.length scale.fontSizes x).Spaceless := spaceless_length h.fontSizes x
    simp only [Layer.scaledProperties, List.mem_cons, List.not_mem_nil, or_false] at mem
    rcases mem with rfl | rfl | rfl | rfl | rfl
    · exact named rfl (by decide) (fun _ => nofun) (spacing.isToken_text (.of_test rfl))
    · exact named rfl (by decide) (fun _ => nofun) (spacing.isToken_text (.of_test rfl))
    · exact named rfl (by decide) (fun _ => nofun) (spacing.isToken_text (.of_test rfl))
    · exact named rfl (by decide) (fun _ => nofun) (isToken_radius radius)
    · exact named rfl (by decide) (fun _ => nofun) (fontSize.isToken_text (.of_test rfl))
  | flex => exact named rfl (by decide) (fun _ => nofun) (.of_test rfl)
  | row => exact named rfl (by decide) (fun _ => nofun) (.of_test rfl)
  | column => exact named rfl (by decide) (fun _ => nofun) (.of_test rfl)
  | padding x => exact single rfl (proper_padding (spaceless_length h.spacing x))
  | @sides p filled =>
    refine ⟨paddingClasses_ne_nil filled, fun c hc => ?_⟩
    have hc : c ∈ scale.paddingClasses [p.top, p.right, p.bottom, p.left] := hc
    obtain ⟨sides, x, rfl⟩ := scale.exists_of_mem_paddingClasses hc
    exact proper_padding (spaceless_length h.spacing x)
  | weight x =>
    exact named rfl (by decide) (fun _ => nofun)
      ((spaceless_unitless h.fontWeights x).isToken_text (.of_test rfl))
  | align a =>
    refine named rfl (by decide) (fun _ => nofun) ?_
    cases a <;> exact .of_test rfl
  | other mem v =>
    have bracketed {family : String} (named : IsToken Char.isLower family) :=
      isToken_bracketed named (spaceless_bracketText v)
    simp only [Layer.otherProperties, List.mem_cons, List.not_mem_nil, or_false] at mem
    rcases mem with rfl | rfl | rfl | rfl | rfl | rfl | rfl | rfl | rfl | rfl
    · exact single rfl (.of_generic (by decide) (spaceless_bracketText v))
    · exact single rfl (.of_generic (by decide) (spaceless_bracketText v))
    all_goals exact named rfl (by decide) (fun _ => nofun) (bracketed (.of_test rfl))

/-! ## The classes of a layer -/

variable (scale : UtilityScale)

/-- Of the classes of some properties with their values, those of one property are what its value
comes to. -/
theorem filter_entries {entries : List (String × StyleValue)}
    (distinct : (entries.map Prod.fst).Nodup) {e : String × StyleValue} (mem : e ∈ entries) :
    (entries.flatMap fun (key, v) => scale.propertyClasses key v).filter (fun c => c.property = e.1) =
      scale.propertyClasses e.1 e.2 := by
  induction entries with
  | nil => cases mem
  | cons first rest ih =>
    obtain ⟨fresh, distinct⟩ := List.nodup_cons.mp distinct
    rw [List.flatMap_cons, List.filter_append]
    rcases List.mem_cons.mp mem with rfl | later
    · have own : (scale.propertyClasses e.1 e.2).filter (fun c => c.property = e.1) =
          scale.propertyClasses e.1 e.2 := by
        rw [List.filter_eq_self]
        exact fun c hc => decide_eq_true (scale.property_of_mem_propertyClasses hc)
      have none : (rest.flatMap fun (key, v) => scale.propertyClasses key v).filter
          (fun c => c.property = e.1) = [] := by
        rw [List.filter_eq_nil_iff]
        intro c hc same
        obtain ⟨f, hf, hc⟩ := List.mem_flatMap.mp hc
        rw [scale.property_of_mem_propertyClasses hc, decide_eq_true_eq] at same
        exact fresh (same ▸ List.mem_map_of_mem hf)
      rw [own, none, List.append_nil]
    · have none : (scale.propertyClasses first.1 first.2).filter (fun c => c.property = e.1) = [] := by
        rw [List.filter_eq_nil_iff]
        intro c hc same
        rw [scale.property_of_mem_propertyClasses hc, decide_eq_true_eq] at same
        exact fresh (same ▸ List.mem_map_of_mem later)
      rw [none, List.nil_append, ih distinct later]

/-- The classes of a bag are those of its first property, then those of its second, and so on. -/
theorem classes_flatMap_filter (bag : StyleBag) :
    (bag.keys.flatMap fun key => (scale.classes bag).filter fun c => c.property = key) =
      scale.classes bag := by
  rw [Keyed.keys, List.flatMap_map]
  exact List.flatMap_congr fun e he => scale.filter_entries bag.distinct he

/-- Every property of a layer has classes, and they come in the order of the properties. Only those of the
border and the filter are written in brackets as a whole. No class is empty and no space stands in one, so
the list that they are joined to falls into the same classes again. -/
theorem classes_resolve (l : Layer) :
    let bag := l.resolve
    let classes := standard.classes bag
    let texts := classes.map UtilityClass.text
    (∀ key v, bag.get? key = some v → standard.propertyClasses key v ≠ [] ∧
        (classes.filter fun c => c.property = key) = standard.propertyClasses key v) ∧
      (bag.keys.flatMap fun key => classes.filter fun c => c.property = key) = classes ∧
      (∀ c ∈ classes,
        ((∃ value, c = .generic c.property value) ↔
          c.property = Property.border ∨ c.property = Property.filter) ∧
        (c.text.toList.head? = some '[' ↔
          c.property = Property.border ∨ c.property = Property.filter) ∧
        c.text ≠ "" ∧ ' ' ∉ c.text.toList) ∧
      Text.spaceParts (String.intercalate " " texts) = texts := by
  intro bag classes texts
  have entry {e : String × StyleValue} (he : e ∈ bag.entries) :
      standard.propertyClasses e.1 e.2 ≠ [] ∧
        ∀ c ∈ standard.propertyClasses e.1 e.2, c.Proper e.1 :=
    proper_of_declares spaceless_standard
      (Layer.declares_of_mem (Layer.mem_declarations_of_get? (Keyed.get?_eq_some_iff.mpr he)))
  have proper : ∀ c ∈ classes, c.Proper c.property := by
    intro c hc
    obtain ⟨e, he, hc⟩ := List.mem_flatMap.mp hc
    rw [standard.property_of_mem_propertyClasses hc]
    exact (entry he).2 c hc
  refine ⟨?_, standard.classes_flatMap_filter bag, ?_, ?_⟩
  · intro key v there
    have mem := Keyed.get?_eq_some_iff.mp there
    exact ⟨(entry mem).1, standard.filter_entries bag.distinct mem⟩
  · intro c hc
    rw [← List.mem_pair]
    exact ⟨(proper c hc).generic_iff, (proper c hc).bracket_iff, (proper c hc).isToken⟩
  · apply Text.spaceParts_intercalate
    intro text mem
    obtain ⟨c, hc, rfl⟩ := List.mem_map.mp mem
    exact (proper c hc).isToken

end UtilityScale
end Handoff

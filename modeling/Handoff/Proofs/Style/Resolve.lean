import Handoff.Proofs.Keyed
import Handoff.Proofs.Number.Equality
import Handoff.Style.Resolve
import Mathlib.Tactic.SplitIfs
/-!
# Which styles a layer has

Each group of styles has its own properties, and each property its own kind of value. Only one group sets
the padding, and never to zero on all sides.

Results:
* `Layer.mem_declarations_cases`: what a declared property belongs to.
* `Layer.padding_resolve`: the padding of a layer if it has one.
* `Layer.declares_of_mem`: what the value of each property looks like.
-/
namespace Handoff.Layer

theorem mem_sizeStyles {l : Layer} {e : String × StyleValue} (h : e ∈ l.sizeStyles) :
    ∃ x, e = (Property.width, .px x) ∨ e = (Property.height, .px x) := by
  unfold sizeStyles at h
  split at h
  · next box _ =>
    rcases List.mem_cons.mp h with rfl | h
    · exact ⟨box.width, .inl rfl⟩
    · exact ⟨box.height, .inr (List.mem_singleton.mp h)⟩
  · cases h

theorem key_of_mem_sizeStyles {l : Layer} {e : String × StyleValue} (h : e ∈ l.sizeStyles) :
    e.1 ∈ [Property.width, Property.height] := by
  obtain ⟨x, rfl | rfl⟩ := mem_sizeStyles h <;> simp

theorem mem_flowStyles {l : Layer} {e : String × StyleValue} (h : e ∈ l.flowStyles) :
    e = (Property.display, .keyword "flex") ∨
      (∃ direction ∈ ["row", "column"], e = (Property.flexDirection, .keyword direction)) ∨
      ∃ x, e = (Property.gap, .px x) := by
  unfold flowStyles at h
  dsimp only at h
  split at h
  · cases h
  · next direction known =>
    have word : direction ∈ ["row", "column"] := by
      split at known <;> cases known <;> decide
    rcases List.mem_cons.mp h with rfl | h
    · exact .inl rfl
    · rcases List.mem_cons.mp h with rfl | h
      · exact .inr (.inl ⟨direction, word, rfl⟩)
      · split at h
        · next x _ =>
          split at h
          · exact .inr (.inr ⟨x, List.mem_singleton.mp h⟩)
          · cases h
        · cases h

theorem key_of_mem_flowStyles {l : Layer} {e : String × StyleValue} (h : e ∈ l.flowStyles) :
    e.1 ∈ [Property.display, Property.flexDirection, Property.gap] := by
  rcases mem_flowStyles h with rfl | ⟨_, -, rfl⟩ | ⟨_, rfl⟩ <;> simp

theorem key_of_mem_backgroundStyles {l : Layer} {e : String × StyleValue}
    (h : e ∈ l.backgroundStyles) : e.1 ∈ [Property.backgroundColor, Property.background] := by
  unfold backgroundStyles at h
  dsimp only at h
  split at h
  · rw [List.mem_singleton.mp h]
    simp
  · split at h
    · rcases List.mem_append.mp h with h | h
      · split at h
        · rw [List.mem_singleton.mp h]
          simp
        · cases h
      · rw [List.mem_singleton.mp h]
        simp
    · split at h
      · rw [List.mem_singleton.mp h]
        simp
      · cases h

theorem key_of_mem_borderStyles {l : Layer} {e : String × StyleValue} (h : e ∈ l.borderStyles) :
    e.1 = Property.border := by
  unfold borderStyles at h
  split at h
  · rw [List.mem_singleton.mp h]
  · cases h

theorem mem_cornerStyles {l : Layer} {e : String × StyleValue} (h : e ∈ l.cornerStyles) :
    ∃ r, e = (Property.borderRadius, .px r) := by
  unfold cornerStyles at h
  split at h
  · next r _ =>
    split at h
    · exact ⟨r, List.mem_singleton.mp h⟩
    · cases h
  · cases h

theorem key_of_mem_cornerStyles {l : Layer} {e : String × StyleValue} (h : e ∈ l.cornerStyles) :
    e.1 = Property.borderRadius := by
  obtain ⟨r, rfl⟩ := mem_cornerStyles h
  rfl

theorem key_of_mem_effectStyles {l : Layer} {e : String × StyleValue} (h : e ∈ l.effectStyles) :
    e.1 ∈ [Property.boxShadow, Property.filter] := by
  unfold effectStyles at h
  dsimp only at h
  rcases List.mem_append.mp h with h | h
  · split at h
    · cases h
    · rw [List.mem_singleton.mp h]
      simp
  · split at h
    · rw [List.mem_singleton.mp h]
      simp
    · cases h

theorem key_of_mem_opacityStyles {l : Layer} {e : String × StyleValue} (h : e ∈ l.opacityStyles) :
    e.1 = Property.opacity := by
  unfold opacityStyles at h
  split at h
  · split at h
    · rw [List.mem_singleton.mp h]
    · cases h
  · cases h

/-- What a typography declares, and where a name or a color in it comes from. -/
inductive TextStyle (t : Typography) : String × StyleValue → Prop where
  | family {name : String} (given : t.family = some name) :
      TextStyle t (Property.fontFamily, .keyword name)
  | size (x : Float) : TextStyle t (Property.fontSize, .px x)
  | weight (x : Float) : TextStyle t (Property.fontWeight, .number x)
  | height (x : Float) : TextStyle t (Property.lineHeight, .px x)
  | spacing (x : Float) : TextStyle t (Property.letterSpacing, .px x)
  | align (a : TextAlign) : TextStyle t (Property.textAlign, .keyword a.css)
  | color {c : Color} (fill : Paint.firstSolid? t.fills = some c) :
      TextStyle t (Property.color, .color c)

theorem exists_of_mem_optional {α : Type} {property : String} {value : Option α} {f : α → StyleValue}
    {e : String × StyleValue}
    (h : e ∈ match value with
      | some v => [(property, f v)]
      | none => []) : ∃ v, value = some v ∧ e = (property, f v) := by
  cases value with
  | none => cases h
  | some v => exact ⟨v, rfl, List.mem_singleton.mp h⟩

theorem mem_textStyles {l : Layer} {e : String × StyleValue} (h : e ∈ l.textStyles) :
    ∃ t, l.typography = some t ∧ TextStyle t e := by
  unfold textStyles at h
  cases typography : l.typography with
  | none =>
    rw [typography] at h
    cases h
  | some t =>
    rw [typography] at h
    dsimp only at h
    simp only [List.mem_append] at h
    refine ⟨t, rfl, ?_⟩
    rcases h with (((((family | size) | weight) | height) | spacing) | align) | color
    · obtain ⟨name, found, rfl⟩ := exists_of_mem_optional family
      exact .family (Option.filter_eq_some_iff.mp found).1
    · obtain ⟨x, -, rfl⟩ := exists_of_mem_optional size
      exact .size x
    · obtain ⟨x, -, rfl⟩ := exists_of_mem_optional weight
      exact .weight x
    · obtain ⟨x, -, rfl⟩ := exists_of_mem_optional height
      exact .height x
    · obtain ⟨x, -, rfl⟩ := exists_of_mem_optional spacing
      exact .spacing x
    · obtain ⟨text, found, rfl⟩ := exists_of_mem_optional align
      obtain ⟨a, -, rfl⟩ := Option.map_eq_some_iff.mp found
      exact .align a
    · obtain ⟨c, found, rfl⟩ := exists_of_mem_optional color
      exact .color found

theorem key_of_mem_textStyles {l : Layer} {e : String × StyleValue} (h : e ∈ l.textStyles) :
    e.1 ∈ [Property.fontFamily, Property.fontSize, Property.fontWeight, Property.lineHeight,
      Property.letterSpacing, Property.textAlign, Property.color] := by
  obtain ⟨t, -, style⟩ := mem_textStyles h
  cases style <;> simp

/-- Sides that all agree are all zero as soon as one is. -/
theorem isZero_of_isUniform {p : Padding} (uniform : p.isUniform = true) (top : (p.top == 0) = true) :
    p.isZero = true := by
  unfold Padding.isUniform at uniform
  rw [Bool.and_eq_true, Bool.and_eq_true] at uniform
  obtain ⟨⟨first, second⟩, third⟩ := uniform
  have top := Number.isZero_iff.mpr top
  have right := top.of_beq first
  have bottom := right.of_beq second
  have left := bottom.of_beq third
  unfold Padding.isZero
  rw [Number.isZero_iff.mp top, Number.isZero_iff.mp right, Number.isZero_iff.mp bottom,
    Number.isZero_iff.mp left]
  rfl

theorem mem_paddingStyles {l : Layer} {e : String × StyleValue} (h : e ∈ l.paddingStyles) :
    let p := l.layout.padding
    (e = (Property.padding, .px p.top) ∧ (p.top == 0) = false) ∨
      (e = (Property.padding, .edges [p.top, p.right, p.bottom, p.left]) ∧ p.isZero = false) := by
  unfold paddingStyles at h
  dsimp only at h ⊢
  split_ifs at h with zero uniform
  · cases h
  · refine .inl ⟨List.mem_singleton.mp h, Bool.of_not_eq_true fun top => zero ?_⟩
    exact isZero_of_isUniform uniform top
  · exact .inr ⟨List.mem_singleton.mp h, Bool.of_not_eq_true zero⟩

theorem key_of_mem_paddingStyles {l : Layer} {e : String × StyleValue} (h : e ∈ l.paddingStyles) :
    e.1 = Property.padding := by
  rcases mem_paddingStyles h with ⟨rfl, -⟩ | ⟨rfl, -⟩ <;> rfl

theorem mem_declarations_of_get? {l : Layer} {key : String} {v : StyleValue}
    (h : l.resolve.get? key = some v) : (key, v) ∈ l.declarations := by
  rcases Keyed.mem_of_get?_insertAll (m := .empty) h with mem | there
  · exact mem
  · cases there

/-- The properties of a box that is no text, its padding aside. -/
def boxProperties : List String :=
  [Property.width, Property.height, Property.display, Property.flexDirection, Property.gap,
    Property.backgroundColor, Property.background, Property.border, Property.borderRadius,
    Property.boxShadow, Property.filter, Property.opacity]

/-- A property that is declared is one of a box, the padding or one of a text. -/
theorem mem_declarations_cases {l : Layer} {e : String × StyleValue} (h : e ∈ l.declarations) :
    e.1 ∈ boxProperties ∨ e ∈ l.paddingStyles ∨ l.isText = true ∧ e ∈ l.textStyles := by
  have box {keys : List String} (known : keys ⊆ boxProperties) (mem : e.1 ∈ keys) :
      e.1 ∈ boxProperties := known mem
  unfold declarations at h
  simp only [List.mem_append] at h
  rcases h with (((((((h | h) | h) | h) | h) | h) | h) | h) | h
  · exact .inl (box (by decide) (key_of_mem_sizeStyles h))
  · exact .inl (box (by decide) (key_of_mem_flowStyles h))
  · exact .inr (.inl h)
  · exact .inl (box (by decide) (key_of_mem_backgroundStyles h))
  · exact .inl (key_of_mem_borderStyles h ▸ by decide)
  · exact .inl (key_of_mem_cornerStyles h ▸ by decide)
  · exact .inl (box (by decide) (key_of_mem_effectStyles h))
  · exact .inl (key_of_mem_opacityStyles h ▸ by decide)
  · split at h
    · next text => exact .inr (.inr ⟨text, h⟩)
    · cases h

theorem value_of_mem_paddingStyles {l : Layer} {key : String} {v : StyleValue}
    (h : (key, v) ∈ l.paddingStyles) :
    (∃ x, v = .px x ∧ (x == 0) = false) ∨
      ∃ top right bottom left, v = .edges [top, right, bottom, left] := by
  rcases mem_paddingStyles h with ⟨eq, filled⟩ | ⟨eq, -⟩
  · cases eq
    exact .inl ⟨_, rfl, filled⟩
  · cases eq
    exact .inr ⟨_, _, _, _, rfl⟩

/-- The padding of a layer has four sides that are not all zero: either one length, or one for each
side. -/
theorem padding_resolve {l : Layer} {v : StyleValue} (h : l.resolve.get? Property.padding = some v) :
    (∃ x, v = .px x ∧ (x == 0) = false) ∨
      ∃ top right bottom left, v = .edges [top, right, bottom, left] := by
  rcases mem_declarations_cases (mem_declarations_of_get? h) with box | padding | ⟨-, text⟩
  · exact absurd box (show Property.padding ∉ _ by decide)
  · exact value_of_mem_paddingStyles padding
  · exact absurd (key_of_mem_textStyles text) (show Property.padding ∉ _ by decide)

/-! ## The kinds of values -/

/-- The properties that are lengths with a scale of their own. -/
def scaledProperties : List String :=
  [Property.width, Property.height, Property.gap, Property.borderRadius, Property.fontSize]

/-- The properties whose value nothing else is told about. -/
def otherProperties : List String :=
  [Property.border, Property.filter, Property.backgroundColor, Property.background,
    Property.boxShadow, Property.opacity, Property.fontFamily, Property.lineHeight,
    Property.letterSpacing, Property.color]

/-- What the value of a property looks like among the styles of a layer. -/
inductive Declares : String → StyleValue → Prop where
  | length {key : String} (mem : key ∈ scaledProperties) (x : Float) : Declares key (.px x)
  | flex : Declares Property.display (.keyword "flex")
  | row : Declares Property.flexDirection (.keyword "row")
  | column : Declares Property.flexDirection (.keyword "column")
  | padding (x : Float) : Declares Property.padding (.px x)
  | sides {p : Padding} (filled : p.isZero = false) :
    Declares Property.padding (.edges [p.top, p.right, p.bottom, p.left])
  | weight (x : Float) : Declares Property.fontWeight (.number x)
  | align (a : TextAlign) : Declares Property.textAlign (.keyword a.css)
  | other {key : String} (mem : key ∈ otherProperties) (v : StyleValue) : Declares key v

theorem declares_of_mem {l : Layer} {key : String} {v : StyleValue} (h : (key, v) ∈ l.declarations) :
    Declares key v := by
  have other {keys : List String} (known : keys ⊆ otherProperties) (mem : key ∈ keys) :
      Declares key v := .other (known mem) v
  unfold declarations at h
  simp only [List.mem_append] at h
  rcases h with
    (((((((size | flow) | padding) | background) | border) | corner) | effect) | opacity) | text
  · obtain ⟨x, eq | eq⟩ := mem_sizeStyles size <;> cases eq <;> exact .length (by decide) x
  · rcases mem_flowStyles flow with eq | ⟨text, word, eq⟩ | ⟨x, eq⟩ <;> cases eq
    · exact .flex
    · rcases List.mem_pair.mp word with rfl | rfl
      · exact .row
      · exact .column
    · exact .length (by decide) x
  · rcases mem_paddingStyles padding with ⟨eq, -⟩ | ⟨eq, filled⟩ <;> cases eq
    · exact .padding _
    · exact .sides filled
  · exact other (by decide) (key_of_mem_backgroundStyles background)
  · exact other (by decide) (List.mem_singleton.mpr (key_of_mem_borderStyles border))
  · obtain ⟨x, eq⟩ := mem_cornerStyles corner
    cases eq
    exact .length (by decide) x
  · exact other (by decide) (key_of_mem_effectStyles effect)
  · exact other (by decide) (List.mem_singleton.mpr (key_of_mem_opacityStyles opacity))
  · split at text
    · obtain ⟨t, -, style⟩ := mem_textStyles text
      cases style with
      | family | height | spacing | color => exact .other (by decide) _
      | size x => exact .length (by decide) x
      | weight x => exact .weight x
      | align a => exact .align a
    · cases text

end Handoff.Layer

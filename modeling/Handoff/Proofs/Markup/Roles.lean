import Handoff.Proofs.Audit.ButtonRole
import Handoff.Proofs.Markup.Nesting
/-!
# Roles in rendered elements

The search for the button role reads the text of an element; here it is told what it finds there. An
attribute is spelled as a name with a value in quotes, in which no quote stands, or as something
without blanks and quotes. So the attribute that gives the role can only be read where an attribute
begins, and it is only read where an element has the role: no text of a design can pass for it.

Results:
* `ButtonRole.infix_segments_iff`: where the attribute is read in a list of attributes.
* `Element.filterMap_writtenTags`: the tags that carry the role are those of the elements that have it.
* `Element.finds_render`: so the search finds them in the text of an element.
-/
namespace Handoff

namespace ButtonRole

/-! ## Spelled attributes -/

/-- No blanks and no quotes. -/
def Solid (cs : List Char) : Prop := ∀ c ∈ cs, Text.isBlank c = false ∧ c ≠ '"'

theorem solid_of_all {cs : List Char} (h : (cs.all fun c => !Text.isBlank c && c != '"') = true) :
    Solid cs := by
  intro c hc
  have both := List.all_eq_true.mp h c hc
  rwa [Bool.and_eq_true, Bool.not_eq_true', bne_iff_ne] at both

theorem Solid.not_stop {cs : List Char} (h : Solid cs) :
    ∀ c ∈ cs, ¬(Text.isBlank c = true ∨ c = '"') := by
  intro c hc
  obtain ⟨blank, quote⟩ := h c hc
  simp [blank, quote]

theorem Solid.ne_quote {cs : List Char} (h : Solid cs) : ∀ c ∈ cs, ¬c = '"' :=
  fun c hc => (h c hc).2

theorem Solid.append {a b : List Char} (ha : Solid a) (hb : Solid b) : Solid (a ++ b) :=
  fun c hc => (List.mem_append.mp hc).elim (ha c) (hb c)

theorem solid_of_isAlphanum {cs : List Char} (h : Consists Char.isAlphanum cs) : Solid cs := by
  intro c hc
  have kept := h c hc
  have number := toNat_of_isAlphanum kept
  refine ⟨?_, by rintro rfl; cases kept⟩
  rw [← Bool.not_eq_true]
  simp only [Text.isBlank, Bool.or_eq_true, Bool.and_eq_true, decide_eq_true_eq, beq_iff_eq]
  omega

theorem isNameChar_of_isAlphanum {c : Char} (h : c.isAlphanum = true) : isNameChar c = true := by
  have ascii : c.toNat < 128 := by
    have number := toNat_of_isAlphanum h
    omega
  rw [isNameChar, Text.isWord, if_pos ascii, h]
  rfl

inductive Segment : List Char → Prop where
  /-- A name and a value in quotes. -/
  | quoted {name value : List Char} (solid : Solid name) (plain : '"' ∉ value) :
    Segment (name ++ '=' :: '"' :: value ++ ['"'])
  | solid {text : List Char} (solid : Solid text) : Segment text

def spaced (segments : List (List Char)) : List Char :=
  segments.flatMap (' ' :: ·)

theorem spaced_cons (segment : List Char) (segments : List (List Char)) :
    spaced (segment :: segments) = ' ' :: (segment ++ spaced segments) := rfl

theorem spaced_append (a b : List (List Char)) : spaced (a ++ b) = spaced a ++ spaced b :=
  List.flatMap_append

theorem spaced_cases (segments : List (List Char)) :
    spaced segments = [] ∨ ∃ rest, spaced segments = ' ' :: rest := by
  cases segments with
  | nil => exact .inl rfl
  | cons segment segments => exact .inr ⟨_, spaced_cons segment segments⟩

/-- Two texts that begin alike agree up to the first character of a kind. -/
theorem prefix_stop_iff {stop : Char → Prop} {p v q w : List Char} {x y : Char}
    (hp : ∀ c ∈ p, ¬stop c) (hv : ∀ c ∈ v, ¬stop c) (hx : stop x) (hy : stop y) :
    p ++ x :: q <+: v ++ y :: w ↔ p = v ∧ x = y ∧ q <+: w := by
  induction p generalizing v with
  | nil =>
    cases v with
    | nil => simp [List.cons_prefix_cons]
    | cons d v =>
      have other : x ≠ d := fun eq => hv d (List.mem_cons_self ..) (eq ▸ hx)
      simp [List.cons_prefix_cons, other]
  | cons c p ih =>
    cases v with
    | nil =>
      have other : c ≠ y := fun eq => hp c (List.mem_cons_self ..) (eq ▸ hy)
      simp [List.cons_prefix_cons, other]
    | cons d v =>
      have later := ih (v := v) (fun e he => hp e (List.mem_cons_of_mem _ he))
        fun e he => hv e (List.mem_cons_of_mem _ he)
      rw [List.cons_append, List.cons_append, List.cons_prefix_cons, later, List.cons.injEq,
        and_assoc]

theorem attr_eq : attr =
    ['r', 'o', 'l', 'e', '='] ++ '"' :: (['b', 'u', 't', 't', 'o', 'n'] ++ '"' :: []) := rfl

theorem solid_role : Solid ['r', 'o', 'l', 'e', '='] := solid_of_all rfl

theorem solid_button : Solid ['b', 'u', 't', 't', 'o', 'n'] := solid_of_all rfl

/-- Where an attribute begins, the role is read only if that is the attribute. -/
theorem eq_attr_of_begins {segment : List Char} (spelled : Segment segment)
    {segments : List (List Char)} (h : attr <+: segment ++ spaced segments) : segment = attr := by
  cases spelled with
  | @quoted name value solid plain =>
    have front : Solid (name ++ ['=']) := solid.append (solid_of_all rfl)
    have split : name ++ '=' :: '"' :: value ++ ['"'] ++ spaced segments =
        name ++ ['='] ++ '"' :: (value ++ '"' :: spaced segments) := by simp
    rw [split, attr_eq, prefix_stop_iff solid_role.not_stop front.not_stop (.inr rfl) (.inr rfl),
      prefix_stop_iff solid_button.ne_quote (fun c hc eq => plain (eq ▸ hc)) rfl rfl] at h
    obtain ⟨name', -, value', -⟩ := h
    have whole : name ++ '=' :: '"' :: value ++ ['"'] =
        name ++ ['='] ++ '"' :: (value ++ ['"']) := by simp
    rw [whole, ← name', ← value', attr_eq]
  | solid solid =>
    exfalso
    have quote : '"' ∈ attr := by decide
    rcases spaced_cases segments with none | ⟨rest, eq⟩
    · rw [none, List.append_nil] at h
      exact (solid _ (h.subset quote)).2 rfl
    · rw [eq, attr_eq, prefix_stop_iff solid_role.not_stop solid.not_stop (.inr rfl) (.inl rfl)] at h
      exact absurd h.2.1 (by decide)

variable {c : Char}

theorem infix_of_solid_append (blank : Text.isBlank c = true) {p a b : List Char} (solid : Solid a)
    (h : c :: p <:+: a ++ b) : c :: p <:+: b := by
  induction a with
  | nil => exact h
  | cons d a ih =>
    rw [List.cons_append, List.infix_cons_iff, List.cons_prefix_cons] at h
    rcases h with ⟨rfl, -⟩ | later
    · rw [(solid c (List.mem_cons_self ..)).1] at blank
      cases blank
    · exact ih (fun e he => solid e (List.mem_cons_of_mem _ he)) later

/-- Inside of quotes the role is not read, as the quote that it has to begin with ends them. -/
theorem infix_of_value_append (blank : Text.isBlank c = true) {value : List Char}
    (plain : '"' ∉ value) {segments : List (List Char)}
    (h : c :: attr <:+: value ++ '"' :: spaced segments) : c :: attr <:+: spaced segments := by
  induction value with
  | nil =>
    exact infix_of_solid_append blank (a := []) (fun _ h => by cases h) <| by
      rw [List.nil_append, List.infix_cons_iff, List.cons_prefix_cons] at h
      rcases h with ⟨rfl, -⟩ | later
      · cases blank
      · exact later
  | cons d value ih =>
    have rest : '"' ∉ value := fun mem => plain (List.mem_cons_of_mem _ mem)
    rw [List.cons_append, List.infix_cons_iff, List.cons_prefix_cons] at h
    rcases h with ⟨-, begins⟩ | later
    · rw [attr_eq, prefix_stop_iff solid_role.ne_quote (fun c hc eq => rest (eq ▸ hc)) rfl rfl]
        at begins
      obtain ⟨-, -, button⟩ := begins
      rcases spaced_cases segments with none | ⟨more, eq⟩
      · rw [none] at button
        cases List.prefix_nil.mp button
      · rw [eq] at button
        exact absurd (List.cons_prefix_cons.mp button).1 (by decide)
    · exact ih rest later

/-- In a list of attributes, the role is read behind a blank exactly if it is one of them. -/
theorem infix_segments_iff {segments : List (List Char)} (each : ∀ s ∈ segments, Segment s) :
    (∃ c, Text.isBlank c = true ∧ c :: attr <:+: spaced segments) ↔ attr ∈ segments := by
  induction segments with
  | nil => simp [spaced]
  | cons segment segments ih =>
    have spelled := each segment (List.mem_cons_self ..)
    have later := ih fun s hs => each s (List.mem_cons_of_mem _ hs)
    rw [spaced_cons, List.mem_cons, ← later]
    constructor
    · rintro ⟨c, blank, found⟩
      rw [List.infix_cons_iff, List.cons_prefix_cons] at found
      rcases found with ⟨-, begins⟩ | found
      · exact .inl (eq_attr_of_begins spelled begins).symm
      · refine .inr ⟨c, blank, ?_⟩
        cases spelled with
        | @quoted name value solid plain =>
          have split : name ++ '=' :: '"' :: value ++ ['"'] ++ spaced segments =
              name ++ ['='] ++ '"' :: (value ++ '"' :: spaced segments) := by simp
          rw [split] at found
          have behind := infix_of_solid_append blank (solid.append (solid_of_all rfl)) found
          rw [List.infix_cons_iff, List.cons_prefix_cons] at behind
          rcases behind with ⟨rfl, -⟩ | inner
          · cases blank
          · exact infix_of_value_append blank plain inner
        | solid solid => exact infix_of_solid_append blank solid found
    · rintro (rfl | ⟨c, blank, found⟩)
      · exact ⟨' ', rfl, [], spaced segments, by simp⟩
      · exact ⟨c, blank, found.trans ((List.suffix_append ..).trans (List.suffix_cons ..)).isInfix⟩

/-- The name of a tag is read from a tag with its attributes exactly if the role is one of them. -/
theorem nameIn?_spaced {first : Char} {name : List Char} (letter : first.isAlpha = true)
    (word : ∀ c ∈ name, isNameChar c = true) {segments : List (List Char)}
    (each : ∀ s ∈ segments, Segment s) (inside : '>' ∉ spaced segments) :
    nameIn? (first :: name ++ spaced segments) =
      if attr ∈ segments then some (first :: name) else none := by
  have stop : isNameChar ' ' = false := by decide +kernel
  obtain ⟨taken, dropped⟩ : (name ++ spaced segments).takeWhile isNameChar = name ∧
      (name ++ spaced segments).dropWhile isNameChar = spaced segments := by
    rw [List.takeWhile_append_of_pos word, List.dropWhile_append_of_pos word]
    rcases spaced_cases segments with none | ⟨rest, eq⟩
    · simp [none]
    · simp [eq, stop]
  have found := (isSome_behindAttr?_iff inside).trans (infix_segments_iff each)
  rw [nameIn?, List.cons_append, tagAt?_tag, if_pos letter, taken, dropped, Option.map_map]
  cases behind : behindAttr? (spaced segments) with
  | some rest =>
    rw [behind] at found
    rw [if_pos (found.mp rfl)]
    rfl
  | none =>
    rw [behind] at found
    rw [if_neg fun mem => absurd (found.mpr mem) (by decide)]
    rfl

end ButtonRole

open ButtonRole (Solid solid_of_all solid_of_isAlphanum Segment spaced attr nameIn?)

/-! ## Attributes -/

theorem Escape.not_mem_attr (s : String) : '"' ∉ (Escape.attr s).toList := by
  have unquoted := all_attr (p := (· != '"')) (by decide) (fun c kept => ?_) s
  · exact fun mem => bne_iff_ne.mp (List.all_eq_true.mp unquoted _ mem) rfl
  · rw [bne_iff_ne]
    rintro rfl
    exact kept (by decide)

namespace Attribute

/-- Only names of bindings are written as they are; they are letters and digits. -/
def Plain (a : Attribute) : Prop :=
  ∀ name, a = .classRef (.binding name) → Consists Char.isAlphanum name.toList

theorem segment_quoted {name value : String} (solid : Solid name.toList) (plain : '"' ∉ value.toList) :
    Segment (quoted name value).toList := by
  rw [toList_quoted, List.append_assoc name.toList]
  exact .quoted solid plain

theorem segment_bound {name value : String} (hn : Solid name.toList) (hv : Solid value.toList) :
    Segment (bound name value).toList := by
  rw [toList_bound]
  exact .solid (((hn.append (solid_of_all rfl)).append hv).append (solid_of_all rfl))

theorem toList_ne_attr {name : String} {c : Char} (begins : name.toList.head? = some c) (other : c ≠ 'r')
    (value : String) :
    (quoted name value).toList ≠ attr ∧ (bound name value).toList ≠ attr := by
  have role : attr.head? = some 'r' := rfl
  constructor
  · intro eq
    have first := congrArg List.head? eq
    rw [role] at first
    simp only [toList_quoted, List.head?_append, begins, Option.some_or, Option.some.injEq] at first
    exact other first
  · intro eq
    have first := congrArg List.head? eq
    rw [role] at first
    simp only [toList_bound, List.head?_append, begins, Option.some_or, Option.some.injEq] at first
    exact other first

theorem segment_render {a : Attribute} (plain : a.Plain) {d : MarkupDialect} {text : String}
    (rendered : a.render d = some text) : Segment text.toList := by
  have inert (c : Char) (hc : isInert c = true) : Text.isBlank c = false ∧ c ≠ '"' :=
    ⟨(isInert_iff.mp hc).1, (isInert_iff.mp hc).2.1⟩
  have solid {word : String} (own : Word a word) : Solid word.toList :=
    own.forall_mem inert fun name eq => solid_of_isAlphanum (plain name eq)
  cases spelling_render rendered with
  | escaped fixed own => exact segment_quoted (fixed.forall_mem inert) (Escape.not_mem_attr _)
  | quoted fixed word =>
    exact segment_quoted (fixed.forall_mem inert) fun mem => (solid word _ mem).2 rfl
  | bound fixed word => exact segment_bound (fixed.forall_mem inert) (solid word)

/-- Only the button role is spelled as the search expects it. -/
theorem toList_eq_attr_iff {a : Attribute} {d : MarkupDialect} {text : String}
    (rendered : a.render d = some text) : text.toList = attr ↔ a = .role .button := by
  cases a with
  | role r =>
    cases rendered
    cases r with
    | button => exact iff_of_true rfl rfl
    | link => exact iff_of_false (by decide +kernel) (by decide)
  | classRef ref =>
    refine iff_of_false ?_ Attribute.noConfusion
    cases ref <;> cases d <;> cases rendered
    · exact (toList_ne_attr (c := 'c') rfl (by decide) _).1
    · exact (toList_ne_attr (c := 'c') rfl (by decide) _).1
    · exact (toList_ne_attr (c := 'c') rfl (by decide) _).1
    · exact (toList_ne_attr (c := 'c') rfl (by decide) _).2
    · exact (toList_ne_attr (c := ':') rfl (by decide) _).1
    · exact (toList_ne_attr (c := 'c') rfl (by decide) _).1
  | focusable =>
    refine iff_of_false ?_ Attribute.noConfusion
    cases d <;> cases rendered
    · exact (toList_ne_attr (c := 't') rfl (by decide) _).2
    · exact (toList_ne_attr (c := 't') rfl (by decide) _).1
    · exact (toList_ne_attr (c := 't') rfl (by decide) _).1
  | clickHandler =>
    refine iff_of_false ?_ Attribute.noConfusion
    cases d <;> cases rendered
    · exact (toList_ne_attr (c := 'o') rfl (by decide) _).2
    · exact (toList_ne_attr (c := '@') rfl (by decide) _).1
  | buttonType | alt s | source s | placeholder s | lazyLoading | asyncDecoding =>
    cases rendered
    exact iff_of_false (toList_ne_attr rfl (by decide) _).1 Attribute.noConfusion

end Attribute

/-! ## Tags -/

/-- The search reads a tag to its end. -/
def Tag.Legible (tag : String) : Prop :=
  ∃ first rest, tag.toList = first :: rest ∧ first.isAlpha = true ∧
    ∀ c ∈ rest, ButtonRole.isNameChar c = true

namespace ElementHead

/-- The search reads the tag to its end, and the attributes are plain. -/
structure Legible (h : ElementHead) : Prop where
  tag : Tag.Legible h.tag
  attributes : ∀ a ∈ h.attributes, a.Plain

/-- The tag, if the element has the role of a button. -/
def roleTag? (h : ElementHead) : Option (List Char) :=
  if .role .button ∈ h.attributes then some h.tag.toList else none

variable {h : ElementHead}

def segments (h : ElementHead) (d : MarkupDialect) : List (List Char) :=
  (h.attributes.filterMap fun a => a.render d).map String.toList

theorem attributeText_eq (h : ElementHead) (d : MarkupDialect) :
    h.attributeText d = spaced (h.segments d) := by
  rw [attributeText, segments, spaced, List.flatMap_map]

theorem segment_of_mem (legible : h.Legible) (d : MarkupDialect) :
    ∀ s ∈ h.segments d, Segment s := by
  intro s hs
  obtain ⟨text, mem, rfl⟩ := List.mem_map.mp hs
  obtain ⟨a, ha, rendered⟩ := List.mem_filterMap.mp mem
  exact Attribute.segment_render (legible.attributes a ha) rendered

theorem attr_mem_segments_iff (h : ElementHead) (d : MarkupDialect) :
    attr ∈ h.segments d ↔ .role .button ∈ h.attributes := by
  constructor
  · intro mem
    obtain ⟨text, mem, eq⟩ := List.mem_map.mp mem
    obtain ⟨a, ha, rendered⟩ := List.mem_filterMap.mp mem
    exact (Attribute.toList_eq_attr_iff rendered).mp eq ▸ ha
  · intro mem
    have rendered : (Attribute.role .button).render d = some "role=\"button\"" := rfl
    exact List.mem_map.mpr ⟨_, List.mem_filterMap.mpr ⟨_, mem, rendered⟩, rfl⟩

/-- In a tag with more attributes behind its own, the role is found if the element has it. -/
theorem nameIn?_segments (legible : h.Legible) (d : MarkupDialect) {more : List (List Char)}
    (solid : ∀ s ∈ more, Solid s) (inside : '>' ∉ spaced (h.segments d ++ more)) :
    nameIn? (h.tag.toList ++ spaced (h.segments d ++ more)) = h.roleTag? := by
  obtain ⟨first, rest, tag, letter, word⟩ := legible.tag
  have each : ∀ s ∈ h.segments d ++ more, Segment s := by
    intro s hs
    rcases List.mem_append.mp hs with hs | hs
    · exact segment_of_mem legible d s hs
    · exact .solid (solid s hs)
  have absent : attr ∉ more := fun mem => (solid _ mem '"' (by decide)).2 rfl
  rw [tag, ButtonRole.nameIn?_spaced letter word each inside, roleTag?, tag]
  simp only [List.mem_append, absent, or_false, attr_mem_segments_iff]

theorem nameIn?_openingTag (safe : h.Safe) (legible : h.Legible) (d : MarkupDialect) :
    nameIn? (h.openingTag d) = h.roleTag? := by
  have bare := bare_openingTag safe d
  have none : ∀ s ∈ [], Solid s := fun _ hs => by cases hs
  have found := nameIn?_segments legible d none
  rw [openingTag, attributeText_eq] at bare ⊢
  rw [List.append_nil] at found
  exact found fun mem => (bare _ (List.mem_append_right _ mem)).2 rfl

theorem nameIn?_closedTag (safe : h.Safe) (legible : h.Legible) (d : MarkupDialect) :
    nameIn? (h.closedTag d) = h.roleTag? := by
  have bare := bare_closedTag safe d
  have text : h.closedTag d = h.tag.toList ++ spaced (h.segments d ++ [['/']]) := by
    rw [closedTag, openingTag, attributeText_eq, ButtonRole.spaced_append, List.append_assoc]
    rfl
  rw [text] at bare ⊢
  refine nameIn?_segments legible d (fun s hs => ?_)
    fun mem => (bare _ (List.mem_append_right _ mem)).2 rfl
  rw [List.mem_singleton.mp hs]
  exact solid_of_all rfl

theorem nameIn?_closingTag (h : ElementHead) : nameIn? h.closingTag = none := rfl

theorem filterMap_lineTags (safe : h.Safe) (legible : h.Legible) (d : MarkupDialect) :
    (h.lineTags d).filterMap nameIn? = h.roleTag?.toList := by
  have opened := nameIn?_openingTag safe legible d
  have closed := nameIn?_closedTag safe legible d
  have one (o : Option (List Char)) {tag : List Char} (eq : nameIn? tag = o) :
      [tag].filterMap nameIn? = o.toList := by
    rw [List.filterMap_cons, eq]
    cases o <;> rfl
  unfold lineTags
  split_ifs with void static paired
  · exact one _ opened
  · exact one _ closed
  · rw [← List.singleton_append, List.filterMap_append, one _ opened, one _ (nameIn?_closingTag h)]
    exact List.append_nil _
  · exact one _ closed

end ElementHead

/-! ## Elements -/

namespace Element

/-- The tags that carry the role of a button, in the order of the walk. -/
def roleTags (e : Element) : List (List Char) :=
  e.values.filterMap ElementHead.roleTag?

/-- The tags that carry the role in the text of an element are those of the elements that have it. -/
theorem filterMap_writtenTags {e : Element} (safe : e.Safe) (legible : ∀ h ∈ e.values, h.Legible)
    (d : MarkupDialect) : (e.writtenTags d).filterMap nameIn? = e.roleTags := by
  induction e using Tree.ind with
  | node h children ih =>
    have own : h.Legible := legible h (by rw [Tree.values_node]; exact List.mem_cons_self ..)
    have inner : ∀ e ∈ children, ∀ g ∈ e.values, g.Legible := fun e he g hg =>
      legible g (by
        rw [Tree.values_node]
        exact List.mem_cons_of_mem _ (List.mem_flatMap.mpr ⟨e, he, hg⟩))
    have first : (h :: children.flatMap Tree.values).filterMap ElementHead.roleTag? =
        h.roleTag?.toList ++ (children.flatMap Tree.values).filterMap ElementHead.roleTag? := by
      rw [List.filterMap_cons]
      cases h.roleTag? <;> rfl
    rw [roleTags, Tree.values_node, first, writtenTags]
    by_cases single : (Tag.isVoid h.tag || children.isEmpty) = true
    · have childless : children = [] := by
        rcases Bool.or_eq_true_iff.mp single with void | empty
        · exact safe.void void
        · exact List.isEmpty_iff.mp empty
      rw [if_pos single, ElementHead.filterMap_lineTags safe.head own, childless]
      simp
    · have below : (children.flatMap (writtenTags d)).filterMap nameIn? =
          (children.flatMap Tree.values).filterMap ElementHead.roleTag? := by
        rw [List.filterMap_flatMap, List.filterMap_flatMap]
        exact List.flatMap_congr fun e he => ih e he (safe.child e he) (inner e he)
      rw [if_neg single, writtenTagsAll_eq, List.filterMap_append, List.filterMap_cons,
        ElementHead.nameIn?_openingTag safe.head own, below]
      cases h.roleTag? <;> simp [ElementHead.nameIn?_closingTag]

/-- The search finds the tags that carry the role in the text of an element. -/
theorem finds_render {e : Element} (safe : e.Safe) (legible : ∀ h ∈ e.values, h.Legible)
    (d : MarkupDialect) (column : Nat) :
    ButtonRole.Finds (e.render d column).toList e.roleTags := by
  have found := ButtonRole.finds_of_scan (tagsIn_render safe d column)
  rwa [filterMap_writtenTags safe legible] at found

end Element
end Handoff

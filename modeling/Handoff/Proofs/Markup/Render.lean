import Handoff.Proofs.Markup.Spelling
import Handoff.Proofs.Markup.Tags
import Mathlib.Tactic.SplitIfs
/-!
# The tags of rendered elements

What an element writes between angle brackets is listed by `Element.writtenTags`, one entry for each
tag. An element is `Safe` when its tags are plain names, void tags have no children, and names of
bindings, which are written as they are, hold no angle brackets. Everything else that comes from a
design is escaped.

Results:
* `scans_lines`: the lines of a safe element hold the tags that it writes and no other angle brackets.
* `reads_writtenTags`: those tags, read with a stack, are the tree of the element.
-/
namespace Handoff
open Markup (Bare bare_nil bare_of_all Scans scans_bare scans_tag Mark markOf PlainName isTagChar Reads reads_nil
  reads_single reads_void reads_element)

/-! ## Escapes -/

namespace Escape

theorem not_angle {codes : Codes} (angles : '<' ∈ codes.map Prod.snd ∧ '>' ∈ codes.map Prod.snd)
    {c : Char} (kept : c ∉ codes.map Prod.snd) : (c != '<' && c != '>') = true := by
  rw [Bool.and_eq_true, bne_iff_ne, bne_iff_ne]
  refine ⟨?_, ?_⟩
  · rintro rfl
    exact kept angles.1
  · rintro rfl
    exact kept angles.2

theorem bare_attr (s : String) : Bare (attr s).toList :=
  bare_of_all (all_attr (by decide) (fun _ kept => not_angle (by decide) kept) s)

theorem bare_text (d : MarkupDialect) (s : String) : Bare (text d s).toList := by
  refine bare_of_all (all_text ?_ (fun _ kept => not_angle ?_ kept) s)
  · cases d <;> decide
  · cases d <;> decide

end Escape

/-! ## Attributes -/

namespace Attribute

/-- Only names of bindings are written as they are. -/
def Safe (a : Attribute) : Prop := ∀ name, a = .classRef (.binding name) → Bare name.toList

/-- The spelling of an attribute holds no angle brackets and does not end in a slash. -/
def Spelled (text : String) : Prop :=
  Bare text.toList ∧ ∃ front last, text.toList = front ++ [last] ∧ last ≠ '/'

theorem spelled_quoted {name value : String} (hn : Bare name.toList) (hv : Bare value.toList) :
    Spelled (quoted name value) := by
  have mark : Bare ['=', '"'] := bare_of_all rfl
  have close : Bare ['"'] := bare_of_all rfl
  refine ⟨?_, name.toList ++ ['=', '"'] ++ value.toList, '"', toList_quoted name value, by decide⟩
  rw [toList_quoted]
  exact ((hn.append mark).append hv).append close

theorem spelled_bound {name value : String} (hn : Bare name.toList) (hv : Bare value.toList) :
    Spelled (bound name value) := by
  have mark : Bare ['=', '\x7b'] := bare_of_all rfl
  have close : Bare ['\x7d'] := bare_of_all rfl
  refine ⟨?_, name.toList ++ ['=', '\x7b'] ++ value.toList, '\x7d', toList_bound name value, by decide⟩
  rw [toList_bound]
  exact ((hn.append mark).append hv).append close

theorem spelled_render {a : Attribute} (h : a.Safe) {d : MarkupDialect} {text : String}
    (rendered : a.render d = some text) : Spelled text := by
  have inert (c : Char) (hc : isInert c = true) : c ≠ '<' ∧ c ≠ '>' := (isInert_iff.mp hc).2.2
  cases spelling_render rendered with
  | escaped fixed own => exact spelled_quoted (fixed.forall_mem inert) (Escape.bare_attr _)
  | quoted fixed word => exact spelled_quoted (fixed.forall_mem inert) (word.forall_mem inert h)
  | bound fixed word => exact spelled_bound (fixed.forall_mem inert) (word.forall_mem inert h)

end Attribute

/-! ## Tags -/

namespace ElementHead

/-- The tag of a head is a plain name, and its attributes are safe. -/
structure Safe (h : ElementHead) : Prop where
  tag : PlainName h.tag
  attributes : ∀ a ∈ h.attributes, a.Safe

def attributeText (h : ElementHead) (d : MarkupDialect) : List Char :=
  (h.attributes.filterMap fun a => a.render d).flatMap fun text => ' ' :: text.toList

def openingTag (h : ElementHead) (d : MarkupDialect) : List Char :=
  h.tag.toList ++ h.attributeText d

/-- The tag of an element that closes itself, without brackets. -/
def closedTag (h : ElementHead) (d : MarkupDialect) : List Char :=
  h.openingTag d ++ [' ', '/']

def closingTag (h : ElementHead) : List Char :=
  '/' :: h.tag.toList

/-- The tags of an element that takes one line. -/
def lineTags (h : ElementHead) (d : MarkupDialect) : List (List Char) :=
  if Tag.isVoid h.tag then [if d = .static then h.openingTag d else h.closedTag d]
  else if h.text.isSome || d = .static then [h.openingTag d, h.closingTag]
  else [h.closedTag d]

theorem toList_opening (h : ElementHead) (d : MarkupDialect) :
    (h.opening d).toList = '<' :: h.openingTag d := by
  have attributes : (h.attributes.filterMap fun a => (a.render d).map (" " ++ ·)) =
      (h.attributes.filterMap fun a => a.render d).map (" " ++ ·) := by
    rw [List.map_filterMap]
  have blank (text : String) : (" " ++ text).toList = ' ' :: text.toList := by
    rw [String.toList_append]
    rfl
  unfold opening openingTag attributeText
  rw [String.toList_append, String.toList_append, String.toList_join, attributes, List.flatMap_map]
  simp only [blank]
  rfl

theorem toList_closing (h : ElementHead) : h.closing.toList = '<' :: h.closingTag ++ ['>'] := by
  unfold closing closingTag
  rw [String.toList_append, String.toList_append]
  rfl

theorem bare_of_isTagChar {cs : List Char} (h : ∀ c ∈ cs, isTagChar c = true) : Bare cs := by
  intro c hc
  have kept := h c hc
  refine ⟨?_, ?_⟩
  · rintro rfl
    exact absurd kept (by decide)
  · rintro rfl
    exact absurd kept (by decide)

theorem attributeText_shape {h : ElementHead} (safe : h.Safe) (d : MarkupDialect) :
    Bare (h.attributeText d) ∧ (h.attributeText d = [] ∨
      ∃ front last, h.attributeText d = ' ' :: (front ++ [last]) ∧ last ≠ '/') := by
  have spelled : ∀ text ∈ h.attributes.filterMap fun a => a.render d, Attribute.Spelled text := by
    intro text mem
    obtain ⟨a, ha, rendered⟩ := List.mem_filterMap.mp mem
    exact Attribute.spelled_render (safe.attributes a ha) rendered
  unfold attributeText
  generalize (h.attributes.filterMap fun a => a.render d) = texts at spelled ⊢
  induction texts with
  | nil => exact ⟨bare_nil, .inl rfl⟩
  | cons text rest ih =>
    obtain ⟨bare, front, last, eq, slash⟩ := spelled text (List.mem_cons_self ..)
    obtain ⟨bareRest, shape⟩ := ih fun t ht => spelled t (List.mem_cons_of_mem _ ht)
    rw [List.flatMap_cons]
    refine ⟨(bare.cons (by decide)).append bareRest, .inr ?_⟩
    rcases shape with none | ⟨front', last', more, slash'⟩
    · exact ⟨front, last, by rw [none, List.append_nil, eq], slash⟩
    · refine ⟨front ++ [last] ++ ' ' :: front', last', ?_, slash'⟩
      rw [more, eq]
      simp

theorem bare_openingTag {h : ElementHead} (safe : h.Safe) (d : MarkupDialect) :
    Bare (h.openingTag d) :=
  (bare_of_isTagChar safe.tag.2).append (attributeText_shape safe d).1

theorem bare_closedTag {h : ElementHead} (safe : h.Safe) (d : MarkupDialect) :
    Bare (h.closedTag d) :=
  (bare_openingTag safe d).append (bare_of_all rfl)

theorem bare_closingTag {h : ElementHead} (safe : h.Safe) : Bare h.closingTag :=
  (bare_of_isTagChar safe.tag.2).cons (by decide)

theorem takeWhile_name {h : ElementHead} (safe : h.Safe) (d : MarkupDialect) {rest : List Char}
    (blank : rest = [] ∨ ∃ more, rest = ' ' :: more) :
    (h.openingTag d ++ rest).takeWhile isTagChar = h.tag.toList := by
  have stop : ∀ more, (' ' :: more).takeWhile isTagChar = [] := fun more =>
    List.takeWhile_cons_of_neg (by decide)
  unfold openingTag
  rw [List.append_assoc, List.takeWhile_append_of_pos safe.tag.2]
  rcases (attributeText_shape safe d).2 with none | ⟨front, last, eq, -⟩
  · rw [none, List.nil_append]
    rcases blank with rfl | ⟨more, rfl⟩
    · exact List.append_nil _
    · rw [stop, List.append_nil]
  · rw [eq, List.cons_append, stop, List.append_nil]

theorem getLast?_openingTag {h : ElementHead} (safe : h.Safe) (d : MarkupDialect) :
    (h.openingTag d).getLast? ≠ some '/' := by
  intro slash
  unfold openingTag at slash
  rcases (attributeText_shape safe d).2 with none | ⟨front, last, eq, ne⟩
  · rw [none, List.append_nil] at slash
    exact absurd (safe.tag.2 '/' (List.mem_of_getLast? slash)) (by decide)
  · rw [eq, ← List.cons_append, ← List.append_assoc, List.getLast?_append, List.getLast?_singleton,
      Option.some_or] at slash
    exact ne (Option.some.inj slash)

theorem markOf_eq {tag : List Char} (h : ∀ name, tag ≠ '/' :: name) :
    markOf tag = if tag.getLast? = some '/' then .single (String.ofList (tag.takeWhile isTagChar))
      else .opening (String.ofList (tag.takeWhile isTagChar)) := by
  unfold markOf
  split
  · next name => exact absurd rfl (h name)
  · rfl

theorem openingTag_ne_slash {h : ElementHead} (safe : h.Safe) (d : MarkupDialect)
    (rest name : List Char) : h.openingTag d ++ rest ≠ '/' :: name := by
  obtain ⟨c, cs, eq⟩ := List.exists_cons_of_ne_nil safe.tag.1
  intro slash
  unfold openingTag at slash
  rw [eq] at slash
  have first := safe.tag.2 c (eq ▸ List.mem_cons_self ..)
  rw [(List.cons.inj slash).1] at first
  exact absurd first (by decide)

theorem markOf_openingTag {h : ElementHead} (safe : h.Safe) (d : MarkupDialect) :
    markOf (h.openingTag d) = .opening h.tag := by
  have starts := openingTag_ne_slash safe d []
  have name := takeWhile_name safe d (.inl rfl)
  rw [List.append_nil] at starts name
  rw [markOf_eq starts, if_neg (getLast?_openingTag safe d), name, String.ofList_toList]

theorem markOf_closedTag {h : ElementHead} (safe : h.Safe) (d : MarkupDialect) :
    markOf (h.closedTag d) = .single h.tag := by
  have last : (h.openingTag d ++ [' ', '/']).getLast? = some '/' := by
    rw [List.getLast?_append]
    rfl
  have blank : ∃ more, [' ', '/'] = ' ' :: more := ⟨['/'], rfl⟩
  have name := takeWhile_name safe d (.inr blank)
  unfold closedTag
  rw [markOf_eq (openingTag_ne_slash safe d [' ', '/']), if_pos last, name, String.ofList_toList]

theorem markOf_closingTag (h : ElementHead) : markOf h.closingTag = .closing h.tag := by
  show Mark.closing (String.ofList h.tag.toList) = .closing h.tag
  rw [String.ofList_toList]

/-! ## Lines -/

theorem scans_openingTag {h : ElementHead} (safe : h.Safe) (d : MarkupDialect) :
    Scans ((h.opening d).toList ++ ['>']) [h.openingTag d] := by
  rw [toList_opening]
  exact scans_tag (bare_openingTag safe d)

theorem scans_closedTag {h : ElementHead} (safe : h.Safe) (d : MarkupDialect) :
    Scans ((h.opening d).toList ++ [' ', '/', '>']) [h.closedTag d] := by
  have split : (h.opening d).toList ++ [' ', '/', '>'] = '<' :: h.closedTag d ++ ['>'] := by
    rw [toList_opening, closedTag]
    simp
  rw [split]
  exact scans_tag (bare_closedTag safe d)

theorem scans_closingTag {h : ElementHead} (safe : h.Safe) : Scans h.closing.toList [h.closingTag] := by
  rw [toList_closing]
  exact scans_tag (bare_closingTag safe)

/-- An element that takes one line holds the tags that it writes. -/
theorem scans_line {h : ElementHead} (safe : h.Safe) (d : MarkupDialect) :
    Scans (h.line d).toList (h.lineTags d) := by
  have opened := scans_openingTag safe d
  have closed := scans_closedTag safe d
  have closing := scans_closingTag safe
  unfold line lineTags
  by_cases void : Tag.isVoid h.tag = true
  · rw [if_pos void, if_pos void, String.toList_append]
    by_cases static : d = .static
    · rw [if_pos static, if_pos static]
      exact opened
    · rw [if_neg static, if_neg static]
      exact closed
  · rw [if_neg void, if_neg void]
    cases h.text with
    | some text =>
      have inner := scans_bare (Escape.bare_text d text)
      dsimp only
      rw [if_pos (by rfl)]
      simp only [String.toList_append]
      exact (opened.append inner).append closing
    | none =>
      dsimp only
      by_cases static : d = .static
      · rw [if_pos static, if_pos (by rw [static]; rfl), String.toList_append, String.toList_append]
        exact opened.append closing
      · rw [if_neg static, if_neg (by simpa using static), String.toList_append]
        exact closed

/-- The tags of a line without children are those of one element. -/
theorem reads_lineTags {h : ElementHead} (safe : h.Safe) (d : MarkupDialect) :
    Reads ((h.lineTags d).map markOf) [.leaf h.tag] := by
  unfold lineTags
  by_cases void : Tag.isVoid h.tag = true
  · rw [if_pos void]
    by_cases static : d = .static
    · rw [if_pos static, List.map_singleton, markOf_openingTag safe]
      exact reads_void void
    · rw [if_neg static, List.map_singleton, markOf_closedTag safe]
      exact reads_single h.tag
  · rw [if_neg void]
    split_ifs with paired
    · rw [List.map_cons, List.map_singleton, markOf_openingTag safe, markOf_closingTag]
      exact reads_element (Bool.of_not_eq_true void) reads_nil
    · rw [List.map_singleton, markOf_closedTag safe]
      exact reads_single h.tag

end ElementHead

/-! ## Elements -/

namespace Element

/-- Every head is safe, and no element without content has children. -/
def Safe (e : Element) : Prop :=
  ∀ u ∈ e.walk, u.value.Safe ∧ (Tag.isVoid u.value.tag = true → u.children = [])

/-- The tags that an element writes, in order and without their brackets. -/
def writtenTags (d : MarkupDialect) : Element → List (List Char)
  | .node h children =>
    if Tag.isVoid h.tag || children.isEmpty then h.lineTags d
    else h.openingTag d :: writtenTagsAll children ++ [h.closingTag]
where
  writtenTagsAll : List Element → List (List Char)
    | [] => []
    | e :: es => writtenTags d e ++ writtenTagsAll es

theorem Safe.head {h : ElementHead} {children : List Element} (safe : Safe (.node h children)) :
    h.Safe :=
  (safe _ (Tree.mem_walk_self _)).1

theorem Safe.child {h : ElementHead} {children : List Element} (safe : Safe (.node h children)) :
    ∀ e ∈ children, Safe e := by
  intro e he u hu
  apply safe
  rw [Tree.walk_node]
  exact List.mem_cons_of_mem _ (List.mem_flatMap.mpr ⟨e, he, hu⟩)

theorem Safe.void {h : ElementHead} {children : List Element} (safe : Safe (.node h children)) :
    Tag.isVoid h.tag = true → children = [] :=
  (safe _ (Tree.mem_walk_self _)).2

theorem linesAll_eq (d : MarkupDialect) (column : Nat) (es : List Element) :
    lines.linesAll d column es = es.flatMap (lines d column) := by
  induction es with
  | nil => rfl
  | cons e es ih => rw [lines.linesAll, ih, List.flatMap_cons]

theorem writtenTagsAll_eq (d : MarkupDialect) (es : List Element) :
    writtenTags.writtenTagsAll d es = es.flatMap (writtenTags d) := by
  induction es with
  | nil => rfl
  | cons e es ih => rw [writtenTags.writtenTagsAll, ih, List.flatMap_cons]

def broken (lines : List String) : List Char :=
  lines.flatMap fun line => '\n' :: line.toList

theorem broken_append (a b : List String) : broken (a ++ b) = broken a ++ broken b :=
  List.flatMap_append

theorem broken_cons (line : String) (lines : List String) :
    broken (line :: lines) = '\n' :: line.toList ++ broken lines := rfl

theorem bare_spaces (n : Nat) : Bare (Text.spaces n).toList := by
  unfold Text.spaces
  rw [String.toList_ofList]
  intro c hc
  rw [List.eq_of_mem_replicate hc]
  decide

/-- A line of bare text before a part does not count. -/
theorem scans_marginLine {margin part : String} {tags : List (List Char)} (bare : Bare margin.toList)
    (h : Scans part.toList tags) : Scans (broken [margin ++ part]) tags := by
  have front := scans_bare (bare.cons (c := '\n') (by decide))
  rw [broken_cons, String.toList_append]
  unfold broken
  rw [List.flatMap_nil, List.append_nil, ← List.cons_append]
  exact front.append h

/-- The lines of the children of an element hold their tags, one child after the other. -/
theorem scans_children {d : MarkupDialect} {column : Nat} {children : List Element}
    (each : ∀ e ∈ children, Scans (broken (e.lines d column)) (e.writtenTags d)) :
    Scans (broken (lines.linesAll d column children)) (writtenTags.writtenTagsAll d children) := by
  rw [linesAll_eq, writtenTagsAll_eq]
  induction children with
  | nil => exact scans_bare bare_nil
  | cons e es ih =>
    rw [List.flatMap_cons, List.flatMap_cons, broken_append]
    exact (each e (List.mem_cons_self ..)).append (ih fun f hf => each f (List.mem_cons_of_mem _ hf))

/-- The lines of a safe element hold the tags that it writes and no other angle brackets. -/
theorem scans_lines {d : MarkupDialect} {e : Element} (safe : e.Safe) (column : Nat) :
    Scans (broken (e.lines d column)) (e.writtenTags d) := by
  induction e using Tree.ind generalizing column with
  | node h children ih =>
    have margin := bare_spaces column
    rw [lines, writtenTags]
    by_cases single : (Tag.isVoid h.tag || children.isEmpty) = true
    · rw [if_pos single, if_pos single]
      exact scans_marginLine margin (ElementHead.scans_line safe.head d)
    · rw [if_neg single, if_neg single]
      have opened : Scans (broken [Text.spaces column ++ h.opening d ++ ">"]) [h.openingTag d] := by
        rw [String.append_assoc]
        apply scans_marginLine margin
        rw [String.toList_append]
        exact ElementHead.scans_openingTag safe.head d
      have inside := scans_children fun e he => ih e he (safe.child e he) (column + 2)
      have closed := scans_marginLine margin (ElementHead.scans_closingTag safe.head)
      cases h.text with
      | none =>
        have whole := (opened.append inside).append closed
        rw [← broken_append, ← broken_append] at whole
        exact whole
      | some text =>
        have written : Scans (broken [Text.spaces column ++ "  " ++ Escape.text d text]) [] :=
          scans_marginLine (by rw [String.toList_append]; exact margin.append (bare_of_all rfl))
            (scans_bare (Escape.bare_text d text))
        have whole := ((opened.append written).append inside).append closed
        rw [← broken_append, ← broken_append, ← broken_append] at whole
        exact whole

theorem toList_intercalate_lines (line : String) (rest : List String) :
    (String.intercalate "\n" (line :: rest)).toList = line.toList ++ broken rest := by
  rw [String.toList_intercalate]
  induction rest generalizing line with
  | nil => simp [broken]
  | cons next rest ih =>
    rw [List.map_cons, List.map_cons, List.intercalate_cons_cons, ← List.map_cons, ih, broken_cons,
      List.append_assoc]
    rfl

theorem exists_lines (d : MarkupDialect) (column : Nat) (e : Element) :
    ∃ line rest, e.lines d column = line :: rest := by
  cases e with
  | node h children =>
    rw [lines]
    split
    · exact ⟨_, [], rfl⟩
    · exact ⟨_, _, rfl⟩

/-- The text of a safe element holds the tags that it writes and no other angle brackets. -/
theorem tagsIn_render {e : Element} (safe : e.Safe) (d : MarkupDialect) (column : Nat) :
    Markup.tagsIn (e.render d column) = some (e.writtenTags d) := by
  have scanned := scans_lines (d := d) safe column
  obtain ⟨line, rest, eq⟩ := exists_lines d column e
  apply Scans.tagsIn
  intro more
  have whole := scanned more
  rw [render, eq, toList_intercalate_lines]
  rw [eq, broken_cons] at whole
  -- The line feed before the first line is no part of the text, and scanning passes over it.
  exact whole

theorem reads_children {d : MarkupDialect} {children : List Element}
    (each : ∀ e ∈ children, Reads ((e.writtenTags d).map markOf) [e.map ElementHead.tag]) :
    Reads ((children.flatMap (writtenTags d)).map markOf)
      (children.map (Tree.map ElementHead.tag)) := by
  induction children with
  | nil => exact reads_nil
  | cons e es ih =>
    rw [List.flatMap_cons, List.map_append, List.map_cons]
    exact (each e (List.mem_cons_self ..)).append (ih fun f hf => each f (List.mem_cons_of_mem _ hf))

/-- The tags that a safe element writes, read with a stack, are the tree of the element. -/
theorem reads_writtenTags {e : Element} (safe : e.Safe) (d : MarkupDialect) :
    Reads ((e.writtenTags d).map markOf) [e.map ElementHead.tag] := by
  induction e using Tree.ind with
  | node h children ih =>
    rw [Tree.map_node, writtenTags]
    by_cases single : (Tag.isVoid h.tag || children.isEmpty) = true
    · have childless : children = [] := by
        rcases Bool.or_eq_true_iff.mp single with void | empty
        · exact safe.void void
        · exact List.isEmpty_iff.mp empty
      rw [if_pos single, childless]
      exact ElementHead.reads_lineTags safe.head d
    · rw [if_neg single]
      have open' : Tag.isVoid h.tag = false := by
        rw [Bool.or_eq_true, not_or] at single
        exact Bool.of_not_eq_true single.1
      have inside : Reads ((writtenTags.writtenTagsAll d children).map markOf)
          (children.map (Tree.map ElementHead.tag)) := by
        rw [writtenTagsAll_eq]
        exact reads_children fun e he => ih e he (safe.child e he)
      have whole := reads_element open' inside
      rw [List.map_append, List.map_cons, List.map_singleton, ElementHead.markOf_openingTag safe.head,
        ElementHead.markOf_closingTag]
      exact whole

end Element
end Handoff

import Handoff.Component.File
import Handoff.Proofs.Markup.Render
import Handoff.Proofs.Text.Layout
/-!
# Elements further right

An element that starts in another column has the same lines, each of them further right. Indentation
does the same to the text of an element if it finds the lines in it that were written: no line feed may
stand in what a line takes over, and a text that has a line of its own may not be blank, nor end in a
carriage return, which would belong to the line end behind it. All other lines begin and end with a
bracket.

Results:
* `Element.lines_add`: the lines of an element in another column.
* `Element.render_add_iff`: when an indented element is the element in another column.
* `ComponentParts.file_withBody`: what stands around the body of a file.
* `Element.render_add`: an indented element is the element in another column if no line break stands in
  it and no text is blank, and so it stands in the file of a component as if it was written there.
-/
namespace Handoff
open Text (OneRow oneRow_of_all oneRow_append oneRow_spaces spaces_add Shifts Unbroken isBlank joinLines)

/-! ## Blanks in escapes -/

namespace Escape

/-- What is written for a character: the character itself or, if it is not blank, something without
blanks. -/
def KeepsBlanks (c : Char) (piece : List Char) : Prop :=
  piece = [c] ∨ isBlank c = false ∧ piece ≠ [] ∧ piece.any isBlank = false

theorem Encodes.keepsBlanks {codes : Codes} (solid : ∀ code ∈ codes,
      isBlank code.2 = false ∧ code.1 ≠ [] ∧ code.1.any isBlank = false)
    {c : Char} {piece : List Char} (encodes : Encodes codes c piece) : KeepsBlanks c piece := by
  rcases encodes with known | ⟨single, -⟩
  · exact .inr (solid (piece, c) known)
  · exact .inl single

theorem keepsBlanks_attributeChar (c : Char) : KeepsBlanks c (attributeChar c) :=
  (encodes_attributeChar c).keepsBlanks (by decide)

theorem keepsBlanks_textChar (d : MarkupDialect) (c : Char) : KeepsBlanks c (textChar d c) :=
  (encodes_textChar d c).keepsBlanks (by cases d <;> decide)

section

variable {c x : Char} {piece : List Char}

theorem KeepsBlanks.eq_singleton (keeps : KeepsBlanks c piece) (blank : isBlank c = true) :
    piece = [c] := by
  rcases keeps with single | ⟨solid, -⟩
  · exact single
  · rw [blank] at solid
    cases solid

theorem KeepsBlanks.ne_nil (keeps : KeepsBlanks c piece) : piece ≠ [] := by
  rcases keeps with rfl | ⟨-, some, -⟩
  · exact List.cons_ne_nil c []
  · exact some

theorem KeepsBlanks.eq_of_mem (keeps : KeepsBlanks c piece) (blank : isBlank x = true)
    (mem : x ∈ piece) : x = c := by
  rcases keeps with rfl | ⟨-, -, none⟩
  · exact List.mem_singleton.mp mem
  · exact absurd blank (List.any_eq_false.mp none x mem)

theorem KeepsBlanks.all_eq (keeps : KeepsBlanks c piece) : piece.all isBlank = isBlank c := by
  rcases keeps with rfl | ⟨solid, some, none⟩
  · rw [List.all_cons, List.all_nil, Bool.and_true]
  · obtain ⟨x, rest, rfl⟩ := List.exists_cons_of_ne_nil some
    rw [List.any_cons, Bool.or_eq_false_iff] at none
    rw [List.all_cons, none.1, solid, Bool.false_and]

theorem KeepsBlanks.getLast?_iff (keeps : KeepsBlanks c piece) (blank : isBlank x = true) :
    piece.getLast? = some x ↔ c = x := by
  constructor
  · exact fun last => (keeps.eq_of_mem blank (List.mem_of_getLast? last)).symm
  · rintro rfl
    rw [keeps.eq_singleton blank, List.getLast?_singleton]

end

section

variable {spell : Char → List Char} (keeps : ∀ c, KeepsBlanks c (spell c))
include keeps

theorem mem_of_mem_flatMap {x : Char} (blank : isBlank x = true) {cs : List Char}
    (mem : x ∈ cs.flatMap spell) : x ∈ cs := by
  obtain ⟨c, hc, hx⟩ := List.mem_flatMap.mp mem
  rwa [(keeps c).eq_of_mem blank hx]

theorem all_isBlank_flatMap (cs : List Char) : (cs.flatMap spell).all isBlank = cs.all isBlank := by
  rw [List.all_flatMap]
  exact congrArg cs.all (funext fun c => (keeps c).all_eq)

theorem getLast?_flatMap_iff {x : Char} (blank : isBlank x = true) (cs : List Char) :
    (cs.flatMap spell).getLast? = some x ↔ cs.getLast? = some x := by
  rcases List.eq_nil_or_concat' cs with rfl | ⟨front, last, rfl⟩
  · rfl
  · rw [List.flatMap_append, List.flatMap_singleton,
      List.getLast?_append_of_ne_nil _ (keeps last).ne_nil, (keeps last).getLast?_iff blank,
      List.getLast?_concat, Option.some.injEq]

end

theorem oneRow_attr {s : String} (row : OneRow s) : OneRow (attr s) := by
  unfold OneRow attr
  rw [String.toList_ofList]
  exact fun feed => row (mem_of_mem_flatMap keepsBlanks_attributeChar rfl feed)

theorem oneRow_text {s : String} (row : OneRow s) (d : MarkupDialect) : OneRow (text d s) := by
  unfold OneRow text
  rw [String.toList_ofList]
  exact fun feed => row (mem_of_mem_flatMap (keepsBlanks_textChar d) rfl feed)

/-- A text is pushed right as it is, or is not, whatever dialect it is escaped for. -/
theorem shifts_text_iff (n : Nat) (d : MarkupDialect) (s : String) :
    Shifts n (text d s).toList ↔ Shifts n s.toList := by
  have keeps := keepsBlanks_textChar d
  unfold Shifts text
  rw [String.toList_ofList, all_isBlank_flatMap keeps, Ne, getLast?_flatMap_iff keeps rfl]

end Escape

/-! ## Rows of a head -/

namespace Attribute

theorem oneRow_quoted {name value : String} (hn : OneRow name) (hv : OneRow value) :
    OneRow (quoted name value) := by
  have mark : OneRow "=\"" := oneRow_of_all rfl
  have close : OneRow "\"" := oneRow_of_all rfl
  unfold quoted
  simp only [oneRow_append]
  exact ⟨⟨⟨hn, mark⟩, hv⟩, close⟩

theorem oneRow_bound {name value : String} (hn : OneRow name) (hv : OneRow value) :
    OneRow (bound name value) := by
  have mark : OneRow "=\x7b" := oneRow_of_all rfl
  have close : OneRow "\x7d" := oneRow_of_all rfl
  unfold bound
  simp only [oneRow_append]
  exact ⟨⟨⟨hn, mark⟩, hv⟩, close⟩

theorem oneRow_render {a : Attribute} (rows : ∀ value ∈ a.values, OneRow value) {d : MarkupDialect}
    {text : String} (rendered : a.render d = some text) : OneRow text := by
  have inert (c : Char) (hc : isInert c = true) : c ≠ '\n' := by
    rintro rfl
    cases hc
  have fixed {name : String} (own : Fixed name) : OneRow name :=
    fun feed => own.forall_mem inert _ feed rfl
  have word {word : String} (own : Word a word) : OneRow word := by
    refine fun feed => own.forall_mem inert ?_ _ feed rfl
    rintro name rfl c hc rfl
    exact rows name (List.mem_singleton_self name) hc
  cases spelling_render rendered with
  | escaped name own => exact oneRow_quoted (fixed name) (Escape.oneRow_attr (rows _ own))
  | quoted name own => exact oneRow_quoted (fixed name) (word own)
  | bound name own => exact oneRow_bound (fixed name) (word own)

end Attribute

namespace ElementHead

/-- What a head takes over: its tag, the values of its attributes, and its text. -/
def texts (h : ElementHead) : List String :=
  h.tag :: h.attributes.flatMap Attribute.values ++ h.text.toList

theorem mem_texts {h : ElementHead} {text : String} (own : h.text = some text) : text ∈ h.texts :=
  List.mem_append_right _ (by rw [own]; exact List.mem_singleton_self _)

section

variable {h : ElementHead} (rows : ∀ part ∈ h.texts, OneRow part)
include rows

theorem oneRow_tag : OneRow h.tag :=
  rows _ (List.mem_append_left _ (List.mem_cons_self ..))

theorem oneRow_ownText {text : String} (own : h.text = some text) : OneRow text :=
  rows text (mem_texts own)

theorem oneRow_opening (d : MarkupDialect) : OneRow (h.opening d) := by
  unfold OneRow
  rw [toList_opening, openingTag, List.mem_cons, List.mem_append, not_or, not_or]
  refine ⟨by decide, oneRow_tag rows, fun feed => ?_⟩
  obtain ⟨text, mem, inside⟩ := List.mem_flatMap.mp feed
  obtain ⟨a, ha, rendered⟩ := List.mem_filterMap.mp mem
  have own : ∀ value ∈ a.values, OneRow value := fun value hv =>
    rows _ (List.mem_append_left _ (List.mem_cons_of_mem _ (List.mem_flatMap.mpr ⟨a, ha, hv⟩)))
  rcases List.mem_cons.mp inside with blank | inside
  · exact absurd blank (by decide)
  · exact Attribute.oneRow_render own rendered inside

theorem oneRow_closing : OneRow h.closing := by
  unfold closing
  simp only [oneRow_append]
  exact ⟨⟨oneRow_of_all rfl, oneRow_tag rows⟩, oneRow_of_all rfl⟩

theorem oneRow_line (d : MarkupDialect) : OneRow (h.line d) := by
  have opened := oneRow_opening rows d
  have closed := oneRow_closing rows
  have stop : OneRow ">" := oneRow_of_all rfl
  have short : OneRow " />" := oneRow_of_all rfl
  unfold line
  dsimp only
  split
  · split
    · exact oneRow_append.mpr ⟨opened, stop⟩
    · exact oneRow_append.mpr ⟨opened, short⟩
  · split
    · next text own =>
      have inner := Escape.oneRow_text (oneRow_ownText rows own) d
      simp only [oneRow_append]
      exact ⟨⟨⟨opened, stop⟩, inner⟩, closed⟩
    · split
      · simp only [oneRow_append]
        exact ⟨⟨opened, stop⟩, closed⟩
      · exact oneRow_append.mpr ⟨opened, short⟩

end

/-! ## Lines that are closed -/

theorem closed_line (h : ElementHead) (d : MarkupDialect) : ∃ front, h.line d = front ++ ">" := by
  have short (opening : String) : opening ++ " />" = opening ++ " /" ++ ">" := by
    rw [String.append_assoc]
    rfl
  unfold line closing
  dsimp only
  split
  · split
    · exact ⟨_, rfl⟩
    · exact ⟨_, short _⟩
  · split
    · exact ⟨_, by rw [← String.append_assoc, ← String.append_assoc]⟩
    · split
      · exact ⟨_, by rw [← String.append_assoc, ← String.append_assoc]⟩
      · exact ⟨_, short _⟩

end ElementHead

theorem Text.shifts_closed (n : Nat) (front : String) : Shifts n (front ++ ">").toList := by
  rw [String.toList_append]
  exact Text.shifts_concat n front.toList (by decide)

namespace Element

/-! ## The lines of an element -/

theorem lines_single {h : ElementHead} {children : List Element}
    (single : (Tag.isVoid h.tag || children.isEmpty) = true) (d : MarkupDialect) (column : Nat) :
    lines d column (.node h children) = [Text.spaces column ++ h.line d] := by
  rw [lines, if_pos single]

theorem lines_nested {h : ElementHead} {children : List Element}
    (nested : ¬(Tag.isVoid h.tag || children.isEmpty) = true) (d : MarkupDialect) (column : Nat) :
    lines d column (.node h children) =
      (Text.spaces column ++ (h.opening d ++ ">")) ::
        (h.text.toList.map fun text => Text.spaces column ++ (Text.spaces 2 ++ Escape.text d text)) ++
        children.flatMap (lines d (column + 2)) ++ [Text.spaces column ++ h.closing] := by
  have two : Text.spaces 2 = "  " := rfl
  rw [lines, if_neg nested, linesAll_eq, two, String.append_assoc]
  cases h.text with
  | none => rfl
  | some text => simp only [String.append_assoc, Option.toList_some, List.map_singleton]

/-- What holds of every line of an element with lines for its children. -/
theorem forall_mem_lines_nested {h : ElementHead} {children : List Element}
    (nested : ¬(Tag.isVoid h.tag || children.isEmpty) = true) {d : MarkupDialect} {column : Nat}
    {P : String → Prop} : (∀ line ∈ lines d column (.node h children), P line) ↔
      P (Text.spaces column ++ (h.opening d ++ ">")) ∧
      (∀ text ∈ h.text, P (Text.spaces column ++ (Text.spaces 2 ++ Escape.text d text))) ∧
      (∀ c ∈ children, ∀ line ∈ lines d (column + 2) c, P line) ∧
      P (Text.spaces column ++ h.closing) := by
  rw [lines_nested nested, List.forall_mem_append, List.forall_mem_append, List.forall_mem_cons,
    List.forall_mem_map, List.forall_mem_flatMap, List.forall_mem_singleton, and_assoc, and_assoc]
  simp only [Option.mem_toList, Option.mem_def]

theorem exists_lines_concat (d : MarkupDialect) (column : Nat) (e : Element) :
    ∃ before front, e.lines d column = before ++ [front ++ ">"] := by
  cases e with
  | node h children =>
    by_cases single : (Tag.isVoid h.tag || children.isEmpty) = true
    · obtain ⟨front, closed⟩ := h.closed_line d
      rw [lines_single single, closed, ← String.append_assoc]
      exact ⟨[], _, rfl⟩
    · have closed : Text.spaces column ++ h.closing = Text.spaces column ++ ("</" ++ h.tag) ++ ">" := by
        rw [ElementHead.closing, ← String.append_assoc]
      rw [lines_nested single, closed]
      exact ⟨_, _, rfl⟩

/-! ## Lines in another column -/

/-- An element in another column has the same lines, further right. -/
theorem lines_add (d : MarkupDialect) (column n : Nat) (e : Element) :
    e.lines d (column + n) = (e.lines d column).map (Text.spaces n ++ ·) := by
  induction e using Tree.ind generalizing column with
  | node h children ih =>
    by_cases single : (Tag.isVoid h.tag || children.isEmpty) = true
    · rw [lines_single single, lines_single single, spaces_add, List.map_singleton, String.append_assoc]
    · have inside : children.flatMap (lines d (column + n + 2)) =
          (children.flatMap (lines d (column + 2))).map (Text.spaces n ++ ·) := by
        rw [List.map_flatMap]
        refine List.flatMap_congr fun c hc => ?_
        rw [← ih c hc (column + 2), Nat.add_right_comm]
      rw [lines_nested single, lines_nested single, inside, spaces_add]
      simp only [List.map_append, List.map_cons, List.map_nil, List.map_map, Function.comp_def,
        String.append_assoc]

/-! ## Lines that are pushed right -/

theorem oneRow_lines {e : Element} (rows : ∀ h ∈ e.values, ∀ part ∈ h.texts, OneRow part)
    (d : MarkupDialect) (column : Nat) : ∀ line ∈ e.lines d column, OneRow line := by
  induction e using Tree.ind generalizing column with
  | node h children ih =>
    rw [Tree.values_node, List.forall_mem_cons, List.forall_mem_flatMap] at rows
    obtain ⟨own, below⟩ := rows
    have margin := oneRow_spaces column
    by_cases single : (Tag.isVoid h.tag || children.isEmpty) = true
    · rw [lines_single single, List.forall_mem_singleton]
      exact oneRow_append.mpr ⟨margin, ElementHead.oneRow_line own d⟩
    · rw [forall_mem_lines_nested single]
      refine ⟨?_, fun text mem => ?_, fun c hc => ih c hc (below c hc) (column + 2), ?_⟩
      · have opened := ElementHead.oneRow_opening own d
        exact oneRow_append.mpr ⟨margin, oneRow_append.mpr ⟨opened, oneRow_of_all rfl⟩⟩
      · have inner := Escape.oneRow_text (ElementHead.oneRow_ownText own mem) d
        exact oneRow_append.mpr ⟨margin, oneRow_append.mpr ⟨oneRow_spaces 2, inner⟩⟩
      · exact oneRow_append.mpr ⟨margin, ElementHead.oneRow_closing own⟩

/-- The texts that have lines of their own. -/
def linedTexts : Element → List String
  | .node h children =>
    if Tag.isVoid h.tag || children.isEmpty then [] else h.text.toList ++ linedTextsAll children
where
  linedTextsAll : List Element → List String
    | [] => []
    | e :: es => linedTexts e ++ linedTextsAll es

theorem linedTextsAll_eq (es : List Element) : linedTexts.linedTextsAll es = es.flatMap linedTexts := by
  induction es with
  | nil => rfl
  | cons e es ih => rw [linedTexts.linedTextsAll, ih, List.flatMap_cons]

theorem exists_of_mem_linedTexts {e : Element} {text : String} (mem : text ∈ e.linedTexts) :
    ∃ h ∈ e.values, h.text = some text := by
  induction e using Tree.ind with
  | node h children ih =>
    rw [linedTexts, linedTextsAll_eq] at mem
    rw [Tree.values_node]
    split at mem
    · cases mem
    · rcases List.mem_append.mp mem with own | below
      · exact ⟨h, List.mem_cons_self .., Option.mem_toList.mp own⟩
      · obtain ⟨c, hc, inside⟩ := List.mem_flatMap.mp below
        obtain ⟨g, hg, has⟩ := ih c hc inside
        exact ⟨g, List.mem_cons_of_mem _ (List.mem_flatMap.mpr ⟨c, hc, hg⟩), has⟩

/-- Lines with brackets are pushed right, so only the lines of texts count. -/
theorem shifts_lines_iff (n : Nat) (d : MarkupDialect) (column : Nat) (e : Element) :
    (∀ line ∈ e.lines d column, Shifts n line.toList) ↔
      ∀ text ∈ e.linedTexts, Shifts n text.toList := by
  induction e using Tree.ind generalizing column with
  | node h children ih =>
    by_cases single : (Tag.isVoid h.tag || children.isEmpty) = true
    · obtain ⟨front, closed⟩ := h.closed_line d
      rw [lines_single single, List.forall_mem_singleton, closed, ← String.append_assoc, linedTexts,
        if_pos single]
      exact iff_of_true (Text.shifts_closed n _) (fun _ mem => absurd mem List.not_mem_nil)
    · have opened : Shifts n (Text.spaces column ++ (h.opening d ++ ">")).toList := by
        rw [← String.append_assoc]
        exact Text.shifts_closed n _
      have closed : Shifts n (Text.spaces column ++ h.closing).toList := by
        rw [ElementHead.closing, ← String.append_assoc]
        exact Text.shifts_closed n _
      have inside : (∀ c ∈ children, ∀ line ∈ lines d (column + 2) c, Shifts n line.toList) ↔
          ∀ c ∈ children, ∀ text ∈ linedTexts c, Shifts n text.toList :=
        forall₂_congr fun c hc => ih c hc (column + 2)
      rw [forall_mem_lines_nested single, inside, linedTexts, if_neg single, linedTextsAll_eq,
        List.forall_mem_append, List.forall_mem_flatMap]
      simp only [opened, closed, true_and, and_true, Text.shifts_spaces_iff,
        Escape.shifts_text_iff, Option.mem_toList, Option.mem_def]

/-! ## Indented elements -/

theorem toList_render (d : MarkupDialect) (column : Nat) (e : Element) :
    (e.render d column).toList = joinLines ((e.lines d column).map String.toList) := by
  rw [render, String.toList_intercalate, Text.joinLines_eq_intercalate]
  rfl

/-- Of an element that takes over no line feeds, an indented text is that of the element in another
column exactly if every text with a line of its own is pushed right: it does not end in a carriage return,
and is not blank, unless there is nothing to push. -/
theorem render_add_iff {e : Element} (rows : ∀ h ∈ e.values, ∀ part ∈ h.texts, OneRow part)
    (d : MarkupDialect) (column n : Nat) :
    e.render d (column + n) = Text.indent n (e.render d column) ↔
      ∀ text ∈ e.linedTexts, Shifts n text.toList := by
  have pushed : (e.lines d (column + n)).map String.toList =
      ((e.lines d column).map String.toList).map (List.replicate n ' ' ++ ·) := by
    rw [lines_add, List.map_map, List.map_map]
    refine List.map_congr_left fun line _ => ?_
    rw [Function.comp_apply, Function.comp_apply, String.toList_append, Text.spaces, String.toList_ofList]
  have single := oneRow_lines rows d column
  have counted := shifts_lines_iff n d column e
  rw [← String.toList_inj, Text.indent, String.toList_ofList, toList_render, toList_render, pushed]
  obtain ⟨before, front, eq⟩ := exists_lines_concat d column e
  rw [eq, List.forall_mem_append, List.forall_mem_singleton] at single counted
  have plain : ∀ line ∈ before.map String.toList ++ [(front ++ ">").toList], '\n' ∉ line := by
    rw [List.forall_mem_append, List.forall_mem_map, List.forall_mem_singleton]
    exact single
  -- The last line ends with a bracket, so it is pushed right in any case.
  have closed (m : Nat) := Text.shifts_closed m front
  rw [← counted, and_iff_left (closed n), eq, List.map_append, List.map_singleton, eq_comm,
    Text.indentChars_joinLines_eq_iff n plain closed, List.forall_mem_map]

/-- A carriage return at the end of a text is lost in the line end behind it, wherever the text goes. -/
example :
    let e : Element := .node { tag := "p", attributes := [], text := some "Dusk\r" } [
      .leaf { tag := "b", attributes := [] }]
    e.render .static 0 ≠ Text.indent 0 (e.render .static 0) := by
  decide +kernel

end Element

/-! ## Elements in files -/

namespace ComponentParts

/-- The column in which the body of a file begins. -/
def bodyColumn : MarkupDialect → Nat
  | .componentized => 4
  | .templated | .static => 2

/-- What stands above the body of a file. -/
def above (p : ComponentParts) : MarkupDialect → List String
  | .componentized =>
    let parameters := if p.typescript then "props: " ++ p.propsType else "props"
    [p.preamble, "", "export default function " ++ p.name ++ "(" ++ parameters ++ ") \x7b", "  return ("]
  | .templated => ["<template>"]
  | .static => [
    "<!DOCTYPE html>",
    "<html lang=\"en\">",
    "<head>",
    "  <meta charset=\"UTF-8\">",
    "  <meta name=\"viewport\" content=\"width=device-width, initial-scale=1.0\">",
    "  <title>" ++ p.name ++ "</title>",
    "  " ++ p.styleLine,
    "</head>",
    "<body>"]

/-- What stands below the body of a file. -/
def below (p : ComponentParts) : MarkupDialect → List String
  | .componentized => ["  );", "\x7d", ""]
  | .templated =>
    let attributes := if p.typescript then " lang=\"ts\"" else ""
    ["</template>", "", "<script setup" ++ attributes ++ ">", p.script, "</script>", p.styleBlock]
  | .static => ["</body>", "</html>", ""]

/-- The body of a file stands between two runs of lines in which it has no part, and is indented. -/
theorem file_withBody (p : ComponentParts) (d : MarkupDialect) (body : String) :
    file { p with body } d = joined (p.above d ++ Text.indent (bodyColumn d) body :: p.below d) := by
  cases d with
  | componentized => rfl
  | templated => rfl
  | static => rfl

end ComponentParts

namespace Element

/-- An element that takes over no line breaks and no blank texts is the same further right as pushed
right. So the file of a component, which indents a body that starts in the first column, is the file with
the element written where it stands. -/
theorem render_add {e : Element} (unbroken : ∀ h ∈ e.values, ∀ part ∈ h.texts, Unbroken part)
    (filled : ∀ h ∈ e.values, ∀ text ∈ h.text, Text.isBlankText text = false) (d : MarkupDialect) :
    (∀ column n, e.render d (column + n) = Text.indent n (e.render d column)) ∧
      ∀ p : ComponentParts, ComponentParts.file { p with body := e.render d 0 } d =
        ComponentParts.joined
          (p.above d ++ e.render d (ComponentParts.bodyColumn d) :: p.below d) := by
  have rows : ∀ h ∈ e.values, ∀ part ∈ h.texts, OneRow part :=
    fun h mem part here => (unbroken h mem part here).1
  have shifts (n : Nat) : ∀ text ∈ e.linedTexts, Shifts n text.toList := by
    intro text lined
    obtain ⟨h, mem, own⟩ := exists_of_mem_linedTexts lined
    exact ⟨(unbroken h mem text (ElementHead.mem_texts own)).2, .inr (filled h mem text own)⟩
  have moved (column n : Nat) : e.render d (column + n) = Text.indent n (e.render d column) :=
    (render_add_iff rows d column n).mpr (shifts n)
  refine ⟨moved, fun p => ?_⟩
  rw [ComponentParts.file_withBody, ← moved, Nat.zero_add]

/-- A teaser with texts between tags, a carriage return inside one of them, and signs that are escaped. -/
def teaser : Element :=
  .node { tag := "a", attributes := [.classRef (.names "teaser"), .role .link, .clickHandler] } [
    .leaf { tag := "img", attributes := [.source "assets/dusk.png", .alt "Boats < 5"] },
    .node { tag := "p", attributes := [.classRef (.binding "lead")], text := some "Harbour\rat \x7bdusk\x7d" } [
      .leaf { tag := "b", attributes := [], text := some " & more" }]]

/-- The component of that teaser. -/
def teaserParts : ComponentParts where
  name := "Teaser"
  body := ""
  props := []
  typescript := false
  style := .scopedModule
  stylesheet := ""
  isInteractive := true

/-- The teaser in the sixth column is the teaser in the second one, four columns further right, and the
file of its component has it in the fourth one. -/
theorem render_add_teaser :
    (∀ h ∈ teaser.values, ∀ part ∈ h.texts, Unbroken part) ∧
      (∀ h ∈ teaser.values, ∀ text ∈ h.text, Text.isBlankText text = false) ∧
      teaser.linedTexts = ["Harbour\rat \x7bdusk\x7d"] ∧
      teaser.render .componentized 6 = Text.indent 4 (teaser.render .componentized 2) ∧
      ComponentParts.file { teaserParts with body := teaser.render .componentized 0 } .componentized =
        ComponentParts.joined (teaserParts.above .componentized ++
          teaser.render .componentized 4 :: teaserParts.below .componentized) := by
  have unbroken : ∀ h ∈ teaser.values, ∀ part ∈ h.texts, Unbroken part := by decide +kernel
  have filled : ∀ h ∈ teaser.values, ∀ text ∈ h.text, Text.isBlankText text = false := by decide +kernel
  have laidOut := render_add unbroken filled .componentized
  exact ⟨unbroken, filled, rfl, laidOut.1 2 4, laidOut.2 teaserParts⟩

end Element
end Handoff

import Handoff.Element.Render
import Handoff.Text.Blank
import Mathlib.Tactic.SplitIfs
/-!
# How texts and attributes are spelled

An escape goes by a table: a character that stands in it is written by its spelling, every other one by
itself. So what holds of the spellings of a table and of the characters outside it holds of escaped
texts.

An attribute is spelled in one of three ways, whatever the dialect: a name with an escaped text of the
design in quotes, a name with a word in quotes, or a name with a word in braces. A word is not escaped.
It is a fixed one, or the name of a binding with a fixed lead. What is fixed has neither blanks nor
marks in it, so what has to be known of the spelling of an attribute is a question about escapes and
about names of bindings only.

Results:
* `Escape.encodes_attributeChar`, `Escape.encodes_textChar`: the tables of the two escapes.
* `Escape.all_attr`, `Escape.all_text`: the tests that an escaped text passes.
* `Attribute.spelling_render`: an attribute is spelled in one of the three ways.
* `Attribute.Word.forall_mem`: what holds of the characters of a word.
-/
namespace Handoff

/-! ## Escapes -/

namespace Escape

/-- Spellings with the characters that they stand for. -/
abbrev Codes := List (List Char × Char)

def entities : Codes :=
  [("&amp;".toList, '&'), ("&quot;".toList, '"'), ("&lt;".toList, '<'), ("&gt;".toList, '>')]

/-- What code and templates have for braces. -/
def braces : MarkupDialect → Codes
  | .componentized => [("\x7b'\x7b'\x7d".toList, '\x7b'), ("\x7b'\x7d'\x7d".toList, '\x7d')]
  | .templated => [("&#123;".toList, '\x7b'), ("&#125;".toList, '\x7d')]
  | .static => []

/-- What is written between tags. A quote needs no spelling there. -/
def writtenCodes (d : MarkupDialect) : Codes :=
  entities.filter (·.2 != '"') ++ braces d

/-- What is written for a character by a table: a spelling of it, or the character itself if the table
does not have it. -/
def Encodes (codes : Codes) (c : Char) (piece : List Char) : Prop :=
  (piece, c) ∈ codes ∨ piece = [c] ∧ c ∉ codes.map Prod.snd

theorem encodes_attributeChar (c : Char) : Encodes entities c (attributeChar c) := by
  unfold attributeChar
  split_ifs with amp quote low high
  · subst amp; exact .inl (by decide)
  · subst quote; exact .inl (by decide)
  · subst low; exact .inl (by decide)
  · subst high; exact .inl (by decide)
  · exact .inr ⟨rfl, by simp [entities, amp, quote, low, high]⟩

theorem encodes_textChar (d : MarkupDialect) (c : Char) : Encodes (writtenCodes d) c (textChar d c) := by
  unfold textChar
  split_ifs with amp low high opened closed
  · subst amp; exact .inl (List.mem_append_left _ (by decide))
  · subst low; exact .inl (List.mem_append_left _ (by decide))
  · subst high; exact .inl (List.mem_append_left _ (by decide))
  · subst opened
    cases d with
    | componentized => exact .inl (by decide)
    | templated => exact .inl (by decide)
    | static => exact .inr ⟨rfl, by decide⟩
  · subst closed
    cases d with
    | componentized => exact .inl (by decide)
    | templated => exact .inl (by decide)
    | static => exact .inr ⟨rfl, by decide⟩
  · refine .inr ⟨rfl, ?_⟩
    cases d <;> simp [writtenCodes, entities, braces, amp, low, high, opened, closed]

/-- A test that all spellings pass, and all characters without one, is passed by an escaped text. -/
theorem Encodes.all_flatMap {codes : Codes} {p : Char → Bool}
    (coded : ∀ code ∈ codes, code.1.all p = true) (plain : ∀ c, c ∉ codes.map Prod.snd → p c = true)
    {spell : Char → List Char} (encodes : ∀ c, Encodes codes c (spell c)) (cs : List Char) :
    (cs.flatMap spell).all p = true := by
  rw [List.all_flatMap, List.all_eq_true]
  intro c _
  rcases encodes c with known | ⟨single, unknown⟩
  · exact coded (spell c, c) known
  · rw [single, List.all_cons, List.all_nil, Bool.and_true]
    exact plain c unknown

theorem all_attr {p : Char → Bool} (coded : ∀ code ∈ entities, code.1.all p = true)
    (plain : ∀ c, c ∉ entities.map Prod.snd → p c = true) (s : String) :
    (attr s).toList.all p = true := by
  unfold attr
  rw [String.toList_ofList]
  exact Encodes.all_flatMap coded plain encodes_attributeChar s.toList

theorem all_text {d : MarkupDialect} {p : Char → Bool}
    (coded : ∀ code ∈ writtenCodes d, code.1.all p = true)
    (plain : ∀ c, c ∉ (writtenCodes d).map Prod.snd → p c = true) (s : String) :
    (text d s).toList.all p = true := by
  unfold text
  rw [String.toList_ofList]
  exact Encodes.all_flatMap coded plain (encodes_textChar d) s.toList

end Escape

/-! ## Attributes -/

namespace Attribute

/-- What an attribute takes over into its value; values that are always the same are not among it. -/
def values : Attribute → List String
  | .classRef (.names text) => [text]
  | .classRef (.binding name) => [name]
  | .alt text => [text]
  | .source path => [path]
  | .placeholder text => [text]
  | _ => []

theorem toList_quoted (name value : String) :
    (quoted name value).toList = name.toList ++ ['=', '"'] ++ value.toList ++ ['"'] := by
  unfold quoted
  simp only [String.toList_append]
  rfl

theorem toList_bound (name value : String) :
    (bound name value).toList = name.toList ++ ['=', '\x7b'] ++ value.toList ++ ['\x7d'] := by
  unfold bound
  simp only [String.toList_append]
  rfl

/-- Neither a blank nor a mark that ends a value, an attribute or a tag. -/
def isInert (c : Char) : Bool :=
  !Text.isBlank c && c != '"' && c != '<' && c != '>'

theorem isInert_iff {c : Char} :
    isInert c = true ↔ Text.isBlank c = false ∧ c ≠ '"' ∧ c ≠ '<' ∧ c ≠ '>' := by
  simp only [isInert, Bool.and_eq_true, Bool.not_eq_true', bne_iff_ne, and_assoc]

/-- What is written for every design alike. -/
def Fixed (text : String) : Prop := text.toList.all isInert = true

theorem Fixed.forall_mem {text : String} (fixed : Fixed text) {P : Char → Prop}
    (inert : ∀ c, isInert c = true → P c) : ∀ c ∈ text.toList, P c :=
  fun c hc => inert c (List.all_eq_true.mp fixed c hc)

/-- What an attribute writes as it is: a fixed text, or the name of a binding behind one. -/
inductive Word (a : Attribute) : String → Prop
  | fixed {text : String} (fixed : Fixed text) : Word a text
  | binding {lead name : String} (fixed : Fixed lead) (own : a = .classRef (.binding name)) :
      Word a (lead ++ name)

inductive Spelling (a : Attribute) : String → Prop
  | escaped {name value : String} (fixed : Fixed name) (own : value ∈ a.values) :
      Spelling a (quoted name (Escape.attr value))
  | quoted {name word : String} (fixed : Fixed name) (own : Word a word) :
      Spelling a (quoted name word)
  | bound {name word : String} (fixed : Fixed name) (own : Word a word) :
      Spelling a (bound name word)

theorem Word.forall_mem {a : Attribute} {text : String} (word : Word a text) {P : Char → Prop}
    (inert : ∀ c, isInert c = true → P c)
    (bindings : ∀ name, a = .classRef (.binding name) → ∀ c ∈ name.toList, P c) :
    ∀ c ∈ text.toList, P c := by
  cases word with
  | fixed fixed => exact fixed.forall_mem inert
  | binding fixed own =>
    rw [String.toList_append, List.forall_mem_append]
    exact ⟨fixed.forall_mem inert, bindings _ own⟩

theorem spelling_renderClass {ref : ClassRef} {d : MarkupDialect} {text : String}
    (rendered : renderClass ref d = some text) : (classRef ref).Spelling text := by
  cases ref with
  | none => cases rendered
  | names list =>
    have own : list ∈ (classRef (.names list)).values := List.mem_singleton_self list
    cases d <;> cases rendered
    · exact .escaped rfl own
    · exact .escaped rfl own
    · exact .escaped rfl own
  | binding name =>
    cases d <;> cases rendered
    · exact .bound rfl (.binding rfl rfl)
    · exact .quoted rfl (.binding rfl rfl)
    · -- here the name stands alone, behind an empty lead
      rw [← String.empty_append (s := name)]
      exact .quoted rfl (.binding rfl rfl)

theorem spelling_render {a : Attribute} {d : MarkupDialect} {text : String}
    (rendered : a.render d = some text) : a.Spelling text := by
  cases a with
  | classRef ref => exact spelling_renderClass rendered
  | role r => cases r <;> cases rendered <;> exact .quoted rfl (.fixed rfl)
  | focusable =>
    cases d <;> cases rendered
    · exact .bound rfl (.fixed rfl)
    · exact .quoted rfl (.fixed rfl)
    · exact .quoted rfl (.fixed rfl)
  | alt value | source value | placeholder value =>
    cases rendered
    exact .escaped rfl (List.mem_singleton_self value)
  | buttonType | lazyLoading | asyncDecoding => cases rendered; exact .quoted rfl (.fixed rfl)
  | clickHandler =>
    cases d <;> cases rendered
    · exact .bound rfl (.fixed rfl)
    · exact .quoted rfl (.fixed rfl)

end Attribute
end Handoff

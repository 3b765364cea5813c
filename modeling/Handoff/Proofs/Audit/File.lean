import Handoff.Proofs.Markup.Roles
import Handoff.Proofs.Text.Tagless
/-!
# The button role in component files

What the markup dialects put around a body holds tags too: those of a template or a document, and the
types in a script. None of them carries the role of a button. Most have no quote in them, which the
role needs; the others are fixed, except for the link to a stylesheet, which has the name of the
component in it.

The body is indented, which the search does not see.

Results:
* `ButtonRole.names_framed`: lines around a body do not count if nothing is found in them.
* `ComponentParts.names_file`: in a file, the search finds what it finds in the body.
-/
namespace Handoff
open Text (Tagless tagless_of_all tagless_append tagless_intercalate tagless_of_consists)
open ComponentParts (joined)

namespace ButtonRole
open Element (broken broken_cons broken_append)
open Markup (Bare bare_of_all)

/-! ## Texts without the role -/

/-- No tag of the text carries the role, whatever follows. -/
def Silent (s : String) : Prop := Finds s.toList []

theorem Silent.append {a b : String} (ha : Silent a) (hb : Silent b) : Silent (a ++ b) := by
  rw [Silent, String.toList_append]
  exact Finds.append ha hb

theorem silent_of_tagless {s : String} (h : Tagless s) : Silent s := finds_of_not_mem h

theorem silent_of_all {s : String} (h : (s.toList.all fun c => c != '<') = true) : Silent s :=
  silent_of_tagless (tagless_of_all h)

theorem silent_of_scan {s : String}
    (h : (Markup.scan none s.toList).map (·.filterMap nameIn?) = some []) : Silent s := by
  obtain ⟨tags, read, none⟩ := Option.map_eq_some_iff.mp h
  have found := finds_of_scan read
  rwa [none] at found

theorem silent_intercalate {separator : String} {parts : List String} (hs : Silent separator)
    (each : ∀ part ∈ parts, Silent part) : Silent (String.intercalate separator parts) :=
  Text.holds_intercalate (fun cs => Finds cs []) (fun _ => rfl) Finds.append hs each

theorem nameIn?_of_not_mem {tag : List Char} (bare : Bare tag) (h : '"' ∉ tag) : nameIn? tag = none := by
  cases tag with
  | nil => rfl
  | cons first rest =>
    have sub : rest.dropWhile isNameChar ⊆ first :: rest :=
      List.Subset.trans (List.dropWhile_sublist _).subset (List.subset_cons_self ..)
    have absent : behindAttr? (rest.dropWhile isNameChar) = none := by
      rw [← Option.not_isSome_iff_eq_none]
      intro found
      obtain ⟨c, -, spelled⟩ := (isSome_behindAttr?_iff fun mem => (bare _ (sub mem)).2 rfl).mp found
      have quote : '"' ∈ c :: attr := List.mem_cons_of_mem _ (by decide)
      exact h (sub (spelled.subset quote))
    rw [nameIn?, tagAt?_tag, absent]
    split <;> rfl

theorem silent_tag {tag : String} (bare : Bare tag.toList) (h : nameIn? tag.toList = none) :
    Silent ("<" ++ tag ++ ">") := by
  have found := finds_tag bare
  rw [h] at found
  rw [Silent, String.toList_append, String.toList_append]
  exact found

/-! ## Lines around a body -/

theorem toList_joined (line : String) (lines : List String) :
    (joined (line :: lines)).toList = line.toList ++ broken lines :=
  Element.toList_intercalate_lines line lines

/-- Between other lines, a text may be indented. -/
theorem names_indented (first : String) (before : List String) (n : Nat) (body next : String)
    (after : List String) :
    names (joined (first :: before ++ Text.indent n body :: next :: after)).toList =
      names (joined (first :: before ++ body :: next :: after)).toList := by
  have split (text : String) : (joined (first :: before ++ text :: next :: after)).toList =
      first.toList ++ broken before ++ '\n' :: (text.toList ++ '\n' :: (next.toList ++ broken after)) := by
    rw [List.cons_append, toList_joined, broken_append, broken_cons, broken_cons]
    simp
  have indented : (Text.indent n body).toList = Text.indentChars n body.toList := by
    rw [Text.indent, String.toList_ofList]
  rw [← names_squeeze, split, indented, Text.squeeze_append_congr Text.isGap_feed Text.isGap_feed
    (Text.squeeze_indentChars n body.toList _), ← split, names_squeeze]

theorem silent_broken {lines : List String} (each : ∀ line ∈ lines, Silent line) :
    Finds (broken lines) [] := by
  induction lines with
  | nil => exact fun _ => rfl
  | cons line lines ih =>
    have feed : Finds ['\n'] [] := finds_of_not_mem (by decide)
    rw [broken_cons]
    exact Finds.append (Finds.append feed (each line (List.mem_cons_self ..)))
      (ih fun l hl => each l (List.mem_cons_of_mem _ hl))

/-- Between lines in which nothing is found, the search finds what it finds in the body. -/
theorem names_framed {first : String} (before : List String) (n : Nat) {body next : String}
    (after : List String) (frame : ∀ line ∈ first :: before ++ next :: after, Silent line)
    {found : List (List Char)} (h : Finds body.toList found) :
    names (joined (first :: before ++ Text.indent n body :: next :: after)).toList = found := by
  have upper : Finds (first.toList ++ broken before) [] :=
    Finds.append (frame first (List.mem_cons_self ..)) <| silent_broken fun line hl =>
      frame line (List.mem_append_left _ (List.mem_cons_of_mem _ hl))
  have lower : Finds (broken (next :: after)) [] := silent_broken fun line hl =>
    frame line (List.mem_append_right _ hl)
  have feed : Finds ['\n'] [] := finds_of_not_mem (by decide)
  have whole := Finds.append upper (Finds.append (Finds.append feed h) lower)
  rw [names_indented, List.cons_append, toList_joined, broken_append, ← List.append_assoc, broken_cons]
  rw [List.append_nil] at whole
  exact whole.names_eq

end ButtonRole

open Markup (Bare bare_of_all)
open ButtonRole (Silent Finds names silent_of_tagless silent_of_all silent_of_scan silent_tag
  silent_intercalate names_framed Segment spaced solid_of_all nameIn? nameIn?_of_not_mem)
open ElementHead (bare_of_isAlphanum)

/-! ## Props -/

namespace PropSpec

theorem tagless_ofVerdict (v : Verdict) :
    ∀ prop ∈ ofVerdict v, Tagless prop.name ∧ Tagless prop.type := by
  intro prop hp
  unfold ofVerdict at hp
  dsimp only at hp
  rcases List.mem_append.mp hp with hp | hp
  · rcases List.mem_cons.mp hp with rfl | hp
    · exact ⟨tagless_of_all rfl, tagless_of_all rfl⟩
    · split at hp
      · rw [List.mem_singleton.mp hp]
        exact ⟨tagless_of_all rfl, tagless_of_all rfl⟩
      · cases hp
  · split at hp
    · simp only [List.mem_cons, List.not_mem_nil, or_false] at hp
      rcases hp with rfl | rfl <;> exact ⟨tagless_of_all rfl, tagless_of_all rfl⟩
    · simp only [List.mem_cons, List.not_mem_nil, or_false] at hp
      rcases hp with rfl | rfl | rfl <;> exact ⟨tagless_of_all rfl, tagless_of_all rfl⟩
    · cases hp

theorem tagless_interfaceText {component : String} (hc : Tagless component) {props : List PropSpec}
    (hp : ∀ prop ∈ props, Tagless prop.name ∧ Tagless prop.type) :
    Tagless (interfaceText component props) := by
  unfold interfaceText
  refine tagless_intercalate (tagless_of_all rfl) fun line hl => ?_
  simp only [List.mem_append, List.mem_cons, List.not_mem_nil, or_false, List.mem_map] at hl
  rcases hl with (rfl | ⟨prop, mem, rfl⟩) | rfl
  · exact tagless_append.mpr ⟨tagless_append.mpr ⟨tagless_of_all rfl, hc⟩, tagless_of_all rfl⟩
  · have margin : Tagless "  " := tagless_of_all rfl
    have colon : Tagless "?: " := tagless_of_all rfl
    have stop : Tagless ";" := tagless_of_all rfl
    obtain ⟨name, type⟩ := hp prop mem
    simp only [tagless_append]
    exact ⟨⟨⟨⟨margin, name⟩, colon⟩, type⟩, stop⟩
  · exact tagless_of_all rfl

end PropSpec

/-! ## Files -/

namespace ComponentParts

/-- The name is letters and digits, and no tag begins in the stylesheet and the props. -/
structure Clean (p : ComponentParts) : Prop where
  name : Consists Char.isAlphanum p.name.toList
  stylesheet : Tagless p.stylesheet
  props : ∀ prop ∈ p.props, Tagless prop.name ∧ Tagless prop.type

variable {p : ComponentParts}

theorem Clean.tagless_name (clean : p.Clean) : Tagless p.name :=
  tagless_of_consists clean.name rfl

theorem Clean.tagless_interface (clean : p.Clean) : Tagless (PropSpec.interfaceText p.name p.props) :=
  PropSpec.tagless_interfaceText clean.tagless_name clean.props

theorem tagless_imports (clean : p.Clean) : ∀ line ∈ p.imports, Tagless line := by
  have named {s t : String} (hs : Tagless s) (ht : Tagless t) : Tagless (s ++ p.name ++ t) :=
    tagless_append.mpr ⟨tagless_append.mpr ⟨hs, clean.tagless_name⟩, ht⟩
  intro line hl
  unfold imports at hl
  rcases List.mem_cons.mp hl with rfl | hl
  · exact tagless_of_all rfl
  · split at hl
    · cases hl
    · rw [List.mem_singleton.mp hl]
      exact named (tagless_of_all rfl) (tagless_of_all rfl)
    · rw [List.mem_singleton.mp hl]
      exact named (tagless_of_all rfl) (tagless_of_all rfl)
    · rw [List.mem_singleton.mp hl]
      exact tagless_of_all rfl

theorem tagless_preamble (clean : p.Clean) : Tagless p.preamble := by
  unfold preamble
  refine tagless_intercalate (tagless_of_all rfl) fun part hp => ?_
  rw [List.mem_append, List.mem_cons] at hp
  rcases hp with (rfl | wrapper) | types
  · exact tagless_intercalate (tagless_of_all rfl) (tagless_imports clean)
  · split at wrapper
    · rw [List.mem_singleton.mp wrapper]
      exact Text.tagless_trimEnd clean.stylesheet
    · cases wrapper
  · split at types
    · rw [List.mem_singleton.mp types]
      exact tagless_append.mpr ⟨tagless_of_all rfl, clean.tagless_interface⟩
    · cases types

theorem names_functionFile (clean : p.Clean) {found : List (List Char)}
    (body : Finds p.body.toList found) : names p.functionFile.toList = found := by
  have name := silent_of_tagless clean.tagless_name
  have parameters : Silent (if p.typescript then "props: " ++ p.propsType else "props") := by
    split
    · exact (silent_of_all rfl).append (name.append (silent_of_all rfl))
    · exact silent_of_all rfl
  have head : Silent ("export default function " ++ p.name ++ "(" ++
      (if p.typescript then "props: " ++ p.propsType else "props") ++ ") \x7b") :=
    ((((silent_of_all rfl).append name).append (silent_of_all rfl)).append parameters).append
      (silent_of_all rfl)
  refine names_framed ["", _, "  return ("] 4 ["\x7d", ""] ?_ body
  simp only [List.forall_mem_append, List.forall_mem_cons, List.not_mem_nil, false_imp_iff,
    implies_true, and_true]
  exact ⟨⟨silent_of_tagless (tagless_preamble clean), silent_of_all rfl, head, silent_of_all rfl⟩,
    silent_of_all rfl, silent_of_all rfl, silent_of_all rfl⟩

theorem silent_script (clean : p.Clean) : Silent p.script := by
  have type : Consists Char.isAlphanum p.propsType.toList := by
    rw [propsType, String.toList_append]
    exact Consists.append clean.name (consists_iff_all.mpr rfl)
  have bracketed : Silent ("<" ++ p.propsType ++ ">") := by
    have bare := bare_of_isAlphanum type
    exact silent_tag bare (nameIn?_of_not_mem bare fun mem => absurd (type _ mem) (by decide))
  unfold script
  refine silent_intercalate (silent_of_all rfl) fun line hl => ?_
  rcases List.mem_append.mp hl with declared | emitted
  · split at declared
    · simp only [List.mem_cons, List.not_mem_nil, or_false] at declared
      rcases declared with rfl | rfl | rfl
      · exact silent_of_tagless clean.tagless_interface
      · exact silent_of_all rfl
      · have whole : "defineProps<" ++ p.propsType ++ ">();" =
            "defineProps" ++ ("<" ++ p.propsType ++ ">") ++ "();" := by
          rw [← String.toList_inj]
          simp
        rw [whole]
        exact ((silent_of_all rfl).append bracketed).append (silent_of_all rfl)
    · rw [List.mem_singleton.mp declared]
      refine ((silent_of_all rfl).append ?_).append (silent_of_all rfl)
      refine silent_intercalate (silent_of_all rfl) fun name mem => ?_
      obtain ⟨prop, hp, rfl⟩ := List.mem_map.mp mem
      have own := silent_of_tagless (clean.props prop hp).1
      exact ((silent_of_all rfl).append own).append (silent_of_all rfl)
  · split_ifs at emitted
    · cases emitted
    · rw [List.mem_singleton.mp emitted]
      exact silent_of_scan rfl
    · rw [List.mem_singleton.mp emitted]
      exact silent_of_all rfl

theorem silent_styleBlock (clean : p.Clean) : Silent p.styleBlock := by
  have closing : Silent "</style>\n" := silent_of_scan rfl
  have sheet := silent_of_tagless clean.stylesheet
  unfold styleBlock
  cases p.style with
  | utility => exact silent_of_all rfl
  | cssInJs => exact silent_of_all rfl
  | plain =>
    dsimp only
    split
    · exact silent_of_all rfl
    · exact (Silent.append (silent_of_scan rfl) sheet).append closing
  | scopedModule =>
    dsimp only
    split
    · exact silent_of_all rfl
    · exact (Silent.append (silent_of_scan rfl) sheet).append closing

/-- In the file of a template, no tag of the template, the script and the styles has a role. -/
theorem names_templateFile (clean : p.Clean) {found : List (List Char)}
    (body : Finds p.body.toList found) : names p.templateFile.toList = found := by
  have opened : Silent ("<script setup" ++ (if p.typescript then " lang=\"ts\"" else "") ++ ">") := by
    split <;> exact silent_of_scan rfl
  refine names_framed [] 2 ["", _, p.script, "</script>", p.styleBlock] ?_ body
  simp only [List.forall_mem_append, List.forall_mem_cons, List.not_mem_nil, false_imp_iff,
    implies_true, and_true]
  exact ⟨silent_of_scan rfl, silent_of_scan rfl, silent_of_scan rfl, opened, silent_script clean,
    silent_of_scan rfl, silent_styleBlock clean⟩

/-- The attributes of the link to a stylesheet, which has the name of the component in it. -/
def linkSegments (p : ComponentParts) : List (List Char) :=
  [(Attribute.quoted "rel" "stylesheet").toList, (Attribute.quoted "href" (p.name ++ ".css")).toList]

theorem nameIn?_link (clean : p.Clean) {tag : List Char}
    (eq : tag = 'l' :: ['i', 'n', 'k'] ++ spaced p.linkSegments) (bare : Bare tag) :
    nameIn? tag = none := by
  have path : '"' ∉ (p.name ++ ".css").toList := by
    rw [String.toList_append, List.mem_append, not_or]
    exact ⟨fun mem => absurd (clean.name _ mem) (by decide), by decide⟩
  have each : ∀ s ∈ p.linkSegments, Segment s := by
    intro s hs
    simp only [linkSegments, List.mem_cons, List.not_mem_nil, or_false] at hs
    rcases hs with rfl | rfl
    · exact Attribute.segment_quoted (solid_of_all rfl) (by decide)
    · exact Attribute.segment_quoted (solid_of_all rfl) path
  have absent : ButtonRole.attr ∉ p.linkSegments := by
    simp only [linkSegments, List.mem_cons, List.not_mem_nil, or_false, not_or]
    exact ⟨by decide, (Attribute.toList_ne_attr (c := 'h') rfl (by decide) _).1.symm⟩
  have word : ∀ c ∈ ['i', 'n', 'k'], ButtonRole.isNameChar c = true := List.all_eq_true.mp rfl
  subst eq
  rw [ButtonRole.nameIn?_spaced rfl word each fun mem => (bare _ (List.mem_append_right _ mem)).2 rfl,
    if_neg absent]

theorem silent_styleLine (clean : p.Clean) : Silent p.styleLine := by
  have linked : Silent ("<link rel=\"stylesheet\" href=\"" ++ p.name ++ ".css\">") := by
    have tag : ("link rel=\"stylesheet\" href=\"" ++ p.name ++ ".css\"").toList =
        'l' :: ['i', 'n', 'k'] ++ spaced p.linkSegments := by
      simp [linkSegments, spaced, Attribute.quoted]
    have bare : Bare ("link rel=\"stylesheet\" href=\"" ++ p.name ++ ".css\"").toList := by
      rw [String.toList_append, String.toList_append]
      exact ((bare_of_all rfl).append (bare_of_isAlphanum clean.name)).append (bare_of_all rfl)
    have whole : "<link rel=\"stylesheet\" href=\"" ++ p.name ++ ".css\">" =
        "<" ++ ("link rel=\"stylesheet\" href=\"" ++ p.name ++ ".css\"") ++ ">" := by
      rw [← String.toList_inj]
      simp
    rw [whole]
    exact silent_tag bare (nameIn?_link clean tag bare)
  unfold styleLine
  split
  · exact silent_of_scan rfl
  · exact linked

theorem names_documentFile (clean : p.Clean) {found : List (List Char)}
    (body : Finds p.body.toList found) : names p.documentFile.toList = found := by
  have fixed {s : String} := silent_of_scan (s := s)
  have titled : Silent ("  <title>" ++ p.name ++ "</title>") :=
    (Silent.append (fixed rfl) (silent_of_tagless clean.tagless_name)).append (fixed rfl)
  have linked : Silent ("  " ++ p.styleLine) :=
    Silent.append (fixed rfl) (silent_styleLine clean)
  refine names_framed ["<html lang=\"en\">", "<head>", "  <meta charset=\"UTF-8\">", _, _, _, "</head>",
    "<body>"] 2 ["</html>", ""] ?_ body
  simp only [List.forall_mem_append, List.forall_mem_cons, List.not_mem_nil, false_imp_iff,
    implies_true, and_true]
  exact ⟨⟨fixed rfl, fixed rfl, fixed rfl, fixed rfl, fixed rfl, titled, linked, fixed rfl, fixed rfl⟩,
    fixed rfl, fixed rfl, fixed rfl⟩

/-- In a file, the search finds what it finds in the body. -/
theorem names_file (clean : p.Clean) {found : List (List Char)} (body : Finds p.body.toList found)
    (d : MarkupDialect) : names (p.file d).toList = found := by
  cases d with
  | componentized => exact names_functionFile clean body
  | templated => exact names_templateFile clean body
  | static => exact names_documentFile clean body

end ComponentParts
end Handoff

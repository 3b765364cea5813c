import Handoff.Element.Basic
import Handoff.Proofs.Tree
/-!
# Reading markup

`tagsIn` cuts the tags out of a text: what stands between an opening and a closing angle bracket. It
refuses a text in which angle brackets stand anywhere else. `readTree` reads tags from left to right
with a stack, and refuses a closing tag that does not match the innermost open one. It knows
nothing of elements and of how they are written.

Both are described by how they pass over a part of their input: `Scans` for a text whose tags are known,
`Reads` for tags whose trees are known. Parts can be put together.
-/
namespace Handoff.Markup

/-! ## From a text to tags -/

/-- Reads on inside a tag, whose text so far is given, or outside of tags. -/
def scan : Option (List Char) → List Char → Option (List (List Char))
  | none, [] => some []
  | some _, [] => none
  | none, c :: cs =>
    if c = '<' then scan (some []) cs else if c = '>' then none else scan none cs
  | some tag, c :: cs =>
    if c = '>' then (scan none cs).map (tag :: ·)
    else if c = '<' then none
    else scan (some (tag ++ [c])) cs

/-- The tags of a text without their brackets, if angle brackets only stand around tags. -/
def tagsIn (text : String) : Option (List (List Char)) := scan none text.toList

/-- No angle brackets. -/
def Bare (cs : List Char) : Prop := ∀ c ∈ cs, c ≠ '<' ∧ c ≠ '>'

theorem Bare.append {a b : List Char} (ha : Bare a) (hb : Bare b) : Bare (a ++ b) :=
  fun c hc => (List.mem_append.mp hc).elim (ha c) (hb c)

theorem bare_nil : Bare [] := fun _ hc => by cases hc

theorem Bare.cons {c : Char} {cs : List Char} (hc : c ≠ '<' ∧ c ≠ '>') (h : Bare cs) :
    Bare (c :: cs) := by
  intro d hd
  rcases List.mem_cons.mp hd with rfl | hd
  · exact hc
  · exact h d hd

theorem bare_of_all {cs : List Char} (h : (cs.all fun c => c != '<' && c != '>') = true) :
    Bare cs := by
  intro c hc
  have both := List.all_eq_true.mp h c hc
  rw [Bool.and_eq_true, bne_iff_ne, bne_iff_ne] at both
  exact both

theorem scan_inside {tag cs rest : List Char} (h : Bare cs) :
    scan (some tag) (cs ++ rest) = scan (some (tag ++ cs)) rest := by
  induction cs generalizing tag with
  | nil => rw [List.nil_append, List.append_nil]
  | cons c cs ih =>
    obtain ⟨low, high⟩ := h c (List.mem_cons_self ..)
    rw [List.cons_append, scan, if_neg high, if_neg low,
      ih fun d hd => h d (List.mem_cons_of_mem _ hd), List.append_assoc]
    rfl

/-- A part of a text holds these tags, whatever follows. -/
def Scans (text : List Char) (tags : List (List Char)) : Prop :=
  ∀ rest, scan none (text ++ rest) = (scan none rest).map (tags ++ ·)

theorem scans_bare {text : List Char} (h : Bare text) : Scans text [] := by
  intro rest
  induction text with
  | nil => simp
  | cons c cs ih =>
    obtain ⟨low, high⟩ := h c (List.mem_cons_self ..)
    rw [List.cons_append, scan, if_neg low, if_neg high]
    exact ih fun d hd => h d (List.mem_cons_of_mem _ hd)

theorem scans_tag {tag : List Char} (h : Bare tag) : Scans ('<' :: tag ++ ['>']) [tag] := by
  intro rest
  rw [List.append_assoc, List.cons_append, scan, if_pos rfl, scan_inside h, List.nil_append,
    List.singleton_append, scan, if_pos rfl]
  rfl

theorem Scans.append {a b : List Char} {s t : List (List Char)} (ha : Scans a s) (hb : Scans b t) :
    Scans (a ++ b) (s ++ t) := by
  intro rest
  rw [List.append_assoc, ha, hb]
  cases scan none rest with
  | none => rfl
  | some tags => simp

theorem Scans.tagsIn {text : String} {tags : List (List Char)} (h : Scans text.toList tags) :
    tagsIn text = some tags := by
  have whole := h []
  rw [List.append_nil] at whole
  rw [Markup.tagsIn, whole]
  simp [scan]

/-! ## From tags to trees -/

/-- What a tag does. -/
inductive Mark where
  | opening (tag : String)
  | closing (tag : String)
  /-- The element has no content and no closing tag. -/
  | single (tag : String)
deriving DecidableEq

/-- Whether a character may stand in the name of a tag. -/
def isTagChar (c : Char) : Bool :=
  c.isAlphanum || ['-', '_', '.', ':'].contains c

/-- A name of a tag: ASCII letters, digits and the marks that names allow, at least one. -/
def PlainName (tag : String) : Prop :=
  tag.toList ≠ [] ∧ ∀ c ∈ tag.toList, isTagChar c = true

instance (tag : String) : Decidable (PlainName tag) :=
  decidable_of_iff ((!tag.toList.isEmpty && tag.toList.all isTagChar) = true) <| by
    rw [Bool.and_eq_true, Bool.not_eq_true', List.isEmpty_eq_false_iff, List.all_eq_true]
    rfl

theorem isTagChar_of_isAlphanum {c : Char} (h : c.isAlphanum = true) : isTagChar c = true := by
  rw [isTagChar, h, Bool.true_or]

/-- The mark of a tag: a slash at its start closes an element, one at its end leaves it empty. -/
def markOf : List Char → Mark
  | '/' :: name => .closing (String.ofList name)
  | tag =>
    let name := String.ofList (tag.takeWhile isTagChar)
    if tag.getLast? = some '/' then .single name else .opening name

/-- The trees read so far inside the innermost open element, and around it the open elements from the
inside out, each with what stands before it. -/
structure Reading where
  trees : List (Tree String)
  stack : List (String × List (Tree String))

/-- Reads one mark. Elements that never have content stay closed. -/
def readMark (r : Reading) : Mark → Option Reading
  | .opening tag =>
    if Tag.isVoid tag then some { r with trees := r.trees ++ [.leaf tag] }
    else some ⟨[], (tag, r.trees) :: r.stack⟩
  | .single tag => some { r with trees := r.trees ++ [.leaf tag] }
  | .closing tag =>
    match r.stack with
    | [] => none
    | (opened, before) :: stack =>
      if opened = tag then some ⟨before ++ [.node tag r.trees], stack⟩ else none

/-- Reads marks from left to right. -/
def readMarks (r : Reading) : List Mark → Option Reading
  | [] => some r
  | m :: ms => (readMark r m).bind fun r => readMarks r ms

/-- The trees of a list of marks, if every closing tag matches and none stays open. -/
def readTree (marks : List Mark) : Option (List (Tree String)) :=
  match readMarks ⟨[], []⟩ marks with
  | some ⟨trees, []⟩ => some trees
  | _ => none

/-- Marks that are the tags of these trees, wherever they stand. -/
def Reads (marks : List Mark) (trees : List (Tree String)) : Prop :=
  ∀ before stack rest,
    readMarks ⟨before, stack⟩ (marks ++ rest) = readMarks ⟨before ++ trees, stack⟩ rest

theorem reads_nil : Reads [] [] := by
  intro before stack rest
  rw [List.append_nil]
  rfl

theorem Reads.append {a b : List Mark} {s t : List (Tree String)} (ha : Reads a s)
    (hb : Reads b t) : Reads (a ++ b) (s ++ t) := by
  intro before stack rest
  rw [List.append_assoc, ha, hb, List.append_assoc]

theorem reads_single (tag : String) : Reads [.single tag] [.leaf tag] :=
  fun _ _ _ => rfl

theorem reads_void {tag : String} (h : Tag.isVoid tag = true) : Reads [.opening tag] [.leaf tag] := by
  intro before stack rest
  rw [List.singleton_append, readMarks, readMark, if_pos h]
  rfl

theorem reads_element {tag : String} (h : Tag.isVoid tag = false) {inner : List Mark}
    {trees : List (Tree String)} (hi : Reads inner trees) :
    Reads (.opening tag :: inner ++ [.closing tag]) [.node tag trees] := by
  intro before stack rest
  rw [List.append_assoc, List.cons_append, readMarks, readMark, if_neg (by rw [h]; decide),
    Option.bind_some, hi, List.nil_append, List.singleton_append, readMarks, readMark]
  dsimp only
  rw [if_pos rfl]
  rfl

theorem Reads.readTree {marks : List Mark} {trees : List (Tree String)} (h : Reads marks trees) :
    readTree marks = some trees := by
  have whole := h [] [] []
  rw [List.append_nil, List.nil_append] at whole
  rw [Markup.readTree, whole]
  rfl

/-- Markup whose angle brackets only stand around these tags, and whose tags, read from left to right
with a stack, are this tree and nothing else. -/
structure WellNested (text : String) (written : List (List Char)) (tree : Tree String) : Prop where
  tags : tagsIn text = some written
  read : readTree (written.map markOf) = some [tree]

end Handoff.Markup

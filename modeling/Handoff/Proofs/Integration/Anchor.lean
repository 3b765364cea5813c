import Handoff.Integration.Anchor
import Handoff.Proofs.Text.Rows
import Mathlib.Data.List.TakeWhile
/-!
# Where anchors are found

A search may stop early: what comes first in the text need not be the line that the text was written
with. It stops at that line or in front of it, though (`searchFrom_of_place`), and a tag is closed by
the first `>`, so what is left behind the anchor still ends with all that follows the line.
`Opens start line` says this of a recogniser and a line; `Opens.search` then finds an anchor in every
text in which the line stands, and the lines after it stand behind the anchor.
-/
namespace Handoff.Anchor

open Text (EndsRow BeginsRow Stand)
open scoped List

/-! ## Searching -/

theorem searchFrom_some {start : Start} {lineBegins : Bool} {text before after : List Char}
    (h : searchFrom start lineBegins text = some (before, after)) :
    ∃ lead found rest begins, start begins rest = some (found, after) ∧ text = lead ++ rest ∧
      before = lead ++ found := by
  induction text generalizing lineBegins before with
  | nil => exact ⟨[], before, [], lineBegins, h, rfl, rfl⟩
  | cons c rest ih =>
    unfold searchFrom at h
    split at h
    · next found e => exact ⟨[], before, c :: rest, lineBegins, e.trans h, rfl, rfl⟩
    · obtain ⟨⟨front, _⟩, later, same⟩ := Option.map_eq_some_iff.mp h
      cases same
      obtain ⟨lead, found, rest, begins, recognised, rfl, rfl⟩ := ih later
      exact ⟨c :: lead, found, rest, begins, recognised, rfl, rfl⟩

def beginsBehind (lineBegins : Bool) (before : List Char) : Bool :=
  before.getLast?.elim lineBegins (· == '\n')

theorem beginsBehind_cons (lineBegins : Bool) (c : Char) (before : List Char) :
    beginsBehind lineBegins (c :: before) = beginsBehind (c == '\n') before := by
  unfold beginsBehind
  rw [List.getLast?_cons]
  cases before.getLast? <;> rfl

theorem beginsBehind_of_beginsRow {before : List Char} (h : BeginsRow before) :
    beginsBehind true before = true := by
  rcases h with rfl | ⟨front, rfl⟩
  · rfl
  · simp [beginsBehind]

/-- Where something is recognised behind `before`, a search stops there or in front of it. -/
theorem searchFrom_of_place {start : Start} {lineBegins : Bool} {before rest : List Char}
    {split : Split} (h : start (beginsBehind lineBegins before) rest = some split) :
    ∃ skipped begins lead found after, start begins (skipped ++ rest) = some (found, after) ∧
      searchFrom start lineBegins (before ++ rest) = some (lead, after) := by
  induction before generalizing lineBegins with
  | nil =>
    refine ⟨[], lineBegins, split.1, split.1, split.2, h, ?_⟩
    rw [List.nil_append]
    cases rest with
    | nil => exact h
    | cons c rest =>
      unfold searchFrom
      rw [show start lineBegins (c :: rest) = some split from h]
  | cons c before ih =>
    rw [beginsBehind_cons] at h
    obtain ⟨skipped, begins, lead, found, after, recognised, later⟩ := ih h
    rw [List.cons_append]
    unfold searchFrom
    -- An anchor in front of the place may reach over it: all of `before` is skipped then.
    cases here : start lineBegins (c :: (before ++ rest)) with
    | some first => exact ⟨c :: before, lineBegins, first.1, first.1, first.2, here, rfl⟩
    | none =>
      refine ⟨skipped, begins, c :: lead, found, after, recognised, ?_⟩
      rw [later]
      rfl

/-! ## Lines that open something -/

/-- A recogniser knows the line when it stands in a row of its own. -/
def Knows (start : Start) (line : String) : Prop :=
  ∀ rest, EndsRow rest → ∃ split, start true (line.toList ++ rest) = some split

/-- A recogniser knows the line, and where it begins in front of it, it does not read beyond it. -/
structure Opens (start : Start) (line : String) : Prop where
  knows : Knows start line
  stops : ∀ {begins skipped rest found after}, EndsRow rest →
    start begins (skipped ++ (line.toList ++ rest)) = some (found, after) → rest <:+ after

variable {start : Start} {line : String} {lines : List String} {text : List Char}

theorem Knows.search (knows : Knows start line) (h : Stand [line] text) :
    ∃ split, search start text = some split := by
  obtain ⟨before, rest, rfl, begins, ends, -⟩ := h.place
  obtain ⟨split, here⟩ := knows rest ends
  rw [← beginsBehind_of_beginsRow begins] at here
  obtain ⟨_, _, lead, _, after, _, first⟩ := searchFrom_of_place here
  exact ⟨(lead, after), first⟩

/-- The lines after one that opens something stand behind the anchor that is found, whatever is put
in there. -/
theorem Opens.search (opens : Opens start line) (h : Stand (line :: lines) text) :
    ∃ before after, search start text = some (before, after) ∧
      ∀ tail, after <:+ tail → Stand lines tail := by
  obtain ⟨before, rest, rfl, begins, ends, behind⟩ := h.place
  obtain ⟨split, here⟩ := opens.knows rest ends
  rw [← beginsBehind_of_beginsRow begins] at here
  obtain ⟨skipped, _, lead, found, after, recognised, first⟩ := searchFrom_of_place here
  -- What was recognised in front of the line ends within it, so all that follows is left.
  have kept : rest <:+ after := opens.stops ends recognised
  exact ⟨lead, after, first, fun tail h => behind tail (kept.trans h)⟩

/-! ## Parts of recognisers -/

theorem behind?_append (what rest : List Char) :
    behind? what (what ++ rest) = some (what, rest) := by
  unfold behind?
  rw [if_pos (List.isPrefixOf_iff_prefix.mpr (List.prefix_append what rest)), List.drop_left]

theorem run_append (p : Char → Bool) (front : List Char) {rest : List Char}
    (all : ∀ c ∈ front, p c = true) (stop : ∀ c ∈ rest.head?, p c = false) :
    run p (front ++ rest) = (front, rest) := by
  unfold run
  rw [List.takeWhile_append_of_pos all, List.dropWhile_append_of_pos all]
  cases rest with
  | nil => simp
  | cons c rest => simp [stop c rfl]

theorem suffix_behind_first {mark : Char} (front before : List Char) {after rest : List Char}
    (first : mark ∉ front) (h : front ++ mark :: after = before ++ mark :: rest) :
    rest <:+ after := by
  rcases List.append_eq_append_iff.mp h with ⟨gap, rfl, same⟩ | ⟨gap, rfl, same⟩
  · cases gap with
    | nil =>
      cases same
      exact List.suffix_refl _
    | cons c gap =>
      cases same
      exact ⟨gap ++ [mark], by simp⟩
  · cases gap with
    | nil =>
      cases same
      exact List.suffix_refl _
    | cons c gap =>
      obtain ⟨rfl, -⟩ := List.cons.inj same
      simp at first

theorem andThen_some {first : Option Split} {next : List Char → Option Split}
    {before after : List Char} (h : andThen first next = some (before, after)) :
    ∃ front rest more, first = some (front, rest) ∧ next rest = some (more, after) ∧
      before = front ++ more := by
  unfold andThen at h
  split at h
  · cases h
  · next front rest =>
    obtain ⟨⟨more, _⟩, found, same⟩ := Option.map_eq_some_iff.mp h
    cases same
    exact ⟨front, rest, more, rfl, found, rfl⟩

theorem behind?_some {what text before after : List Char}
    (h : behind? what text = some (before, after)) : before = what ∧ text = what ++ after := by
  have whole := behind?_eq h
  unfold behind? at h
  split at h
  · cases h
    exact ⟨rfl, whole⟩
  · cases h

theorem tagStart_some {opening text found after : List Char}
    (h : tagStart opening text = some (found, after)) :
    ∃ inner, found = opening ++ inner ++ ['>'] ∧ text = opening ++ inner ++ '>' :: after ∧
      '>' ∉ inner := by
  obtain ⟨_, rest, _, opened, closed, rfl⟩ := andThen_some h
  obtain ⟨_, inside, _, begun, passed, rfl⟩ := andThen_some opened
  cases passed
  obtain ⟨rfl, closing⟩ := behind?_some closed
  obtain ⟨rfl, rfl⟩ := behind?_some begun
  refine ⟨inside.takeWhile (· != '>'), rfl, ?_, fun mem => ?_⟩
  · rw [List.append_assoc, ← List.singleton_append, ← closing]
    congr 1
    exact run_eq _ inside
  · simpa using List.mem_takeWhile_imp mem

theorem tagStart_append (opening : List Char) {inner : List Char} (plain : '>' ∉ inner)
    (rest : List Char) :
    tagStart opening (opening ++ inner ++ '>' :: rest) = some (opening ++ inner ++ ['>'], rest) := by
  unfold tagStart
  rw [List.append_assoc, behind?_append, andThen, run_append _ inner (by grind) (by simp)]
  simp [andThen, behind?]

theorem suffix_dropWhile_isGap {text rest : List Char} (h : rest <:+ text) (ends : EndsRow rest) :
    rest <:+ text.dropWhile isGap := by
  obtain ⟨front, rfl⟩ := h
  induction front with
  | nil => rcases ends with rfl | ⟨more, rfl⟩ <;> simp [isGap]
  | cons c front ih =>
    rw [List.cons_append, List.dropWhile_cons]
    split
    · exact ih
    · exact ⟨c :: front, rfl⟩

theorem endsRow_of_atLineEnd {text : List Char} (h : atLineEnd text = true) : EndsRow text := by
  cases text with
  | nil => exact .inl rfl
  | cons c rest =>
    obtain rfl : c = '\n' := by simpa [atLineEnd] using h
    exact .inr ⟨rest, rfl⟩

/-! ## The recognisers -/

theorem opens_templateStart : Opens templateStart "<template>" where
  knows rest _ := ⟨_, behind?_append _ rest⟩
  stops {begins skipped rest found after} _ h := by
    obtain ⟨-, text⟩ := behind?_some h
    have first : '>' ∉ "<template".toList := by decide
    exact suffix_behind_first _ (skipped ++ "<template".toList) first (by simpa using text.symm)

theorem tagStart_stops {opening : List Char} (plain : '>' ∉ opening) (inner : List Char)
    {skipped rest found after : List Char}
    (h : tagStart opening (skipped ++ (opening ++ inner ++ '>' :: rest)) = some (found, after)) :
    rest <:+ after := by
  obtain ⟨front, -, text, free⟩ := tagStart_some h
  rw [← List.append_assoc skipped] at text
  exact suffix_behind_first _ _ (by simp [plain, free]) text.symm

theorem opens_bodyStart : Opens bodyStart "<body>" where
  knows rest _ := ⟨_, tagStart_append "<body".toList List.not_mem_nil rest⟩
  stops {begins skipped rest found after} _ h :=
    tagStart_stops (by decide) [] h

theorem scriptStart_some {begins : Bool} {text found after : List Char}
    (h : scriptStart begins text = some (found, after)) :
    ∃ tag rest, tagStart "<script".toList text = some (tag, rest) ∧ after = rest.dropWhile isGap ∧
      found = tag ++ rest.takeWhile isGap ∧ EndsRow after := by
  unfold scriptStart at h
  split at h
  · obtain ⟨tag, rest, _, opened, passed, rfl⟩ := andThen_some h
    dsimp only at passed
    split at passed
    · next ends =>
      cases passed
      exact ⟨tag, rest, opened, rfl, rfl, endsRow_of_atLineEnd ends⟩
    · cases passed
  · cases h

theorem opens_scriptStart {inner : String} (plain : '>' ∉ inner.toList) :
    Opens scriptStart ("<script" ++ inner ++ ">") where
  knows rest ends := by
    have text : ("<script" ++ inner ++ ">").toList ++ rest =
        "<script".toList ++ inner.toList ++ '>' :: rest := by simp
    have passed : run isGap rest = ([], rest) :=
      run_append isGap [] (by simp) (by rcases ends with rfl | ⟨more, rfl⟩ <;> simp [isGap])
    have closed : atLineEnd rest = true := by rcases ends with rfl | ⟨more, rfl⟩ <;> rfl
    refine ⟨("<script".toList ++ inner.toList ++ ['>'], rest), ?_⟩
    unfold scriptStart
    rw [if_pos rfl, text, tagStart_append _ plain]
    simp [andThen, passed, closed]
  stops {begins skipped rest found after} ends h := by
    obtain ⟨tag, more, opened, rfl, -, -⟩ := scriptStart_some h
    refine suffix_dropWhile_isGap ?_ ends
    have outside : '>' ∉ "<script".toList := by decide
    exact tagStart_stops outside inner.toList (by simpa using opened)

theorem knows_functionStart {name parameters : String} (named : name.toList ≠ [])
    (isWord : ∀ c ∈ name.toList, Text.isWord c = true) (plain : ')' ∉ parameters.toList) :
    Knows functionStart ("export default function " ++ name ++ "(" ++ parameters ++ ") \x7b") := by
  intro rest _
  have text : ("export default function " ++ name ++ "(" ++ parameters ++ ") \x7b").toList ++ rest =
      "export default function ".toList ++ (name.toList ++ ('(' :: (parameters.toList ++
        (')' :: ' ' :: '\x7b' :: rest)))) := by simp
  have word (more : List Char) : run Text.isWord (name.toList ++ '(' :: more) =
      (name.toList, '(' :: more) :=
    run_append _ _ isWord (by rintro c ⟨⟩; decide)
  have given : run (· != ')') (parameters.toList ++ ')' :: ' ' :: '\x7b' :: rest) =
      (parameters.toList, ')' :: ' ' :: '\x7b' :: rest) :=
    run_append _ _ (by grind) (by simp)
  have gap : run Text.isBlank (' ' :: '\x7b' :: rest) = ([' '], '\x7b' :: rest) :=
    run_append Text.isBlank [' '] (by simp [Text.isBlank]) (by rintro c ⟨⟩; decide)
  have one (c : Char) (more : List Char) : behind? [c] (c :: more) = some ([c], more) :=
    behind?_append [c] more
  refine Option.isSome_iff_exists.mp ?_
  rw [text]
  unfold functionStart
  simp only [behind?_append, andThen, word, given, gap, one, List.isEmpty_iff, named, if_false,
    Option.map_some, Option.isSome_some]

/-! ## Anchors at the end of a row -/

/-- A recogniser splits the text at the end of a row. -/
structure EndsRows (start : Start) : Prop where
  sound : start.Sound
  ends : ∀ begins text found after, start begins text = some (found, after) → EndsRow after

theorem EndsRows.search (endsRows : EndsRows start) {before after : List Char}
    (h : search start text = some (before, after)) : text = before ++ after ∧ EndsRow after := by
  obtain ⟨_, found, rest, begins, recognised, -, -⟩ := searchFrom_some h
  exact ⟨search_eq endsRows.sound h, endsRows.ends begins rest found after recognised⟩

theorem endsRows_scriptStart : EndsRows scriptStart where
  sound begins text found after h := by
    obtain ⟨tag, rest, opened, rfl, rfl, -⟩ := scriptStart_some h
    obtain ⟨inner, rfl, rfl, -⟩ := tagStart_some opened
    simp
  ends begins text found after h := by
    obtain ⟨_, _, _, _, _, ends⟩ := scriptStart_some h
    exact ends

theorem run_some {p : Char → Bool} {text before after : List Char}
    (h : some (run p text) = some (before, after)) : text = before ++ after := by
  obtain ⟨rfl, rfl⟩ := Prod.mk.inj (Option.some.inj h)
  exact run_eq p text

theorem sound_functionStart : functionStart.Sound := by
  intro _ text before after h
  unfold functionStart at h
  refine andThen_eq (fun _ _ => andThen_eq (fun _ _ => andThen_eq (fun _ _ => andThen_eq
    (fun _ _ => andThen_eq (fun _ _ => andThen_eq (fun _ _ => behind?_eq) ?_)
      fun _ _ _ => behind?_eq) fun _ _ _ => run_some) fun _ _ _ => behind?_eq)
    fun _ _ _ => run_some) (fun _ _ _ => behind?_eq) h
  -- The name must not be empty.
  intro rest name after h
  dsimp only at h
  split at h
  · cases h
  · exact run_some h

theorem sound_openingStart (dialect : MarkupDialect) : (openingStart dialect).Sound := by
  cases dialect with
  | componentized => exact sound_functionStart
  | templated => exact fun _ _ _ _ => behind?_eq
  | static =>
    intro _ text before after h
    obtain ⟨inner, rfl, rfl, -⟩ := tagStart_some h
    simp

theorem importStart_some {begins : Bool} {text found after : List Char}
    (h : importStart begins text = some (found, after)) : run (· != '\n') text = (found, after) := by
  unfold importStart at h
  split at h
  · dsimp only at h
    split at h
    · split at h
      · cases h
        rfl
      · cases h
    · cases h
  · cases h

theorem endsRows_importStart : EndsRows importStart where
  sound begins text found after h := by
    have whole := run_eq (· != '\n') text
    rwa [importStart_some h] at whole
  ends begins text found after h := by
    obtain ⟨-, rfl⟩ := Prod.mk.inj (importStart_some h)
    cases rest : text.dropWhile (· != '\n') with
    | nil => exact .inl rfl
    | cons c more =>
      have stop := List.head?_dropWhile_not (· != '\n') text
      rw [rest] at stop
      obtain rfl : c = '\n' := by simpa using stop
      exact .inr ⟨more, rfl⟩

end Handoff.Anchor

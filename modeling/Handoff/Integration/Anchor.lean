import Handoff.Audit.ButtonRole
import Handoff.Dialect
import Handoff.Text.Search
/-!
# Anchors

An anchor is a place in a markup text where code can be put: behind the opening of the component's
body, behind the import of its framework, behind the opening of its script. Each search gives the
text split there. `start?` recognises what stands at one place and says how much of it belongs to
the anchor; `search` tries the places from left to right.

Results: `search_eq` (a split loses nothing).
-/
namespace Handoff.Anchor

/-- A text split at a place. -/
abbrev Split := List Char × List Char

/-- What a place begins with, split behind it, if it is what is looked for. The first argument says
whether a line begins there. -/
abbrev Start := (lineBegins : Bool) → List Char → Option Split

/-- The text split behind the first place where `start` finds what it looks for. -/
def searchFrom (start : Start) (lineBegins : Bool) : List Char → Option Split
  | [] => start lineBegins []
  | c :: rest =>
    match start lineBegins (c :: rest) with
    | some found => some found
    | none => (searchFrom start (c == '\n') rest).map fun (before, after) => (c :: before, after)

/-- The text split behind the first place where `start` finds what it looks for. -/
def search (start : Start) (text : List Char) : Option Split :=
  searchFrom start true text

/-- The rest of a text behind what it begins with. -/
def behind? (what : List Char) (text : List Char) : Option Split :=
  if what.isPrefixOf text then some (what, text.drop what.length) else none

/-- Goes on behind a split. -/
def andThen (first : Option Split) (next : List Char → Option Split) : Option Split :=
  match first with
  | none => none
  | some (before, rest) => (next rest).map fun (more, after) => (before ++ more, after)

def run (p : Char → Bool) (text : List Char) : Split :=
  (text.takeWhile p, text.dropWhile p)

/-- The text behind a function's opening brace: `export default function Name(...) {`. -/
def functionStart : Start := fun _ text =>
  let head := andThen (behind? "export default function ".toList text) fun rest =>
    let (name, after) := run Text.isWord rest
    if name.isEmpty then none else some (name, after)
  let parameters := andThen (andThen head (behind? ['('])) fun rest => some (run (· != ')') rest)
  let closed := andThen (andThen parameters (behind? [')'])) fun rest => some (run Text.isBlank rest)
  andThen closed (behind? ['\x7b'])

def templateStart : Start := fun _ text =>
  behind? "<template>".toList text

/-- An opening tag that begins with these characters, up to where it is closed. -/
def tagStart (opening : List Char) (text : List Char) : Option Split :=
  andThen (andThen (behind? opening text) fun rest => some (run (· != '>') rest)) (behind? ['>'])

def bodyStart : Start := fun _ text =>
  tagStart "<body".toList text

/-- Whether a character is a space or a tab. -/
def isGap (c : Char) : Bool :=
  c == ' ' || c == '\t'

def atLineEnd (text : List Char) : Bool :=
  text.isEmpty || text.head? == some '\n'

/-- The opening tag of a script that stands on a line of its own. -/
def scriptStart : Start := fun lineBegins text =>
  if lineBegins then
    andThen (tagStart "<script".toList text) fun rest =>
      let (gap, after) := run isGap rest
      if atLineEnd after then some (gap, after) else none
  else none

def frameworks : List (List Char) := ["react".toList, "vue".toList]

/-- Whether a text is a quoted framework, perhaps with a semicolon and gaps behind it. -/
def isFrameworkEnd (text : List Char) : Bool :=
  match text with
  | quote :: rest =>
    (quote == '\x27' || quote == '"') && frameworks.any fun name =>
      name.isPrefixOf rest &&
        match rest.drop name.length with
        | closing :: after =>
          (closing == '\x27' || closing == '"') &&
            (if after.head? == some ';' then after.drop 1 else after).all isGap
        | [] => false
  | [] => false

/-- Whether ` from ` and a framework end a line. -/
def endsWithFramework : List Char → Bool
  | [] => false
  | c :: rest =>
    (match behind? " from ".toList (c :: rest) with
      | some (_, after) => isFrameworkEnd after
      | none => false) || endsWithFramework rest

/-- A line that imports a framework. -/
def importStart : Start := fun lineBegins text =>
  if lineBegins then
    let (line, after) := run (· != '\n') text
    match behind? "import ".toList line with
    | some (_, rest) => if endsWithFramework rest then some (line, after) else none
    | none => none
  else none

/-- The opening of a component's body. -/
def openingStart : MarkupDialect → Start
  | .componentized => functionStart
  | .templated => templateStart
  | .static => bodyStart

/-! ## Splits lose nothing -/

/-- What a recogniser splits is the text it was given. -/
def Start.Sound (start : Start) : Prop :=
  ∀ lineBegins text before after, start lineBegins text = some (before, after) →
    text = before ++ after

theorem behind?_eq {what text before after : List Char}
    (h : behind? what text = some (before, after)) : text = before ++ after := by
  unfold behind? at h
  split at h
  · next e =>
    cases h
    obtain ⟨t, rfl⟩ := List.isPrefixOf_iff_prefix.mp e
    simp
  · cases h

theorem andThen_eq {first : Option Split} {next : List Char → Option Split}
    {text before after : List Char}
    (sound : ∀ b a, first = some (b, a) → text = b ++ a)
    (sound' : ∀ rest b a, next rest = some (b, a) → rest = b ++ a)
    (h : andThen first next = some (before, after)) : text = before ++ after := by
  unfold andThen at h
  split at h
  · cases h
  · next b rest =>
    obtain ⟨⟨m, a⟩, hn, e⟩ := Option.map_eq_some_iff.mp h
    cases e
    rw [sound b rest rfl, sound' rest m after hn, List.append_assoc]

theorem run_eq (p : Char → Bool) (text : List Char) :
    text = (run p text).1 ++ (run p text).2 :=
  List.takeWhile_append_dropWhile.symm

theorem searchFrom_eq {start : Start} (sound : start.Sound) {lineBegins : Bool}
    {text before after : List Char}
    (h : searchFrom start lineBegins text = some (before, after)) : text = before ++ after := by
  induction text generalizing lineBegins before after with
  | nil => exact sound _ _ _ _ h
  | cons c rest ih =>
    unfold searchFrom at h
    split at h
    · next found e => cases h; exact sound _ _ _ _ e
    · obtain ⟨⟨b, a⟩, hs, e⟩ := Option.map_eq_some_iff.mp h
      cases e
      rw [ih hs]
      rfl

/-- A search splits the text it is given. -/
theorem search_eq {start : Start} (sound : start.Sound) {text before after : List Char}
    (h : search start text = some (before, after)) : text = before ++ after :=
  searchFrom_eq sound h

end Handoff.Anchor

import Handoff.Keyed
import Handoff.Template.Place
import Handoff.Text.Blank
/-!
# Reading and filling in templates

A place stands between double or triple braces, which mean the same: what is filled in is code, so
nothing is escaped. A field that is missing leaves its place empty; a helper, on the other hand, may
insist on its arguments.

A backslash before braces takes their meaning away. After two or more backslashes the braces mean
what they always do, and one of the backslashes is dropped.
-/
namespace Handoff.Template

/-! ## Reading -/

def opening : List Char := ['\x7b', '\x7b']

/-- The text up to the next place, and what stands behind the braces that open it. The first
`plain` characters are text whatever they are. -/
def cut (plain : Nat) : List Char → List Char × Option (List Char)
  | [] => ([], none)
  | c :: rest =>
    match plain with
    | plain + 1 =>
      let (text, opened) := cut plain rest
      (c :: text, opened)
    | 0 =>
      if opening.isPrefixOf (c :: rest) then ([], some (rest.drop 1))
      else if c == '\\' && opening.isPrefixOf rest then
        cut (if (opening ++ opening).isPrefixOf rest then 4 else 2) rest
      else if c == '\\' && opening.isPrefixOf (rest.dropWhile (· == '\\')) then
        (rest.takeWhile (· == '\\'), some ((rest.dropWhile (· == '\\')).drop 2))
      else
        let (text, opened) := cut 0 rest
        (c :: text, opened)

def textPiece (cs : List Char) : Template :=
  if cs.isEmpty then [] else [.text cs]

/-- The pieces of a template's text, with `none` where a place is not closed or not understood.
`trims` drops the white space that the text starts with. There are fewer than `bound` places. -/
def pieces : Nat → (trims : Bool) → List Char → Option Template
  | 0, _, _ => none
  | bound + 1, trims, cs =>
    let (before, opened) := cut 0 cs
    let before := if trims then before.dropWhile Text.isBlank else before
    match opened with
    | none => some (textPiece before)
    | some opened => do
      let (place, rest) ← place? opened
      let before := if place.trimsBefore then Text.dropBlankEnd before else before
      return textPiece before ++ .place place.shown :: (← pieces bound place.trimsAfter rest)

/-- Reads a template. -/
def ofText (source : String) : Except TemplateFault Template :=
  match pieces (source.length + 1) false source.toList with
  | some t => .ok t
  | none => .error .malformed

/-! ## Filling in -/

/-- The text that a value leaves in a place. -/
def shown : Json → String
  | .null => ""
  | .boolean b => if b then "true" else "false"
  | .number n => String.ofList n.chars
  | .string s => s
  | .array items => "[" ++ String.intercalate ", " (allShown items) ++ "]"
  | .object _ => "[object]"
where
  allShown : List Json → List String
    | [] => []
    | v :: vs => shown v :: allShown vs

/-- The place in a list that a name stands for. -/
def index? (name : String) : Option Nat :=
  let cs := match name.toList with
    | '+' :: cs => cs
    | cs => cs
  let n := Nat.ofDigitChars 10 cs 0
  if !cs.isEmpty && cs.all Char.isDigit && n < UInt64.size then some n else none

/-- What a path leads to, if it leads anywhere. -/
def lookUp (data : Json) : List String → Except TemplateFault (Option Json)
  | [] => .ok (some data)
  | name :: path =>
    let step : Except TemplateFault (Option Json) := match data with
      | .array items =>
        match index? name with
        | some i => .ok items[i]?
        | none => .error (.badIndex name)
      | data => .ok (data.member? name)
    match step with
    | .ok (some v) => lookUp v path
    | other => other

/-- The value of what a place shows; what is missing is `null`. -/
def value (data : Json) : TemplateValue → Except TemplateFault Json
  | .field path => (·.getD .null) <$> lookUp data path
  | .unbound => .ok .null
  | .literal v => .ok v
  | .call helper arguments options => do
    let values ← values arguments
    checkOptions options
    match helperValue? helper values with
    | some v => return v
    | none => throw (.badCall helper)
where
  values : List TemplateValue → Except TemplateFault (List Json)
    | [] => .ok []
    | v :: vs => do
      let first ← value data v
      return first :: (← values vs)
  /-- No helper uses its options, but they have to have values. -/
  checkOptions : List (String × TemplateValue) → Except TemplateFault Unit
    | [] => .ok ()
    | (_, v) :: rest => do
      let _ ← value data v
      checkOptions rest

def pieceText (data : Json) : TemplatePiece → Except TemplateFault String
  | .text cs => .ok (String.ofList cs)
  | .place v => shown <$> value data v

def fill (data : Json) (t : Template) : Except TemplateFault String :=
  String.join <$> t.mapM (pieceText data)

end Handoff.Template

namespace Handoff

structure Templates where
  byName : Keyed Template := .empty

namespace Templates

def register (ts : Templates) (name source : String) : Except TemplateFault Templates :=
  (fun t => ⟨ts.byName.insert name t⟩) <$> Template.ofText source

/-- Fills in the template of a name. -/
def render (ts : Templates) (name : String) (data : Json) : Except TemplateFault String :=
  match ts.byName.get? name with
  | some t => t.fill data
  | none => .error (.unknownTemplate name)

def renderText (source : String) (data : Json) : Except TemplateFault String :=
  Template.ofText source >>= (·.fill data)

end Templates
end Handoff

import Handoff.Json.Basic
/-!
# Templates

A template is text with places to fill in. A place shows a field of the data, or what a helper makes
of fields and literals.
-/
namespace Handoff

/-- What a place shows and what a helper is called on. -/
inductive TemplateValue where
  /-- A part of the data, reached by names from the outside in. -/
  | field (path : List String)
  /-- A name that only a block gives a value. There are no blocks, so it has none. -/
  | unbound
  | literal (v : Json)
  /-- A helper, what it is called on, and its options by name. -/
  | call (helper : String) (arguments : List TemplateValue) (options : List (String × TemplateValue))
deriving Inhabited

inductive TemplatePiece where
  | text (chars : List Char)
  | place (shown : TemplateValue)
deriving Inhabited

abbrev Template := List TemplatePiece

inductive TemplateFault where
  /-- The template cannot be read. -/
  | malformed
  /-- No template has that name. -/
  | unknownTemplate (name : String)
  /-- A path that asks a list for something else than a place in it. -/
  | badIndex (name : String)
  /-- A call of no helper that there is, or of one whose arguments do not suit it. -/
  | badCall (helper : String)
deriving DecidableEq, Inhabited

end Handoff

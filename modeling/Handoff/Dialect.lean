import Handoff.Text.Blank
import Handoff.Text.Lower
/-!
# Dialects

A component is written in a markup dialect and a stylesheet dialect. Both have a canonical name and
aliases, told apart regardless of case and of blanks around them. All pairs go together but one
kind: a styled wrapper needs markup that is code.

`GenerationError` lists all that a request can be refused for.
-/
namespace Handoff

inductive MarkupDialect where
  /-- A function that returns elements. -/
  | componentized
  /-- A file with a template, a script and a style block. -/
  | templated
  /-- A document without code. -/
  | static
deriving DecidableEq, Inhabited

inductive StyleDialect where
  /-- Utility classes in the markup. -/
  | utility
  /-- Class rules that only the component sees. -/
  | scopedModule
  /-- A wrapper element that carries all rules. -/
  | cssInJs
  /-- Class rules. -/
  | plain
deriving DecidableEq, Inhabited

inductive DialectKind where
  | markup
  | stylesheet
deriving DecidableEq, Inhabited

def DialectKind.label : DialectKind → String
  | .markup => "markup"
  | .stylesheet => "stylesheet"

inductive GenerationError where
  | nodeNotFound (id : String)
  | missingDialect (kind : DialectKind)
  | unknownDialect (kind : DialectKind) (name : String)
  | unsupportedPair (markup : MarkupDialect) (style : StyleDialect)
deriving DecidableEq, Inhabited

namespace MarkupDialect

/-- The canonical name. -/
def name : MarkupDialect → String
  | .componentized => "componentized"
  | .templated => "templated"
  | .static => "static"

def all : List MarkupDialect := [.componentized, .templated, .static]

/-- The dialect of a name in small letters. -/
def ofLower? : String → Option MarkupDialect
  | "componentized" | "react" | "jsx" => some .componentized
  | "templated" | "vue" => some .templated
  | "static" | "html" => some .static
  | _ => none

/-- The dialect of a name. -/
def parse (name : String) : Except GenerationError MarkupDialect :=
  let name := Text.lower (Text.trim name)
  match ofLower? name with
  | some d => .ok d
  | none => .error (.unknownDialect .markup name)

end MarkupDialect

namespace StyleDialect

/-- The canonical name. -/
def name : StyleDialect → String
  | .utility => "utility"
  | .scopedModule => "scoped-module"
  | .cssInJs => "css-in-js"
  | .plain => "plain"

def all : List StyleDialect := [.utility, .scopedModule, .cssInJs, .plain]

/-- The dialect of a name in small letters. -/
def ofLower? : String → Option StyleDialect
  | "utility" | "tailwind" => some .utility
  | "scoped-module" | "css-modules" | "scoped" => some .scopedModule
  | "css-in-js" | "styled-components" => some .cssInJs
  | "plain" | "css" => some .plain
  | _ => none

/-- The dialect of a name. -/
def parse (name : String) : Except GenerationError StyleDialect :=
  let name := Text.lower (Text.trim name)
  match ofLower? name with
  | some d => .ok d
  | none => .error (.unknownDialect .stylesheet name)

end StyleDialect

namespace GenerationError

/-- The wording of an error. -/
def message : GenerationError → String
  | .nodeNotFound id => "Node not found: " ++ id
  | .missingDialect kind => "Missing " ++ kind.label ++ " dialect option"
  | .unknownDialect kind name => "Unknown " ++ kind.label ++ " dialect '" ++ name ++ "'"
  | .unsupportedPair markup style =>
    "Stylesheet dialect '" ++ style.name ++ "' is not supported with '" ++ markup.name ++ "' markup"

/-- Whether the options are at fault and not the scene. -/
def isConfiguration : GenerationError → Bool
  | .nodeNotFound _ => false
  | _ => true

end GenerationError

/-- Two dialects that go together. -/
structure Dialect where
  markup : MarkupDialect
  style : StyleDialect
  /-- A styled wrapper needs markup that is code. -/
  wrapped : style = .cssInJs → markup = .componentized

namespace Dialect

def pair (markup : MarkupDialect) (style : StyleDialect) : Except GenerationError Dialect :=
  if h : style = .cssInJs → markup = .componentized then .ok ⟨markup, style, h⟩
  else .error (.unsupportedPair markup style)

/-- All pairs that go together. -/
def all : List Dialect :=
  MarkupDialect.all.flatMap fun m => StyleDialect.all.filterMap fun s =>
    match pair m s with
    | .ok d => some d
    | .error _ => none

/-- The packages that code in these dialects uses. -/
def dependencies (d : Dialect) (typescript : Bool) : List String :=
  let markup := match d.markup with
    | .componentized => ["react"]
    | .templated => ["vue"]
    | .static => []
  let style := match d.style with
    | .utility => ["tailwindcss"]
    | .cssInJs => ["styled-components"]
    | .scopedModule | .plain => []
  markup ++ style ++ if typescript then ["typescript"] else []

end Dialect
end Handoff

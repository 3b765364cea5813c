import Handoff.Element.Basic
import Handoff.Element.Escape
import Handoff.Text.Lines
/-!
# Elements as text

An element takes one line if it has no children. Otherwise its opening and closing tags stand on
lines of their own, and its text and its children between them, two columns further right.
-/
namespace Handoff

namespace Attribute

def quoted (name value : String) : String :=
  name ++ "=\"" ++ value ++ "\""

/-- An attribute with an expression for its value. -/
def bound (name expression : String) : String :=
  name ++ "=\x7b" ++ expression ++ "\x7d"

/-- A reference to a rule. -/
def renderClass : ClassRef → MarkupDialect → Option String
  | .none, _ => none
  | .names text, .componentized => some (quoted "className" (Escape.attr text))
  | .names text, _ => some (quoted "class" (Escape.attr text))
  | .binding name, .componentized => some (bound "className" ("styles." ++ name))
  | .binding name, .templated => some (quoted ":class" ("$style." ++ name))
  | .binding name, .static => some (quoted "class" name)

/-- The spelling of an attribute, unless the dialect has none. -/
def render (a : Attribute) (d : MarkupDialect) : Option String :=
  match a with
  | .classRef ref => renderClass ref d
  | .role r => some (quoted "role" r.name)
  | .focusable =>
    match d with
    | .componentized => some (bound "tabIndex" "0")
    | _ => some (quoted "tabindex" "0")
  | .buttonType => some (quoted "type" "button")
  | .alt text => some (quoted "alt" (Escape.attr text))
  | .source path => some (quoted "src" (Escape.attr path))
  | .placeholder text => some (quoted "placeholder" (Escape.attr text))
  | .lazyLoading => some (quoted "loading" "lazy")
  | .asyncDecoding => some (quoted "decoding" "async")
  | .clickHandler =>
    match d with
    | .componentized => some (bound "onClick" "props.onClick")
    | .templated => some (quoted "@click" "$emit('click')")
    | .static => none

end Attribute

namespace ElementHead

/-- The tag with its attributes, up to where it is closed. -/
def opening (h : ElementHead) (d : MarkupDialect) : String :=
  "<" ++ h.tag ++ String.join (h.attributes.filterMap fun a => (a.render d).map (" " ++ ·))

def closing (h : ElementHead) : String :=
  "</" ++ h.tag ++ ">"

/-- The line of an element without children. -/
def line (h : ElementHead) (d : MarkupDialect) : String :=
  let opening := h.opening d
  if Tag.isVoid h.tag then opening ++ (if d = .static then ">" else " />")
  else match h.text with
    | some text => opening ++ ">" ++ Escape.text d text ++ h.closing
    | none => if d = .static then opening ++ ">" ++ h.closing else opening ++ " />"

end ElementHead

namespace Element

/-- The lines of an element that starts in column `column`. -/
def lines (d : MarkupDialect) (column : Nat) : Element → List String
  | .node h children =>
    let margin := Text.spaces column
    if Tag.isVoid h.tag || children.isEmpty then [margin ++ h.line d]
    else
      let text := match h.text with
        | some text => [margin ++ "  " ++ Escape.text d text]
        | none => []
      (margin ++ h.opening d ++ ">") :: text ++ linesAll (column + 2) children ++
        [margin ++ h.closing]
where
  linesAll (column : Nat) : List Element → List String
    | [] => []
    | e :: es => lines d column e ++ linesAll column es

def render (d : MarkupDialect) (column : Nat) (e : Element) : String :=
  String.intercalate "\n" (e.lines d column)

end Element
end Handoff

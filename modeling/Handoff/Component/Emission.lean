import Handoff.Component.File
import Handoff.Element.Render
import Handoff.Stylesheet
import Handoff.Utility.Class
/-!
# Emission

A styled tree is emitted once for a pair of dialects: the stylesheet dialect decides how elements
refer to their rules and what the stylesheet is, the markup dialect how the elements and the file
around them are spelled. Widths of screens only count for a component that adapts to its screen.
-/
namespace Handoff

structure EmissionOptions where
  typescript : Bool := false
  optimizeImages : Bool := false
  /-- Widths of screens; without them there is one variant only. -/
  widths : Option Breakpoints := none
deriving Inhabited

structure EmittedCode where
  markup : String
  stylesheet : String
  typeDeclarations : Option String
deriving DecidableEq, Inhabited

structure Emitter where
  tags : TagTable := .standard
  utility : UtilityScale := .standard
deriving Inhabited

namespace Emitter

/-- How the elements of a component refer to their rules. -/
def classAssignment (e : Emitter) (style : StyleDialect) (widths : Option Breakpoints) :
    ClassAssignment := fun place s =>
  match style with
  | .utility => .names (e.utility.nodeClasses widths s)
  | .plain => .names s.className
  | .scopedModule => .binding (Naming.moduleBinding s.className)
  | .cssInJs => if place = .root then .none else .names s.className

def widthsFor (root : Styled) (options : EmissionOptions) : Option Breakpoints :=
  if root.adapts then options.widths else none

/-- The element of a component, its root under the tag of its node. -/
def element (e : Emitter) (root : Styled) (style : StyleDialect) (options : EmissionOptions) :
    Element :=
  Element.build e.tags options.optimizeImages
    (e.classAssignment style (widthsFor root options)) root

/-- The stylesheet of a component. -/
def stylesheetText (root : Styled) (style : StyleDialect) (name tag : String)
    (widths : Option Breakpoints) : String :=
  match style with
  | .utility => utilityStylesheet
  | .plain => (Stylesheet.ofStyled root widths).plainText
  | .scopedModule => (Stylesheet.ofStyled root widths).moduleText
  | .cssInJs => (Stylesheet.ofStyled root widths).wrapperText name tag

/-- The element as it is written: a wrapper stands in for the tag of the root. -/
def written (style : StyleDialect) (name : String) : Element → Element
  | .node head children =>
    if style = .cssInJs then .node { head with tag := name ++ "Root" } children
    else .node head children

/-- The code of a component. -/
def emit (e : Emitter) (root : Styled) (name : String) (dialect : Dialect)
    (options : EmissionOptions) : EmittedCode :=
  let element := e.element root dialect.style options
  let stylesheet := stylesheetText root dialect.style name element.value.tag
    (widthsFor root options)
  let props := PropSpec.ofVerdict root.value.verdict
  let parts : ComponentParts := {
    name
    body := (written dialect.style name element).render dialect.markup 0
    props
    typescript := options.typescript
    style := dialect.style
    stylesheet
    isInteractive := root.value.verdict.isInteractive }
  { markup := parts.file dialect.markup
    stylesheet
    typeDeclarations :=
      if options.typescript then some (PropSpec.declarationFile name props) else none }

end Emitter
end Handoff

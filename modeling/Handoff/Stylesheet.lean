import Handoff.Element.Build
import Handoff.Text.Lines
/-!
# Rule-based stylesheets

A stylesheet has a rule for each node with styles, in the order of the walk, and then media blocks,
the wider one first so that the narrower one has the last word. A media block applies up to a width
and holds, for each node whose variant differs from its styles, what is different.

`Stylesheet.ofStyled` makes the rules, `Stylesheet.inForce` says what they come to for one node at
one width, and `plainText`, `moduleText` and `wrapperText` are the three ways to write them down.
-/
namespace Handoff

/-- What a stylesheet says about one node, which it knows by its place in the walk. -/
structure StyleRule where
  position : Nat
  className : String
  styles : StyleBag
deriving Inhabited

def StyleRule.isRoot (r : StyleRule) : Bool := r.position == 0

/-- Rules that apply up to a width. -/
structure MediaBlock where
  maxWidth : Nat
  rules : List StyleRule
deriving Inhabited

structure Stylesheet where
  rules : List StyleRule
  media : List MediaBlock
deriving Inhabited

namespace Stylesheet

def numbered (s : Styled) : List (Nat × StyledLayer) :=
  s.values.zipIdx.map fun (layer, position) => (position, layer)

def rule? (position : Nat) (className : String) (styles : StyleBag) : Option StyleRule :=
  if styles.isEmpty then none else some ⟨position, className, styles⟩

/-- What is different in a variant, for each node where something is. -/
def overrides (s : Styled) (variant : Variants → StyleBag) : List StyleRule :=
  (numbered s).filterMap fun (position, layer) =>
    layer.variants.bind fun v => rule? position layer.className (StyleBag.diff (variant v) layer.styles)

def block? (maxWidth : Nat) (rules : List StyleRule) : Option MediaBlock :=
  if rules.isEmpty then none else some ⟨maxWidth, rules⟩

/-- The media blocks of a component that adapts to its screen. -/
def mediaOf (s : Styled) : Option Breakpoints → List MediaBlock
  | none => []
  | some widths =>
    if s.adapts then
      [block? widths.tabletMax (overrides s Variants.tablet),
        block? widths.mobileMax (overrides s Variants.mobile)].filterMap id
    else []

/-- The stylesheet of a component. -/
def ofStyled (s : Styled) (widths : Option Breakpoints) : Stylesheet where
  rules := (numbered s).filterMap fun (position, layer) =>
    rule? position layer.className layer.styles
  media := mediaOf s widths

/-- The styles that a list of rules gives the node at a place, later rules over earlier ones. -/
def stylesAt (position : Nat) (rules : List StyleRule) : StyleBag :=
  (rules.filter fun r => r.position == position).foldl
    (fun bag r => StyleBag.overlay r.styles bag) .empty

def rulesAt (sheet : Stylesheet) (width : Nat) : List StyleRule :=
  sheet.rules ++ (sheet.media.filter fun b => width ≤ b.maxWidth).flatMap MediaBlock.rules

/-- The styles of the node at a place on a screen of a width. -/
def inForce (sheet : Stylesheet) (width position : Nat) : StyleBag :=
  stylesAt position (sheet.rulesAt width)

/-! ## Text -/

def propertyName (property : String) : String :=
  Text.kebab property

def declarationLines (column : Nat) (styles : StyleBag) : List String :=
  styles.entries.map fun (property, value) =>
    Text.spaces column ++ propertyName property ++ ": " ++ value.css ++ ";"

def ruleLines (column : Nat) (selector : String) (styles : StyleBag) : List String :=
  (Text.spaces column ++ selector ++ " \x7b") :: declarationLines (column + 2) styles ++
    [Text.spaces column ++ "\x7d"]

def joinedLines (lines : List String) : String :=
  String.intercalate "\n" lines

def condition (block : MediaBlock) : String :=
  "@media (max-width: " ++ toString block.maxWidth ++ "px)"

/-- The lines of a media block, given the lines of its rules. -/
def blockLines (column : Nat) (block : MediaBlock) (lines : StyleRule → List String) :
    List String :=
  (Text.spaces column ++ condition block ++ " \x7b") :: block.rules.flatMap lines ++
    [Text.spaces column ++ "\x7d"]

/-- Class rules, each under the selector of its class. -/
def classText (sheet : Stylesheet) (selector : String → String) : String :=
  let lines (column : Nat) (r : StyleRule) := ruleLines column (selector r.className) r.styles
  let sections := sheet.rules.map (fun r => joinedLines (lines 0 r)) ++
    sheet.media.map fun b => joinedLines (blockLines 0 b (lines 2))
  if sections.isEmpty then "" else String.intercalate "\n\n" sections ++ "\n"

/-- Rules for class names as they are. -/
def plainText (sheet : Stylesheet) : String :=
  sheet.classText fun className => "." ++ className

/-- Rules for class names as a style module exports them. -/
def moduleText (sheet : Stylesheet) : String :=
  sheet.classText fun className => "." ++ Naming.moduleBinding className

/-- The lines of a rule inside a wrapper: the root is the wrapper itself. -/
def wrappedLines (column : Nat) (r : StyleRule) : List String :=
  if r.isRoot then declarationLines column r.styles
  else ruleLines column ("& ." ++ r.className) r.styles

/-- A wrapper element for the root, with all rules inside. -/
def wrapperText (sheet : Stylesheet) (component tag : String) : String :=
  let sections := sheet.rules.map (fun r => joinedLines (wrappedLines 2 r)) ++
    sheet.media.map fun b => joinedLines (blockLines 2 b (wrappedLines 4))
  "const " ++ component ++ "Root = styled." ++ tag ++ "`\n" ++
    String.intercalate "\n\n" sections ++ "\n`;\n"

end Stylesheet
end Handoff

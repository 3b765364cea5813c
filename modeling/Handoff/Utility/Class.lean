import Handoff.Style.Styled
import Handoff.Text.Words
import Handoff.Utility.Scale
/-!
# Utility classes

A utility class sets one property, or some sides of the padding, by its name alone. Its value is a
step of a scale, or a text in brackets where no step is near. Classes without a screen hold on every
screen; the others, from a width on, override them.

`UtilityScale.classes` gives the classes of a style bag, `UtilityScale.tieredClasses` those of a node
with its variants. Their texts are `UtilityClass.text` and `TieredClass.text`.
-/
namespace Handoff

inductive ClassSize where
  | step (name : String)
  | px (x : Float)
  | number (x : Float)
deriving Inhabited

inductive PaddingSides where
  | all
  | vertical
  | horizontal
  | top
  | right
  | bottom
  | left
deriving DecidableEq, Inhabited

/-- The family of padding classes for some sides. -/
def PaddingSides.family : PaddingSides → String
  | .all => "p"
  | .vertical => "py"
  | .horizontal => "px"
  | .top => "pt"
  | .right => "pr"
  | .bottom => "pb"
  | .left => "pl"

/-- A class and the property that it sets. -/
inductive UtilityClass where
  /-- A size of a family: `w-4`, `text-[13px]`. -/
  | sized (property family : String) (size : ClassSize)
  /-- The corners, where a step may have no name. -/
  | radius (size : ClassSize)
  | padding (sides : PaddingSides) (size : ClassSize)
  /-- A class that is a word of its own: `flex`. -/
  | word (property name : String)
  /-- A text in brackets after a family: `bg-[red]`. -/
  | bracketed (property family value : String)
  /-- A property that has no family: `[border:none]`. -/
  | generic (property value : String)
deriving Inhabited

namespace ClassSize

/-- A value as the class of a family. -/
def text (family : String) : ClassSize → String
  | .step name => family ++ "-" ++ name
  | .px x => family ++ "-[" ++ StyleValue.pxText x ++ "]"
  | .number x => family ++ "-[" ++ Number.css x ++ "]"

end ClassSize

namespace UtilityClass

/-- The property that a class sets. -/
def property : UtilityClass → String
  | .sized property _ _ => property
  | .radius _ => Property.borderRadius
  | .padding _ _ => Property.padding
  | .word property _ => property
  | .bracketed property _ _ => property
  | .generic property _ => property

/-- The name of a class. -/
def text : UtilityClass → String
  | .sized _ family size => size.text family
  | .radius (.step "") => "rounded"
  | .radius size => size.text "rounded"
  | .padding sides size => size.text sides.family
  | .word _ name => name
  | .bracketed _ family value => family ++ "-[" ++ value ++ "]"
  | .generic property value => "[" ++ Text.kebab property ++ ":" ++ value ++ "]"

end UtilityClass

/-- A text without the blank after each comma. -/
def closeCommas : List Char → List Char
  | ',' :: ' ' :: rest => ',' :: closeCommas rest
  | c :: rest => c :: closeCommas rest
  | [] => []

/-- A value without spaces, as it stands in brackets. -/
def bracketText (v : StyleValue) : String :=
  String.ofList ((closeCommas v.css.toList).map fun c => if c = ' ' then '_' else c)

namespace UtilityScale

/-- A length on a scale. -/
def length (scale : UtilityScale) (steps : Steps) (x : Float) : ClassSize :=
  match scale.snap? steps x with
  | some name => .step name
  | none => .px x

/-- A number on a scale. -/
def unitless (scale : UtilityScale) (steps : Steps) (x : Float) : ClassSize :=
  match scale.snap? steps x with
  | some name => .step name
  | none => .number x

/-- The class for some sides, unless they have no padding. -/
def sideClass? (scale : UtilityScale) (sides : PaddingSides) (x : Float) : Option UtilityClass :=
  if x != 0 then some (.padding sides (scale.length scale.spacing x)) else none

/-- The classes of a padding side by side; two that agree with those opposite become one. -/
def paddingClasses (scale : UtilityScale) : List Float → List UtilityClass
  | [top, right, bottom, left] =>
    if top == bottom && right == left then
      [scale.sideClass? .vertical top, scale.sideClass? .horizontal right].filterMap id
    else
      [scale.sideClass? .top top, scale.sideClass? .right right, scale.sideClass? .bottom bottom,
        scale.sideClass? .left left].filterMap id
  | _ => []

/-- The classes of a property with its value. -/
def propertyClasses (scale : UtilityScale) (property : String) (v : StyleValue) :
    List UtilityClass :=
  let generic := [UtilityClass.generic property (bracketText v)]
  let bracketed (family : String) := [UtilityClass.bracketed property family (bracketText v)]
  let spaced (family : String) :=
    match v with
    | .px x => [UtilityClass.sized property family (scale.length scale.spacing x)]
    | _ => generic
  match property with
  | Property.width => spaced "w"
  | Property.height => spaced "h"
  | Property.gap => spaced "gap"
  | Property.display =>
    match v with
    | .keyword "flex" => [.word property "flex"]
    | _ => generic
  | Property.flexDirection =>
    match v with
    | .keyword "column" => [.word property "flex-col"]
    | .keyword _ => [.word property "flex-row"]
    | _ => generic
  | Property.padding =>
    match v with
    | .px x => [.padding .all (scale.length scale.spacing x)]
    | .edges sides => scale.paddingClasses sides
    | _ => generic
  | Property.borderRadius =>
    match v with
    | .px x => [.radius (scale.length scale.radii x)]
    | _ => generic
  | Property.fontSize =>
    match v with
    | .px x => [.sized property "text" (scale.length scale.fontSizes x)]
    | _ => generic
  | Property.fontWeight =>
    match v with
    | .number x => [.sized property "font" (scale.unitless scale.fontWeights x)]
    | _ => generic
  | Property.backgroundColor => bracketed "bg"
  | Property.background => bracketed "bg"
  | Property.boxShadow => bracketed "shadow"
  | Property.opacity => bracketed "opacity"
  | Property.fontFamily => bracketed "font"
  | Property.lineHeight => bracketed "leading"
  | Property.letterSpacing => bracketed "tracking"
  | Property.color => bracketed "text"
  | Property.textAlign => [.word property ("text-" ++ v.css)]
  | _ => generic

/-- The classes of a style bag, in its order. -/
def classes (scale : UtilityScale) (bag : StyleBag) : List UtilityClass :=
  bag.entries.flatMap fun (property, v) => scale.propertyClasses property v

end UtilityScale

/-! ## Screens -/

/-- From which screen on a class holds. -/
inductive ScreenTier where
  | mobile
  | tablet
  | desktop
deriving DecidableEq, Inhabited

/-- A class and the screen from which on it holds. -/
structure TieredClass where
  tier : ScreenTier
  utility : UtilityClass
deriving Inhabited

/-- What marks a class that holds from a width on: the usual name of that width, if it is one. -/
def screenMark (minWidth usual : UInt32) (name : String) : String :=
  if minWidth = usual then name ++ ":" else "min-[" ++ toString minWidth.toNat ++ "px]:"

/-- What marks a class of a tier. -/
def ScreenTier.mark (widths : Breakpoints) : ScreenTier → String
  | .mobile => ""
  | .tablet => screenMark widths.pastMobile 768 "md"
  | .desktop => screenMark widths.pastTablet 1024 "lg"

/-- The name of a class with its mark. -/
def TieredClass.text (widths : Breakpoints) (c : TieredClass) : String :=
  c.tier.mark widths ++ c.utility.text

namespace UtilityScale

/-- The classes of a node that adapts: those of its mobile styles, and for each wider screen those
of what is different there. -/
def tieredClasses (scale : UtilityScale) (v : Variants) : List TieredClass :=
  (scale.classes v.mobile).map (.mk .mobile) ++
    (scale.classes (StyleBag.diff v.tablet v.mobile)).map (.mk .tablet) ++
    (scale.classes (StyleBag.diff v.desktop v.tablet)).map (.mk .desktop)

/-- The class list of a node. -/
def nodeClasses (scale : UtilityScale) (widths : Option Breakpoints) (s : StyledLayer) : String :=
  String.intercalate " " <|
    match s.variants, widths with
    | some variants, some widths =>
      (scale.tieredClasses variants).map fun c => c.text widths
    | _, _ => (scale.classes s.styles).map UtilityClass.text

end UtilityScale

/-- The stylesheet of a component with utility classes. -/
def utilityStylesheet : String :=
  "@tailwind base;\n@tailwind components;\n@tailwind utilities;\n"

end Handoff

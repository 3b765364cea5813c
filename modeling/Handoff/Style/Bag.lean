import Handoff.Keyed
import Handoff.Scene.Color
import Handoff.Json.Basic
/-!
# Style values and style bags

A bag holds at most one value for each property, in the order in which the properties came in. A
property that is not there is not specified. Values compare as numbers do: zero equals its negative,
and what is not a number equals nothing.
-/
namespace Handoff

inductive StyleValue where
  /-- A length in pixels. -/
  | px (x : Float)
  /-- A number without a unit. -/
  | number (x : Float)
  | color (c : Color)
  /-- Lengths of sides in pixels. -/
  | edges (sides : List Float)
  /-- A text that is final. -/
  | keyword (text : String)
deriving BEq, Inhabited

namespace StyleValue

def pxText (x : Float) : String :=
  Number.css x ++ "px"

/-- The value in a stylesheet. -/
def css : StyleValue → String
  | .px x => pxText x
  | .number x => Number.css x
  | .color c => c.css
  | .edges sides => String.intercalate " " (sides.map pxText)
  | .keyword text => text

def px? : StyleValue → Option Float
  | .px x => some x
  | _ => none

/-- The number, with or without a unit. -/
def number? : StyleValue → Option Float
  | .px x => some x
  | .number x => some x
  | _ => none

def keyword? : StyleValue → Option String
  | .keyword text => some text
  | _ => none

end StyleValue

abbrev StyleBag := Keyed StyleValue

namespace StyleBag

/-- Whether two bags hold the same values, in whatever order. -/
def same (a b : StyleBag) : Bool :=
  a.size == b.size && a.entries.all fun e => b.get? e.1 == some e.2

/-- The entries of `a` that are new or different beside `b`. -/
def diff (a b : StyleBag) : StyleBag :=
  a.filter fun key value => b.get? key != some value

/-- The bag `b` with the entries of `a` set on it one after the other. -/
def overlay (a b : StyleBag) : StyleBag :=
  a.entries.foldl (fun bag e => bag.insert e.1 e.2) b

def toJson (bag : StyleBag) : Json :=
  .object (bag.entries.map fun e => (e.1, .string e.2.css))

end StyleBag

/-! ## Properties -/

namespace Property

@[match_pattern] def width := "width"

@[match_pattern] def height := "height"

@[match_pattern] def display := "display"

@[match_pattern] def flexDirection := "flexDirection"

@[match_pattern] def gap := "gap"

@[match_pattern] def padding := "padding"

@[match_pattern] def backgroundColor := "backgroundColor"

/-- A background that is no plain color. -/
@[match_pattern] def background := "background"

@[match_pattern] def border := "border"

@[match_pattern] def borderRadius := "borderRadius"

@[match_pattern] def boxShadow := "boxShadow"

@[match_pattern] def filter := "filter"

@[match_pattern] def opacity := "opacity"

@[match_pattern] def fontFamily := "fontFamily"

@[match_pattern] def fontSize := "fontSize"

@[match_pattern] def fontWeight := "fontWeight"

@[match_pattern] def lineHeight := "lineHeight"

@[match_pattern] def letterSpacing := "letterSpacing"

@[match_pattern] def textAlign := "textAlign"

@[match_pattern] def color := "color"

end Property
end Handoff

import Handoff.Number.Text
/-!
# Colors

Red, green, blue and alpha, each meant to lie between 0 and 1; what lies outside is cut off when a
color is written or compared, not before.

`Color.ofHex` reads the usual hexadecimal spelling, `Color.css` writes the `rgba()` quadruple, and
`Color.contrast` is the contrast ratio of the web accessibility guidelines, from 1 to 21.
-/
namespace Handoff

structure Color where
  r : Float
  g : Float
  b : Float
  a : Float
deriving BEq, Inhabited

namespace Color

/-- An opaque color. -/
def rgb (r g b : Float) : Color := ⟨r, g, b, 1⟩

def black : Color := rgb 0 0 0

def white : Color := rgb 1 1 1

/-- The opaque color with these bytes for its channels. -/
def ofBytes (r g b : Nat) : Color :=
  rgb (Float.ofNat r / 255) (Float.ofNat g / 255) (Float.ofNat b / 255)

def withAlpha (c : Color) (a : Float) : Color := { c with a }

/-! ## Hexadecimal spelling -/

/-- The value of a digit in base 16, small or capital. -/
def hexValue? (c : Char) : Option Nat :=
  if c.isDigit then some (c.toNat - '0'.toNat)
  else if 'a' ≤ c && c ≤ 'f' then some (c.toNat - 'a'.toNat + 10)
  else if 'A' ≤ c && c ≤ 'F' then some (c.toNat - 'A'.toNat + 10)
  else none

/-- The byte of two characters. A plus sign may stand for the first digit. -/
def hexByte? (high low : Char) : Option Nat :=
  match hexValue? low with
  | none => none
  | some l => if high = '+' then some l else (hexValue? high).map fun h => 16 * h + l

/-- The color that six or eight characters spell, any number of `#` in front of them. -/
def ofHex (text : String) : Option Color :=
  match text.toList.dropWhile (· == '#') with
  | [r₁, r₀, g₁, g₀, b₁, b₀] => do
    return ofBytes (← hexByte? r₁ r₀) (← hexByte? g₁ g₀) (← hexByte? b₁ b₀)
  | [r₁, r₀, g₁, g₀, b₁, b₀, a₁, a₀] => do
    let opaqueColor := ofBytes (← hexByte? r₁ r₀) (← hexByte? g₁ g₀) (← hexByte? b₁ b₀)
    return opaqueColor.withAlpha (Float.ofNat (← hexByte? a₁ a₀) / 255)
  | _ => none

/-! ## Bytes and text -/

/-- A channel cut off at 0 and 1. What is not a number stays so. -/
def clampUnit (x : Float) : Float :=
  if x < 0 then 0 else if 1 < x then 1 else x

/-- A channel as a byte, rounded; what is not a number counts as 0. -/
def byte (x : Float) : Nat :=
  match Number.shape (clampUnit x * 255) with
  | .finite v => Number.divRound .awayFromZero v.numerator v.denominator
  | _ => 0

def bytes (c : Color) : Nat × Nat × Nat :=
  (byte c.r, byte c.g, byte c.b)

/-- The color in a stylesheet. -/
def css (c : Color) : String :=
  let (r, g, b) := c.bytes
  s!"rgba({r}, {g}, {b}, " ++ Number.css (clampUnit c.a) ++ ")"

/-! ## Contrast -/

/-- A channel in proportion to its light. -/
def linear (x : Float) : Float :=
  let x := clampUnit x
  if x ≤ 0.03928 then x / 12.92 else Float.pow ((x + 0.055) / 1.055) 2.4

/-- The relative luminance, from 0 to 1. -/
def luminance (c : Color) : Float :=
  0.2126 * linear c.r + 0.7152 * linear c.g + 0.0722 * linear c.b

/-- The contrast ratio of two colors, which does not depend on their order. -/
def contrast (c d : Color) : Float :=
  let x := c.luminance
  let y := d.luminance
  let (light, dark) := if x ≥ y then (x, y) else (y, x)
  (light + 0.05) / (dark + 0.05)

end Color
end Handoff

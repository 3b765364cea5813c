/-!
# Scales

A scale is a table of named steps. A value snaps to the step nearest to it if that is near enough;
of several nearest steps the first one counts.
-/
namespace Handoff

abbrev Steps := List (String × Float)

/-- The scales of utility classes, and how near a step has to be. -/
structure UtilityScale where
  /-- Spaces and sizes. -/
  spacing : Steps
  fontSizes : Steps
  radii : Steps
  fontWeights : Steps
  /-- A step this far away is near enough, in pixels. -/
  tolerancePx : Float
  /-- A step this far away is near enough, in proportion to the value. -/
  toleranceRatio : Float
deriving Inhabited

namespace UtilityScale

/-- The scales in use unless others are given. -/
def standard : UtilityScale where
  spacing := [
    ("0", 0), ("px", 1), ("0.5", 2), ("1", 4), ("1.5", 6), ("2", 8), ("2.5", 10), ("3", 12),
    ("3.5", 14), ("4", 16), ("5", 20), ("6", 24), ("7", 28), ("8", 32), ("9", 36), ("10", 40),
    ("11", 44), ("12", 48), ("14", 56), ("16", 64), ("20", 80), ("24", 96), ("28", 112),
    ("32", 128), ("36", 144), ("40", 160), ("44", 176), ("48", 192), ("52", 208), ("56", 224),
    ("60", 240), ("64", 256), ("72", 288), ("80", 320), ("96", 384)]
  fontSizes := [
    ("xs", 12), ("sm", 14), ("base", 16), ("lg", 18), ("xl", 20), ("2xl", 24), ("3xl", 30),
    ("4xl", 36), ("5xl", 48), ("6xl", 60), ("7xl", 72), ("8xl", 96), ("9xl", 128)]
  radii := [
    ("none", 0), ("sm", 2), ("", 4), ("md", 6), ("lg", 8), ("xl", 12), ("2xl", 16), ("3xl", 24),
    ("full", 9999)]
  fontWeights := [
    ("thin", 100), ("extralight", 200), ("light", 300), ("normal", 400), ("medium", 500),
    ("semibold", 600), ("bold", 700), ("extrabold", 800), ("black", 900)]
  tolerancePx := 2
  toleranceRatio := 0.125

/-- The larger of two bounds; one that is not a number does not count. -/
def largerBound (x y : Float) : Float :=
  if x.isNaN then y else if x < y then y else x

/-- How far a step may be from a value. -/
def tolerance (scale : UtilityScale) (value : Float) : Float :=
  largerBound scale.tolerancePx (scale.toleranceRatio * value.abs)

/-- How far a step is from a value. -/
def distance (step value : Float) : Float :=
  (step - value).abs

/-- The first of the entries with the least number. -/
def least : List (String × Float) → Option (String × Float)
  | [] => none
  | first :: rest => some (rest.foldl (fun best e => if e.2 < best.2 then e else best) first)

/-- The step that a value snaps to. -/
def snap? (scale : UtilityScale) (steps : Steps) (value : Float) : Option String :=
  let near := (steps.map fun (name, step) => (name, distance step value)).filter fun e =>
    e.2 ≤ scale.tolerance value
  (least near).map Prod.fst

end UtilityScale
end Handoff

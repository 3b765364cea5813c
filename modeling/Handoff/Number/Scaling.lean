/-!
# Reading digits as a number

A number text is a whole number times a power of ten. `absorb` collects as many leading digits as
fit a 64-bit word; `scale` multiplies or divides by powers of ten up to `10 ^ 308`, and refuses what
leaves the range of `Float`. A text of up to fifteen digits and a small exponent is read exactly.
-/
namespace Handoff.Number

/-- The bound of a 64-bit word. -/
def wordBound : Nat := UInt64.size

/-- Appends digits to `significand` while the result fits a word. Gives the result and how many
digits it took. -/
def absorb (significand : Nat) : List Nat → Nat × Nat
  | [] => (significand, 0)
  | d :: ds =>
    let next := significand * 10 + d
    if next < wordBound then
      let (result, taken) := absorb next ds
      (result, taken + 1)
    else (significand, 0)

def tenTo (n : Nat) : Float := Float.ofScientific 1 false n

/-- `significand · 10 ^ exponent`, or nothing when it is too large. Two divisions by `10 ^ 308` take
every word to zero. -/
def scale (significand : Nat) (exponent : Int) : Option Float :=
  let start := (UInt64.ofNat significand).toFloat
  let steps := exponent.natAbs
  if 0 ≤ exponent then
    if steps ≤ 308 then
      let product := start * tenTo steps
      if product.isInf then none else some product
    else if significand = 0 then some start else none
  else if steps ≤ 308 then some (start / tenTo steps)
  else if steps ≤ 616 then some (start / tenTo 308 / tenTo (steps - 308))
  else some 0

end Handoff.Number

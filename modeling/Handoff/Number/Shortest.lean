import Handoff.Number.Exact
/-!
# The fewest digits that read back

Around a number lies the interval of reals that round to it; its ends belong to it exactly when the
mantissa is even. The shortest text of the number is the nearest point, inside that interval, of
the coarsest decimal grid that has one. `Decimal.shortest` tries the grids from coarse to fine; on
each only the two neighbours of the number need a test, and seventeen digits always suffice.
-/
namespace Handoff.Number

-- Powers are the ones of the core library, whatever else is imported beside it.
attribute [local instance (high)] instPowNat

/-- The number `digits · 10 ^ exponent`. -/
structure Decimal where
  digits : Nat
  exponent : Int
deriving DecidableEq, Inhabited

/-- The reals that round to a positive number, over one common denominator. -/
structure Neighbourhood where
  low : Nat
  value : Nat
  high : Nat
  denominator : Nat
  /-- Whether the ends belong to it. -/
  closed : Bool

/-- The gap below a power of two is half the gap above it, except at the bottom of the range. -/
def Exact.neighbourhood (v : Exact) : Neighbourhood :=
  let unit := 2 ^ (v.exponent - 2).toNat
  let below := if v.mantissa = 2 ^ (52 : Nat) ∧ v.exponent ≠ -1074 then 1 else 2
  { low := (4 * v.mantissa - below) * unit
    value := 4 * v.mantissa * unit
    high := (4 * v.mantissa + 2) * unit
    denominator := 2 ^ (2 - v.exponent).toNat
    closed := v.mantissa % 2 == 0 }

namespace Decimal

/-- The power of ten above or below the fraction bar. -/
def up (exponent : Int) : Nat := 10 ^ exponent.toNat

/-- Whether `digits · 10 ^ exponent` lies in the neighbourhood. -/
def isInside (n : Neighbourhood) (d : Decimal) : Bool :=
  let point := d.digits * up d.exponent * n.denominator
  let low := n.low * up (-d.exponent)
  let high := n.high * up (-d.exponent)
  if n.closed then decide (low ≤ point ∧ point ≤ high) else decide (low < point ∧ point < high)

/-- The neighbour of the value on the grid of step `10 ^ exponent`, if one lies inside; of two the
nearer one, the even one of two equally near. -/
def onGrid? (n : Neighbourhood) (exponent : Int) : Option Decimal :=
  let num := n.value * up (-exponent)
  let den := n.denominator * up exponent
  let below : Decimal := ⟨num / den, exponent⟩
  let above : Decimal := ⟨num / den + 1, exponent⟩
  let twice := 2 * (num % den)
  match isInside n below && below.digits != 0, isInside n above with
  | true, true =>
    if twice < den then some below
    else if den < twice then some above
    else if below.digits % 2 = 0 then some below else some above
  | true, false => some below
  | false, true => some above
  | false, false => none

/-- How many digits stand before the point: `10 ^ (p - 1) ≤ v < 10 ^ p`. No number is smaller than
`10 ^ -400`. -/
def pointOf (v : Exact) : Int :=
  ((Nat.toDigits 10 (v.numerator * 10 ^ (400 : Nat) / v.denominator)).length : Int) - 400

/-- Drops the zeros at the end of the digits. The first argument bounds their number. -/
def trimZeros : Nat → Decimal → Decimal
  | 0, d => d
  | n + 1, d =>
    if d.digits ≠ 0 ∧ d.digits % 10 = 0 then trimZeros n ⟨d.digits / 10, d.exponent + 1⟩ else d

/-- The shortest decimal that reads back as the number, and of those the nearest. -/
def shortest (v : Exact) : Decimal :=
  if v.mantissa = 0 then ⟨0, 0⟩
  else
    let point := pointOf v
    let near := v.neighbourhood
    match (List.range 17).findSome? fun (k : Nat) => onGrid? near (point - 1 - k) with
    | some d => trimZeros 17 d
    | none => ⟨v.whole, 0⟩

end Decimal
end Handoff.Number

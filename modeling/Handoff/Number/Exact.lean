/-!
# The exact value of a number

A finite `Float` stands for `± mantissa · 2 ^ exponent`, which is read off its 64 bits: one sign
bit, eleven bits of exponent, 52 bits of fraction. Everything that turns a number into text starts
here, so that no digit depends on floating-point arithmetic.

`Exact.numerator` and `Exact.denominator` write the magnitude as a fraction of naturals.
-/
namespace Handoff.Number

-- Powers are the ones of the core library, whatever else is imported beside it.
attribute [local instance (high)] instPowNat

/-- The number `± mantissa · 2 ^ exponent`. Zero keeps its sign. -/
structure Exact where
  negative : Bool
  mantissa : Nat
  exponent : Int
deriving DecidableEq, Inhabited

/-- What the 64 bits of a number say. -/
inductive Shape where
  | notANumber
  | infinite (negative : Bool)
  | finite (value : Exact)
deriving DecidableEq, Inhabited

/-- Reads the bits: an exponent field of 2047 marks the infinities and what is not a number, one of
0 the numbers without the implicit leading bit. -/
def shape (x : Float) : Shape :=
  let bits : Nat := x.toBits.toNat
  let negative := decide (2 ^ (63 : Nat) ≤ bits)
  let field : Nat := bits / 2 ^ (52 : Nat) % 2 ^ (11 : Nat)
  let fraction : Nat := bits % 2 ^ (52 : Nat)
  if field = 2047 then
    if fraction = 0 then .infinite negative else .notANumber
  else if field = 0 then .finite ⟨negative, fraction, -1074⟩
  else .finite ⟨negative, 2 ^ (52 : Nat) + fraction, (field : Int) - 1075⟩

namespace Exact

/-- The magnitude is `numerator / denominator`. -/
def numerator (v : Exact) : Nat :=
  v.mantissa * 2 ^ v.exponent.toNat

/-- The magnitude is `numerator / denominator`; the denominator is a power of two. -/
def denominator (v : Exact) : Nat :=
  2 ^ (-v.exponent).toNat

def whole (v : Exact) : Nat :=
  v.numerator / v.denominator

def isWhole (v : Exact) : Bool :=
  v.numerator % v.denominator == 0

theorem denominator_pos (v : Exact) : 0 < v.denominator :=
  Nat.two_pow_pos _

theorem whole_mul_denominator {v : Exact} (h : v.isWhole = true) :
    v.whole * v.denominator = v.numerator :=
  Nat.div_mul_cancel (Nat.dvd_of_mod_eq_zero (by simpa [isWhole] using h))

end Exact
end Handoff.Number

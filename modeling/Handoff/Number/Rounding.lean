import Handoff.Number.Exact
/-!
# Rounding quotients

`divRound` takes a quotient of naturals to the nearest natural; what happens to a half is the
caller's choice. Fixed decimal places, channel bytes and whole degrees are all one call of it.

Results: `divRound_error` (the result is within half a unit), `divRound_mul` (a whole quotient is
kept).
-/
namespace Handoff.Number

-- Powers are the ones of the core library, whatever else is imported beside it.
attribute [local instance (high)] instPowNat

/-- Where a quotient halfway between two naturals goes. -/
inductive Tie where
  | toEven
  | awayFromZero
deriving DecidableEq

/-- `num / den` to the nearest natural. -/
def divRound (tie : Tie) (num den : Nat) : Nat :=
  let low := num / den
  let twice := 2 * (num % den)
  if twice < den then low
  else if den < twice then low + 1
  else match tie with
    | .toEven => low + low % 2
    | .awayFromZero => low + 1

/-- The result is within half a unit of the quotient. -/
theorem divRound_error (tie : Tie) (num : Nat) {den : Nat} (h : 0 < den) :
    2 * (divRound tie num den * den) ≤ 2 * num + den ∧
      2 * num ≤ 2 * (divRound tie num den * den) + den := by
  have split : num = num / den * den + num % den := by
    have := Nat.div_add_mod num den
    rw [Nat.mul_comm] at this
    omega
  have lt : num % den < den := Nat.mod_lt num h
  have up : (num / den + 1) * den = num / den * den + den := Nat.succ_mul _ _
  unfold divRound
  dsimp only
  split
  · omega
  · split
    · omega
    · cases tie with
      | toEven =>
        dsimp only
        rcases Nat.mod_two_eq_zero_or_one (num / den) with e | e <;> rw [e]
        · rw [Nat.add_zero]; omega
        · omega
      | awayFromZero => dsimp only; omega

/-- A quotient that is whole is kept. -/
theorem divRound_mul (tie : Tie) (n : Nat) {den : Nat} (h : 0 < den) :
    divRound tie (n * den) den = n := by
  simp [divRound, Nat.mul_div_cancel n h, h]

/-- The text of `num / den` with exactly `places` decimals, a half going to the even digit. -/
def fixedQuotient (places num den : Nat) : String :=
  let scaled := divRound .toEven (num * 10 ^ places) den
  let fraction := Nat.toDigits 10 (scaled % 10 ^ places)
  let padding := List.replicate (places - fraction.length) '0'
  toString (scaled / 10 ^ places) ++ "." ++ String.ofList (padding ++ fraction)

/-- The text of a number with exactly `places` decimals, one at least. The sign is written also
when every digit is zero. -/
def fixed (places : Nat) (x : Float) : String :=
  match shape x with
  | .notANumber => "NaN"
  | .infinite negative => if negative then "-inf" else "inf"
  | .finite v =>
    (if v.negative then "-" else "") ++ fixedQuotient places v.numerator v.denominator

/-- The nearest integer to a finite number, halves going away from zero; others are unchanged. -/
def roundWhole (x : Float) : Float :=
  match shape x with
  | .finite v =>
    let magnitude := Float.ofNat (divRound .awayFromZero v.numerator v.denominator)
    if v.negative then -magnitude else magnitude
  | _ => x

end Handoff.Number

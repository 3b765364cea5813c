import Handoff.Number.Rounding
import Handoff.Number.Shortest
/-!
# How numbers are written

Three texts of a number are in use.

* `css`: what a stylesheet holds. Integers have no fraction; anything else is rounded to three
  decimals, of which zeros at the end are dropped.
* `Spelling.text json`: what a JSON text holds, the fewest digits that read back, always with a
  fraction or an exponent.
* `Spelling.text plain`: the same digits for a reader, never with an exponent.
-/
namespace Handoff.Number

-- Powers are the ones of the core library, whatever else is imported beside it.
attribute [local instance (high)] instPowNat

/-- Drops the characters at the end that satisfy `p`. -/
def dropEnd (p : Char → Bool) (cs : List Char) : List Char :=
  (cs.reverse.dropWhile p).reverse

/-- Drops the zeros a fraction ends in, then a point that nothing follows. -/
def trimFraction (cs : List Char) : List Char :=
  dropEnd (· == '.') (dropEnd (· == '0') cs)

/-- The text of a whole number below `10 ^ 15`; zero has no sign. -/
def wholeText (v : Exact) : String :=
  (if v.negative && v.whole != 0 then "-" else "") ++ toString v.whole

/-- The text of a number with up to three decimals; what rounds to zero has no sign. -/
def thousandths (v : Exact) : String :=
  let trimmed := trimFraction (fixedQuotient 3 v.numerator v.denominator).toList
  (if v.negative && trimmed != ['0'] then "-" else "") ++ String.ofList trimmed

/-- The text of a number in a stylesheet. -/
def css (x : Float) : String :=
  match shape x with
  | .notANumber => "NaN"
  | .infinite negative => if negative then "-inf" else "inf"
  | .finite v => if v.isWhole && v.whole < 10 ^ (15 : Nat) then wholeText v else thousandths v

/-- How the digits of a number are laid out. -/
structure Spelling where
  /-- What follows a number without a fraction. -/
  wholeEnding : String
  /-- Whether a number with this many digits before the point is written without an exponent. -/
  positional : Int → Bool

/-- JSON texts keep a fraction on whole numbers and use an exponent from `10 ^ 16` upwards and
below `10 ^ -5`. -/
def Spelling.json : Spelling := ⟨".0", fun point => -5 < point && point ≤ 16⟩

/-- Messages show whole numbers as such and never an exponent. -/
def Spelling.plain : Spelling := ⟨"", fun _ => true⟩

/-- The text of a magnitude. -/
def Spelling.digits (s : Spelling) (d : Decimal) : String :=
  let cs := Nat.toDigits 10 d.digits
  let point : Int := cs.length + d.exponent
  if d.digits = 0 then "0" ++ s.wholeEnding
  else if s.positional point then
    if 0 ≤ d.exponent then
      String.ofList (cs ++ List.replicate d.exponent.toNat '0') ++ s.wholeEnding
    else if 0 < point then
      String.ofList (cs.take point.toNat) ++ "." ++ String.ofList (cs.drop point.toNat)
    else "0." ++ String.ofList (List.replicate (-point).toNat '0' ++ cs)
  else
    let rest := cs.drop 1
    String.ofList (cs.take 1) ++ (if rest.isEmpty then "" else ".") ++ String.ofList rest ++ "e" ++
      toString (point - 1)

/-- The text of a number. -/
def Spelling.text (s : Spelling) (x : Float) : String :=
  match shape x with
  | .notANumber => "NaN"
  | .infinite negative => if negative then "-inf" else "inf"
  | .finite v => (if v.negative then "-" else "") ++ s.digits (Decimal.shortest v)

end Handoff.Number

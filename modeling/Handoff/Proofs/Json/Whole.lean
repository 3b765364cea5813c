import Handoff.Proofs.Json.Numeral
/-!
# Whole numbers read back

The digits of a whole number have no zero in front of others, so a reader takes them for one number;
up to 64 bits it keeps that number as it is.

Results:
* `Source.numberRest_toDigits`: a reader of numbers on the digits of a whole number.
* `Numeral.readsBack_word`: a whole number of 64 bits is read back.
-/
namespace Handoff
open Number (AllDigits allDigits_toDigits)

namespace Source

theorem digits_allDigits {cs : List Char} (h : AllDigits cs) :
    digits cs = (cs.map fun c => c.toNat - '0'.toNat, []) := by
  unfold digits
  rw [List.takeWhile_eq_self_iff.mpr h, List.dropWhile_eq_nil_iff.mpr h]

theorem ofDigits_map (cs : List Char) :
    ofDigits (cs.map fun c => c.toNat - '0'.toNat) = Nat.ofDigitChars 10 cs 0 := by
  unfold ofDigits Nat.ofDigitChars
  rw [List.foldl_map]
  congr 1
  funext n c
  rw [Nat.mul_comm]

theorem not_leadingZero (n : ℕ) :
    ¬(1 < ((Nat.toDigits 10 n).map fun c => c.toNat - '0'.toNat).length ∧
      ((Nat.toDigits 10 n).map fun c => c.toNat - '0'.toNat).head? = some 0) := by
  rintro ⟨long, zero⟩
  rcases Nat.eq_zero_or_pos n with rfl | pos
  · exact absurd long (by decide)
  · obtain ⟨c, rest, eq⟩ := List.exists_cons_of_ne_nil (Nat.toDigits_ne_nil (b := 10) (n := n))
    have lead := Number.head?_toDigits_ne pos
    have digit := allDigits_toDigits n c (eq ▸ List.mem_cons_self ..)
    rw [eq] at lead zero
    have value : c.toNat - 48 = 0 := Option.some.inj zero
    have least : 48 ≤ c.toNat := (Char.isDigit_iff_toNat.mp digit).1
    have same : c.toNat = '0'.toNat := show c.toNat = 48 by omega
    exact lead (congrArg some (Char.toNat_inj.mp same))

/-- A reader of numbers takes the digits of a whole number for that number. -/
theorem numberRest_toDigits {n : ℕ} (word : n < Number.wordBound) :
    numberRest false (Nat.toDigits 10 n) = (.number (.integer n), some []) := by
  have some : (Nat.toDigits 10 n).map (fun c => c.toNat - '0'.toNat) ≠ [] :=
    fun nil => Nat.toDigits_ne_nil (List.map_eq_nil_iff.mp nil)
  unfold numberRest
  rw [digits_allDigits (allDigits_toDigits n)]
  dsimp only
  rw [if_neg (fun nil => some (List.isEmpty_iff.mp nil)), if_neg (not_leadingZero n)]
  unfold integerOf
  rw [ofDigits_map, Nat.ofDigitChars_ten_toDigits, if_neg Bool.false_ne_true, if_pos word]

end Source

/-- A whole number of 64 bits is read back. -/
theorem Numeral.readsBack_word {n : ℕ} (word : n < Number.wordBound) :
    (Numeral.integer n).ReadsBack := by
  have chars : (toString (n : ℤ)).toList = Nat.toDigits 10 n := Nat.toList_repr
  obtain ⟨c, rest, eq⟩ := List.exists_cons_of_ne_nil (Nat.toDigits_ne_nil (b := 10) (n := n))
  have digit : c.isDigit = true := allDigits_toDigits n c (eq ▸ List.mem_cons_self ..)
  have numeric : Number.isNumeric c = true := Json.numeral_isNumeric (n := .integer n) trivial c
    (by rw [Numeral.chars, chars, eq]; exact List.mem_cons_self ..)
  have minus : c ≠ '-' := by
    rintro rfl
    cases digit
  have value (steps : ℕ) : Source.valueOf (steps + 1) (Nat.toDigits 10 n) =
      (.number (.integer n), some []) := by
    rw [← Source.numberRest_toDigits word, eq, Source.valueOf_numeric numeric, if_neg minus,
      if_pos digit]
  unfold ReadsBack Json.ofText Source.readText Json.text
  rw [String.toList_ofList, Json.chars, Numeral.chars, chars]
  dsimp only
  rw [value]
  rfl

end Handoff

import Handoff.Proofs.Number.Text
import Mathlib.Data.List.DropRight
/-!
# Numbers in a stylesheet

A number in a stylesheet is rounded to three decimals, and what says nothing is dropped: zeros at the
end of the decimals, a point that nothing follows, and the sign of zero. Whole numbers are written
without a detour, but the detour would give the same text.

Results:
* `trimFraction_point`, `value_trimFraction`: dropping zeros behind a point keeps the number.
* `thousandths_isNumeral`, `denoted_thousandths`: the form of a rounded number, and what it stands for.
* `wholeText_eq_thousandths`: the detour gives a whole number the same text.
* `css_isNumeral`: all of it, for every finite number.
-/
namespace Handoff.Number

open Decimal

/-! ## Numerals -/

/-- A zero, or digits of which the first is not zero. -/
def IsNatural (cs : List Char) : Prop :=
  cs = ['0'] ∨ ∃ d ds, cs = d :: ds ∧ d.isDigit = true ∧ d ≠ '0' ∧ AllDigits ds

/-- Nothing, or a point with so many decimals at most, of which the last is not zero. -/
def IsFraction (places : ℕ) (cs : List Char) : Prop :=
  cs = [] ∨ ∃ ds d, cs = '.' :: (ds ++ [d]) ∧ AllDigits ds ∧ d.isDigit = true ∧ d ≠ '0' ∧
    ds.length < places

/-- The texts that match `-?(0|[1-9][0-9]*)(\.[0-9]{0,2}[1-9])?`. -/
def IsNumeral (cs : List Char) : Prop :=
  ∃ sign whole fraction, cs = sign ++ whole ++ fraction ∧ (sign = [] ∨ sign = ['-']) ∧
    IsNatural whole ∧ IsFraction 3 fraction

/-- The number that a text with or without a sign stands for. -/
def denoted : List Char → ℚ
  | '-' :: cs => -(readPoint cs).value
  | cs => (readPoint cs).value

def Exact.toRat (v : Exact) : ℚ :=
  if v.negative then -v.magnitude else v.magnitude

theorem isNatural_toDigits (n : ℕ) : IsNatural (Nat.toDigits 10 n) := by
  rcases Nat.eq_zero_or_pos n with rfl | pos
  · exact .inl rfl
  · obtain ⟨d, ds, eq⟩ := List.exists_cons_of_ne_nil (Nat.toDigits_ne_nil (b := 10) (n := n))
    have all := allDigits_toDigits n
    have lead := head?_toDigits_ne pos
    rw [eq] at all lead
    exact .inr ⟨d, ds, eq, all d (List.mem_cons_self ..), fun zero => lead (congrArg some zero),
      fun c hc => all c (List.mem_cons_of_mem _ hc)⟩

/-! ## Zeros at the end -/

/-- A point in front of decimals, if there are any. -/
def pointed : List Char → List Char
  | [] => []
  | ds => '.' :: ds

theorem dropEnd_concat (p : Char → Bool) (cs : List Char) (c : Char) :
    dropEnd p (cs ++ [c]) = if p c then dropEnd p cs else cs ++ [c] :=
  List.rdropWhile_concat p cs c

/-- Only the decimals lose zeros, and the point goes when they lose all. -/
theorem trimFraction_point {whole fraction : List Char} (hw : AllDigits whole)
    (hf : AllDigits fraction) : trimFraction (whole ++ '.' :: fraction) =
      whole ++ pointed (dropEnd (· == '0') fraction) := by
  unfold trimFraction
  induction fraction using List.reverseRecOn with
  | nil =>
    have noPoint : dropEnd (· == '.') whole = whole := by
      refine List.rdropWhile_eq_self_iff.mpr fun some => ?_
      have last := hw _ (List.getLast_mem some)
      intro point
      rw [eq_of_beq point] at last
      cases last
    rw [dropEnd_concat, if_neg (by decide), dropEnd_concat, if_pos (by decide), noPoint]
    exact (List.append_nil _).symm
  | append_singleton ds d ih =>
    have digit : d.isDigit = true := hf d (by simp)
    have front : AllDigits ds := fun c hc => hf c (List.mem_append_left _ hc)
    rw [← List.cons_append, ← List.append_assoc, dropEnd_concat, dropEnd_concat]
    by_cases zero : d = '0'
    · rw [if_pos (beq_iff_eq.mpr zero), if_pos (beq_iff_eq.mpr zero)]
      exact ih front
    · have noPoint : ¬(d == '.') = true := by
        intro point
        rw [eq_of_beq point] at digit
        cases digit
      rw [if_neg (fun e => zero (eq_of_beq e)), if_neg (fun e => zero (eq_of_beq e)),
        dropEnd_concat, if_neg noPoint, List.append_assoc, List.cons_append]
      cases ds <;> rfl

theorem isFraction_pointed {ds : List Char} (h : AllDigits ds) :
    IsFraction ds.length (pointed (dropEnd (· == '0') ds)) := by
  have front : dropEnd (· == '0') ds <+: ds := List.rdropWhile_prefix _ ds
  have digits : AllDigits (dropEnd (· == '0') ds) := fun c hc => h c (front.subset hc)
  rcases List.eq_nil_or_concat (dropEnd (· == '0') ds) with none | ⟨first, last, eq⟩
  · rw [none]
    exact .inl rfl
  · have some : dropEnd (· == '0') ds ≠ [] := by
      rw [eq, List.concat_eq_append]
      exact List.append_ne_nil_of_right_ne_nil _ (List.cons_ne_nil _ _)
    have nonzero := List.rdropWhile_last_not (· == '0') ds some
    have short := front.length_le
    rw [List.concat_eq_append] at eq
    rw [eq] at digits short
    have same : (dropEnd (· == '0') ds).getLast some = last := by
      simp only [eq, List.getLast_append_singleton]
    refine .inr ⟨first, last, ?_, fun c hc => digits c (List.mem_append_left _ hc),
      digits last (by simp), ?_, ?_⟩
    · rw [eq]
      cases first <;> rfl
    · rintro rfl
      exact nonzero (beq_iff_eq.mpr same)
    · rw [List.length_append] at short
      exact short

theorem exists_zeros (ds : List Char) :
    ∃ n, ds = dropEnd (· == '0') ds ++ List.replicate n '0' := by
  induction ds using List.reverseRecOn with
  | nil => exact ⟨0, rfl⟩
  | append_singleton ds d ih =>
    rw [dropEnd_concat]
    split
    · next zero =>
      obtain ⟨n, eq⟩ := ih
      refine ⟨n + 1, ?_⟩
      rw [List.replicate_succ', ← List.append_assoc, ← eq, eq_of_beq zero]
    · exact ⟨0, (List.append_nil _).symm⟩

theorem value_pointed {whole kept : List Char} (hw : AllDigits whole) :
    (readPoint (whole ++ pointed kept)).value =
      (⟨Nat.ofDigitChars 10 (whole ++ kept) 0, -(kept.length : ℤ)⟩ : Decimal).value := by
  cases kept with
  | nil =>
    rw [pointed, List.append_nil, readPoint_unmarked (hw.not_mem rfl)]
    rfl
  | cons d ds =>
    rw [pointed, readPoint_mark (hw.not_mem rfl)]
    exact List.cons_ne_nil _ _

/-- Zeros at the end of the decimals say nothing. -/
theorem value_trimFraction {whole fraction : List Char} (hw : AllDigits whole)
    (hf : AllDigits fraction) : (readPoint (trimFraction (whole ++ '.' :: fraction))).value =
      Nat.ofDigitChars 10 (whole ++ fraction) 0 / 10 ^ fraction.length := by
  rw [trimFraction_point hw hf]
  obtain ⟨n, eq⟩ := exists_zeros fraction
  generalize dropEnd (· == '0') fraction = kept at *
  rw [value_pointed hw, ← value_zeros _ n, List.append_assoc, ← eq]
  have places : -(kept.length : ℤ) - n = -(fraction.length : ℤ) := by
    rw [eq, List.length_append, List.length_replicate]
    omega
  rw [places, Decimal.value, zpow_neg, zpow_natCast, ← div_eq_mul_inv]

/-! ## Three decimals -/

/-- The last digits of a number, zeros in front of them. -/
def lastDigits (places n : ℕ) : List Char :=
  List.replicate (places - (Nat.toDigits 10 n).length) '0' ++ Nat.toDigits 10 n

theorem allDigits_lastDigits (places n : ℕ) : AllDigits (lastDigits places n) :=
  (allDigits_zeros _).append (allDigits_toDigits n)

theorem length_lastDigits {places n : ℕ} (pos : 0 < places) (h : n < 10 ^ places) :
    (lastDigits places n).length = places := by
  have short := (Nat.length_toDigits_le_iff (by decide) pos).mpr h
  rw [lastDigits, List.length_append, List.length_replicate]
  omega

theorem ofDigitChars_lastDigits (places n : ℕ) :
    Nat.ofDigitChars 10 (lastDigits places n) 0 = n := by
  rw [lastDigits, Nat.ofDigitChars_append, Nat.ofDigitChars_replicate_zero, Nat.mul_zero,
    Nat.ofDigitChars_ten_toDigits]

/-- A quotient rounded to a number of decimals, as a whole number of units of the last one. -/
def units (places num den : ℕ) : ℕ := divRound .toEven (num * 10 ^ places) den

theorem toList_fixedQuotient (places num den : ℕ) :
    (fixedQuotient places num den).toList =
      Nat.toDigits 10 (units places num den / 10 ^ places) ++
        '.' :: lastDigits places (units places num den % 10 ^ places) := by
  unfold fixedQuotient
  dsimp only
  rw [String.toList_append, String.toList_append, Nat.toString_eq_repr, Nat.toList_repr,
    List.append_assoc]
  simp only [String.toList_ofList]
  rfl

/-- The digits before and behind the point together are those of the units. -/
theorem ofDigitChars_units {places : ℕ} (pos : 0 < places) (n : ℕ) :
    Nat.ofDigitChars 10 (Nat.toDigits 10 (n / 10 ^ places) ++ lastDigits places (n % 10 ^ places)) 0 =
      n := by
  have low : n % 10 ^ places < 10 ^ places := Nat.mod_lt _ (by positivity)
  rw [Nat.ofDigitChars_append, Nat.ofDigitChars_ten_toDigits, Nat.ofDigitChars_eq_ofDigitChars_zero,
    length_lastDigits pos low, ofDigitChars_lastDigits]
  exact Nat.div_add_mod n _

theorem abs_units_sub_le (places num : ℕ) {den : ℕ} (pos : 0 < den) :
    |(units places num den : ℚ) / 10 ^ places - num / den| ≤ 1 / (2 * 10 ^ places) := by
  obtain ⟨high, low⟩ := divRound_error .toEven (num * 10 ^ places) pos
  have high : (2 : ℚ) * (units places num den * den) ≤ 2 * (num * 10 ^ places) + den := by
    exact_mod_cast high
  have low : (2 : ℚ) * (num * 10 ^ places) ≤ 2 * (units places num den * den) + den := by
    exact_mod_cast low
  have den_pos : (0 : ℚ) < den := by exact_mod_cast pos
  have ten_pos : (0 : ℚ) < 10 ^ places := by positivity
  rw [div_sub_div _ _ ten_pos.ne' den_pos.ne', abs_div, abs_of_pos (mul_pos ten_pos den_pos),
    div_le_div_iff₀ (mul_pos ten_pos den_pos) (by positivity), one_mul]
  rcases abs_cases ((units places num den : ℚ) * den - 10 ^ places * num) with ⟨eq, -⟩ | ⟨eq, -⟩ <;>
    rw [eq] <;> nlinarith

theorem value_readPoint_zero : (readPoint ['0']).value = 0 := by
  rw [show readPoint ['0'] = ⟨0, 0⟩ from rfl, Decimal.value, Nat.cast_zero, zero_mul]

namespace Exact

variable (v : Exact)

def rounded : ℕ := units 3 v.numerator v.denominator

/-- The text of the rounded number without its sign. -/
def trimmed : List Char :=
  trimFraction (fixedQuotient 3 v.numerator v.denominator).toList

theorem trimmed_eq : v.trimmed = Nat.toDigits 10 (v.rounded / 1000) ++
    pointed (dropEnd (· == '0') (lastDigits 3 (v.rounded % 1000))) := by
  rw [trimmed, toList_fixedQuotient]
  exact trimFraction_point (allDigits_toDigits _) (allDigits_lastDigits _ _)

theorem value_trimmed : (readPoint v.trimmed).value = v.rounded / 1000 := by
  have low : units 3 v.numerator v.denominator % 10 ^ 3 < 10 ^ 3 := Nat.mod_lt _ (by decide)
  rw [trimmed, toList_fixedQuotient,
    value_trimFraction (allDigits_toDigits _) (allDigits_lastDigits _ _),
    ofDigitChars_units (by decide), length_lastDigits (by decide) low]
  norm_num [rounded]

theorem isFraction_trimmed :
    IsFraction 3 (pointed (dropEnd (· == '0') (lastDigits 3 (v.rounded % 1000)))) := by
  have low : v.rounded % 1000 < 10 ^ 3 := Nat.mod_lt _ (by decide)
  have form := isFraction_pointed (allDigits_lastDigits 3 (v.rounded % 1000))
  rwa [length_lastDigits (by decide) low] at form

theorem isDigit_of_head?_trimmed {c : Char} (h : v.trimmed.head? = some c) : c.isDigit = true := by
  rw [trimmed_eq, List.head?_append_of_ne_nil _ Nat.toDigits_ne_nil] at h
  exact allDigits_toDigits _ c (List.mem_of_mem_head? h)

theorem denoted_trimmed : denoted v.trimmed = v.rounded / 1000 := by
  rw [← value_trimmed]
  unfold denoted
  split
  · next cs eq =>
    have digit := v.isDigit_of_head?_trimmed (congrArg List.head? eq)
    cases digit
  · rfl

end Exact

theorem toList_sign (negative : Bool) :
    (if negative then "-" else "").toList = if negative then ['-'] else [] := by
  cases negative <;> rfl

theorem toList_thousandths (v : Exact) : (thousandths v).toList =
    (if v.negative && v.trimmed != ['0'] then ['-'] else []) ++ v.trimmed := by
  unfold thousandths
  dsimp only
  rw [String.toList_append, String.toList_ofList, toList_sign]
  rfl

/-- A rounded number is written as a numeral. -/
theorem thousandths_isNumeral (v : Exact) : IsNumeral (thousandths v).toList := by
  refine ⟨if v.negative && v.trimmed != ['0'] then ['-'] else [], _, _, ?_, ?_,
    isNatural_toDigits (v.rounded / 1000), v.isFraction_trimmed⟩
  · rw [toList_thousandths, List.append_assoc, ← v.trimmed_eq]
  · split
    · exact .inr rfl
    · exact .inl rfl

/-- A rounded number that is written with a sign is not zero. -/
theorem thousandths_ne (v : Exact) : thousandths v ≠ "-0" := by
  intro eq
  have chars : (thousandths v).toList = ['-', '0'] := congrArg String.toList eq
  rw [toList_thousandths] at chars
  split at chars
  · next sign =>
    rw [List.singleton_append] at chars
    rw [(List.cons.inj chars).2, Bool.and_eq_true] at sign
    exact absurd sign.2 (by decide)
  · rw [List.nil_append] at chars
    cases v.isDigit_of_head?_trimmed (congrArg List.head? chars)

/-- A rounded number is written as its thousandths. -/
theorem denoted_thousandths (v : Exact) : denoted (thousandths v).toList =
    if v.negative then -((v.rounded : ℚ) / 1000) else v.rounded / 1000 := by
  rw [toList_thousandths]
  by_cases negative : v.negative = true
  · rw [negative, Bool.true_and, if_pos rfl]
    by_cases zero : v.trimmed = ['0']
    · have none : (v.rounded : ℚ) / 1000 = 0 := by
        rw [← v.value_trimmed, zero, value_readPoint_zero]
      rw [zero, none, neg_zero]
      exact value_readPoint_zero
    · rw [if_pos (bne_iff_ne.mpr zero), List.singleton_append, denoted, v.value_trimmed]
  · rw [Bool.not_eq_true] at negative
    rw [negative, Bool.false_and, if_neg Bool.false_ne_true, if_neg Bool.false_ne_true,
      List.nil_append, v.denoted_trimmed]

theorem abs_denoted_sub_le (v : Exact) :
    |denoted (thousandths v).toList - v.toRat| ≤ 0.0005 := by
  have near := abs_units_sub_le 3 v.numerator v.denominator_pos
  rw [← v.magnitude_eq_div] at near
  have near : |(v.rounded : ℚ) / 1000 - v.magnitude| ≤ 0.0005 := by
    norm_num at near ⊢
    exact near
  rw [denoted_thousandths, Exact.toRat]
  split
  · rw [neg_sub_neg, abs_sub_comm]
    exact near
  · exact near

/-! ## Whole numbers -/

/-- Rounding keeps a whole number. -/
theorem Exact.rounded_of_isWhole {v : Exact} (h : v.isWhole = true) :
    v.rounded = v.whole * 1000 := by
  unfold Exact.rounded units
  rw [← Exact.whole_mul_denominator h, Nat.mul_right_comm]
  exact divRound_mul .toEven _ v.denominator_pos

theorem toList_wholeText (v : Exact) : (wholeText v).toList =
    (if v.negative && v.whole != 0 then ['-'] else []) ++ Nat.toDigits 10 v.whole := by
  rw [wholeText, String.toList_append, toList_sign, Nat.toString_eq_repr, Nat.toList_repr]

/-- The shortcut for whole numbers gives the text that rounding would give. -/
theorem wholeText_eq_thousandths {v : Exact} (h : v.isWhole = true) :
    wholeText v = thousandths v := by
  have whole : v.trimmed = Nat.toDigits 10 v.whole := by
    rw [v.trimmed_eq, Exact.rounded_of_isWhole h, Nat.mul_div_cancel _ (by decide),
      Nat.mul_mod_left]
    exact List.append_nil _
  have zero : Nat.toDigits 10 v.whole = ['0'] ↔ v.whole = 0 := by
    constructor
    · intro eq
      have value := congrArg (Nat.ofDigitChars 10 · 0) eq
      rwa [Nat.ofDigitChars_ten_toDigits] at value
    · rintro eq
      rw [eq]
      rfl
  apply String.toList_inj.mp
  rw [toList_wholeText, toList_thousandths, whole]
  have signs : (v.whole != 0) = (Nat.toDigits 10 v.whole != ['0']) := by
    rw [Bool.eq_iff_iff, bne_iff_ne, bne_iff_ne]
    exact (not_congr zero).symm
  rw [signs]

/-- The text of a finite number in a stylesheet, by rounding alone. -/
theorem css_eq_thousandths {x : Float} {v : Exact} (h : shape x = .finite v) :
    css x = thousandths v := by
  unfold css
  rw [h]
  dsimp only
  split
  · next short =>
    rw [Bool.and_eq_true] at short
    exact wholeText_eq_thousandths short.1
  · rfl

/-- A finite number is written as a numeral that is half a thousandth away from it at most. Nothing is
written as a negative zero. The text is the rounded one, which for whole numbers is the same as that of
the shortcut: all their digits, however many. -/
theorem css_isNumeral {x : Float} (finite : x.isFinite = true) :
    ∃ v, shape x = .finite v ∧
      IsNumeral (css x).toList ∧ css x ≠ "-0" ∧ |denoted (css x).toList - v.toRat| ≤ 0.0005 ∧
      css x = thousandths v ∧ (v.isWhole = true → css x = wholeText v) ∧
      (v.isWhole = true → (css x).toList =
        (if v.negative && v.whole != 0 then ['-'] else []) ++ Nat.toDigits 10 v.whole) := by
  obtain ⟨v, read⟩ := (isFinite_iff_shape x).mp finite
  have rounded := css_eq_thousandths read
  have whole (h : v.isWhole = true) : css x = wholeText v := by
    rw [rounded, wholeText_eq_thousandths h]
  refine ⟨v, read, ?_, ?_, ?_, rounded, whole, fun h => ?_⟩
  · rw [rounded]
    exact thousandths_isNumeral v
  · rw [rounded]
    exact thousandths_ne v
  · rw [rounded]
    exact abs_denoted_sub_le v
  · rw [whole h, toList_wholeText]

/-- Half a thousandth is as far as it gets: the last decimal goes to the even digit. -/
theorem css_isNumeral_tie :
    (-2.0625 : Float).isFinite = true ∧ css (-2.0625) = "-2.062" ∧
      ∃ v, shape (-2.0625) = .finite v ∧ v.toRat = -2.0625 ∧
        IsNumeral (css (-2.0625)).toList ∧ |denoted (css (-2.0625)).toList - v.toRat| ≤ 0.0005 := by
  have finite : (-2.0625 : Float).isFinite = true := by decide +kernel
  obtain ⟨v, read, form, -, near, -⟩ := css_isNumeral finite
  have value : shape (-2.0625) = .finite ⟨true, 4644337115725824, -51⟩ := by decide +kernel
  cases value.symm.trans read
  refine ⟨finite, by decide +kernel, _, read, ?_, form, near⟩
  norm_num [Exact.toRat, Exact.magnitude]

end Handoff.Number

import Handoff.Number.Text
import Handoff.Proofs.Number.Shortest
import Mathlib.Data.List.TakeWhile
/-!
# Number texts tell numbers apart

The text of a number in JSON has five layouts. `reading` reads all of them back as a decimal, by the
point and the exponent alone, and never looks at which layout was chosen.

Results:
* `value_reading`: the text of a decimal stands for its value.
* `json_text_inj`: finite numbers with one text are the same number, the sign of zero included.
* `json_text_isReal`: the text of a finite number has a point or an exponent, and nothing in it
  but digits, signs, points and exponent marks.
-/
namespace Handoff.Number

open Decimal

/-! ## Reading a text -/

/-- The number of digits with at most one point among them. -/
def readPoint (cs : List Char) : Decimal :=
  let fraction := (cs.dropWhile (· ≠ '.')).drop 1
  ⟨Nat.ofDigitChars 10 (cs.takeWhile (· ≠ '.') ++ fraction) 0, -(fraction.length : ℤ)⟩

/-- The whole number of digits that may follow a sign. -/
def readSigned : List Char → ℤ
  | '-' :: cs => -(Nat.ofDigitChars 10 cs 0 : ℤ)
  | cs => (Nat.ofDigitChars 10 cs 0 : ℤ)

/-- The number of a text without a sign. -/
def reading (cs : List Char) : Decimal :=
  let mantissa := readPoint (cs.takeWhile (· ≠ 'e'))
  ⟨mantissa.digits, mantissa.exponent + readSigned ((cs.dropWhile (· ≠ 'e')).drop 1)⟩

theorem takeWhile_mark {a b : List Char} {c : Char} (h : c ∉ a) :
    (a ++ c :: b).takeWhile (· ≠ c) = a := by
  have all : ∀ x ∈ a, decide (x ≠ c) = true := fun x hx => decide_eq_true fun e => h (e ▸ hx)
  rw [List.takeWhile_append_of_pos all, List.takeWhile_cons_of_neg (by simp), List.append_nil]

theorem dropWhile_mark {a b : List Char} {c : Char} (h : c ∉ a) :
    (a ++ c :: b).dropWhile (· ≠ c) = c :: b := by
  have all : ∀ x ∈ a, decide (x ≠ c) = true := fun x hx => decide_eq_true fun e => h (e ▸ hx)
  rw [List.dropWhile_append_of_pos all, List.dropWhile_cons_of_neg (by simp)]

theorem takeWhile_unmarked {a : List Char} {c : Char} (h : c ∉ a) : a.takeWhile (· ≠ c) = a := by
  rw [List.takeWhile_eq_self_iff]
  exact fun x hx => decide_eq_true fun e => h (e ▸ hx)

theorem dropWhile_unmarked {a : List Char} {c : Char} (h : c ∉ a) : a.dropWhile (· ≠ c) = [] := by
  rw [List.dropWhile_eq_nil_iff]
  exact fun x hx => decide_eq_true fun e => h (e ▸ hx)

theorem readPoint_mark {a b : List Char} (h : '.' ∉ a) :
    readPoint (a ++ '.' :: b) = ⟨Nat.ofDigitChars 10 (a ++ b) 0, -(b.length : ℤ)⟩ := by
  simp only [readPoint, takeWhile_mark h, dropWhile_mark h, List.drop_one, List.tail_cons]

theorem readPoint_unmarked {a : List Char} (h : '.' ∉ a) :
    readPoint a = ⟨Nat.ofDigitChars 10 a 0, 0⟩ := by
  simp only [readPoint, takeWhile_unmarked h, dropWhile_unmarked h, List.drop_nil,
    List.append_nil, List.length_nil, Nat.cast_zero, neg_zero]

theorem reading_mark {a b : List Char} (h : 'e' ∉ a) :
    reading (a ++ 'e' :: b) = ⟨(readPoint a).digits, (readPoint a).exponent + readSigned b⟩ := by
  simp only [reading, takeWhile_mark h, dropWhile_mark h, List.drop_one, List.tail_cons]

theorem reading_unmarked {a : List Char} (h : 'e' ∉ a) : reading a = readPoint a := by
  simp only [reading, takeWhile_unmarked h, dropWhile_unmarked h, List.drop_nil]
  rw [show readSigned [] = 0 from rfl, add_zero]

/-! ## Digits -/

def AllDigits (cs : List Char) : Prop := ∀ c ∈ cs, c.isDigit = true

theorem allDigits_toDigits (n : ℕ) : AllDigits (Nat.toDigits 10 n) :=
  fun _ hc => Nat.isDigit_of_mem_toDigits (by norm_num) (by norm_num) hc

theorem head?_toDigits_ne {n : ℕ} (pos : 0 < n) : (Nat.toDigits 10 n).head? ≠ some '0' := by
  induction n using Nat.strong_induction_on with
  | _ n ih =>
    by_cases small : n < 10
    · have leads : ∀ d < 10, 0 < d → d.digitChar ≠ '0' := by decide
      rw [Nat.toDigits_of_lt_base small]
      exact fun zero => leads n small pos (Option.some.inj zero)
    · rw [Nat.toDigits_of_base_le (by decide) (by omega),
        List.head?_append_of_ne_nil _ Nat.toDigits_ne_nil]
      exact ih (n / 10) (by omega) (by omega)

theorem AllDigits.append {a b : List Char} (ha : AllDigits a) (hb : AllDigits b) :
    AllDigits (a ++ b) := fun c hc => (List.mem_append.mp hc).elim (ha c) (hb c)

theorem AllDigits.take {a : List Char} (h : AllDigits a) (n : ℕ) : AllDigits (a.take n) :=
  fun c hc => h c (List.mem_of_mem_take hc)

theorem AllDigits.drop {a : List Char} (h : AllDigits a) (n : ℕ) : AllDigits (a.drop n) :=
  fun c hc => h c (List.mem_of_mem_drop hc)

theorem allDigits_zeros (n : ℕ) : AllDigits (List.replicate n '0') := by
  intro c hc
  rw [List.eq_of_mem_replicate hc]
  rfl

theorem AllDigits.not_mem {a : List Char} (h : AllDigits a) {c : Char} (hc : c.isDigit = false) :
    c ∉ a := fun mem => by rw [h c mem] at hc; cases hc

theorem readSigned_digits {cs : List Char} (h : AllDigits cs) :
    readSigned cs = (Nat.ofDigitChars 10 cs 0 : ℤ) := by
  unfold readSigned
  split
  · exact absurd (List.mem_cons_self ..) (h.not_mem (c := '-') rfl)
  · rfl

theorem readSigned_toString (k : ℤ) : readSigned (toString k).toList = k := by
  rw [Int.toString_eq_repr, Int.repr_eq_if]
  split
  · rw [Nat.toList_repr, readSigned_digits (allDigits_toDigits _), Nat.ofDigitChars_ten_toDigits]
    omega
  · rw [String.toList_append, Nat.toList_repr]
    show -((Nat.ofDigitChars 10 (Nat.toDigits 10 (-k).toNat) 0 : ℕ) : ℤ) = k
    rw [Nat.ofDigitChars_ten_toDigits]
    omega

/-! ## Layouts -/

/-- The shapes a text without a sign can have: digits around a point, or digits with an exponent
behind them. Each says which number it stands for. -/
inductive Layout (d : Decimal) : List Char → Prop
  | pointed (a b : List Char) (first : a ≠ []) (ha : AllDigits a) (hb : AllDigits b)
      (same : (⟨Nat.ofDigitChars 10 (a ++ b) 0, -(b.length : ℤ)⟩ : Decimal).value = d.value) :
      Layout d (a ++ '.' :: b)
  | scaled (a : List Char) (k : ℤ) (first : a ≠ []) (ha : AllDigits a)
      (same : (⟨Nat.ofDigitChars 10 a 0, k⟩ : Decimal).value = d.value) :
      Layout d (a ++ 'e' :: (toString k).toList)
  | pointedScaled (a b : List Char) (k : ℤ) (first : a ≠ []) (ha : AllDigits a)
      (hb : AllDigits b)
      (same : (⟨Nat.ofDigitChars 10 (a ++ b) 0, -(b.length : ℤ) + k⟩ : Decimal).value = d.value) :
      Layout d (a ++ '.' :: b ++ 'e' :: (toString k).toList)

theorem value_zeros (cs : List Char) (n : ℕ) (k : ℤ) :
    (⟨Nat.ofDigitChars 10 (cs ++ List.replicate n '0') 0, k - n⟩ : Decimal).value =
      (⟨Nat.ofDigitChars 10 cs 0, k⟩ : Decimal).value := by
  unfold value
  rw [Nat.ofDigitChars_append, Nat.ofDigitChars_replicate_zero]
  dsimp only
  rw [zpow_sub₀ (by norm_num), zpow_natCast]
  push_cast
  field_simp

section
variable {d : Decimal} {cs : List Char}

theorem layout_behind (all : AllDigits cs) (first : cs ≠ [])
    (whole : Nat.ofDigitChars 10 cs 0 = d.digits) (h : 0 ≤ d.exponent) :
    Layout d (cs ++ List.replicate d.exponent.toNat '0' ++ '.' :: ['0']) := by
  apply Layout.pointed
  · exact List.append_ne_nil_of_left_ne_nil first _
  · exact all.append (allDigits_zeros _)
  · exact allDigits_zeros 1
  · have one := value_zeros (cs ++ List.replicate d.exponent.toNat '0') 1 0
    have zeros := value_zeros cs d.exponent.toNat d.exponent
    rw [show d.exponent - (d.exponent.toNat : ℤ) = 0 by omega, whole] at zeros
    rw [← zeros, ← one]
    rfl

theorem layout_among (all : AllDigits cs) (whole : Nat.ofDigitChars 10 cs 0 = d.digits)
    (low : 0 < (cs.length : ℤ) + d.exponent) (high : ¬0 ≤ d.exponent) :
    Layout d (cs.take ((cs.length : ℤ) + d.exponent).toNat ++
      '.' :: cs.drop ((cs.length : ℤ) + d.exponent).toNat) := by
  apply Layout.pointed
  · intro none
    have := congrArg List.length none
    rw [List.length_take, List.length_nil] at this
    omega
  · exact all.take _
  · exact all.drop _
  · rw [List.take_append_drop, whole, List.length_drop]
    congr 2
    omega

theorem layout_before (all : AllDigits cs) (whole : Nat.ofDigitChars 10 cs 0 = d.digits)
    (h : ¬0 < (cs.length : ℤ) + d.exponent) :
    Layout d (['0'] ++
      '.' :: (List.replicate (-((cs.length : ℤ) + d.exponent)).toNat '0' ++ cs)) := by
  apply Layout.pointed
  · exact List.cons_ne_nil _ _
  · exact allDigits_zeros 1
  · exact (allDigits_zeros _).append all
  · rw [← List.append_assoc, Nat.ofDigitChars_append, show ['0'] = List.replicate 1 '0' from rfl,
      ← List.replicate_add, Nat.ofDigitChars_replicate_zero, Nat.mul_zero, whole,
      List.length_append, List.length_replicate]
    congr 2
    push_cast
    omega

theorem layout_scaled {c : Char} (all : AllDigits [c])
    (whole : Nat.ofDigitChars 10 [c] 0 = d.digits) :
    Layout d ([c] ++ 'e' :: (toString d.exponent).toList) := by
  apply Layout.scaled
  · exact List.cons_ne_nil _ _
  · exact all
  · rw [whole]

theorem layout_pointedScaled {c : Char} (all : AllDigits (c :: cs))
    (whole : Nat.ofDigitChars 10 (c :: cs) 0 = d.digits) :
    Layout d ([c] ++ '.' :: cs ++ 'e' :: (toString (cs.length + d.exponent)).toList) := by
  apply Layout.pointedScaled
  · exact List.cons_ne_nil _ _
  · exact all.take 1
  · exact all.drop 1
  · rw [List.singleton_append, whole]
    congr 2
    omega

end

theorem layout_digits (d : Decimal) : Layout d (Spelling.json.digits d).toList := by
  have all := allDigits_toDigits d.digits
  have first : Nat.toDigits 10 d.digits ≠ [] := Nat.toDigits_ne_nil
  have whole : Nat.ofDigitChars 10 (Nat.toDigits 10 d.digits) 0 = d.digits :=
    Nat.ofDigitChars_ten_toDigits
  have ending : Spelling.json.wholeEnding.toList = '.' :: ['0'] := rfl
  unfold Spelling.digits
  dsimp only
  generalize Nat.toDigits 10 d.digits = cs at *
  split
  · next zero =>
    apply Layout.pointed ['0'] ['0'] (List.cons_ne_nil _ _) (allDigits_zeros 1) (allDigits_zeros 1)
    simp [value, zero, Nat.ofDigitChars]
  · split
    · split
      · next high =>
        simp only [String.toList_append, String.toList_ofList, ending]
        exact layout_behind all first whole high
      · next high =>
        split
        · next low =>
          simp only [String.toList_append, String.toList_ofList, List.append_assoc]
          exact layout_among all whole low high
        · next low =>
          simp only [String.toList_append, String.toList_ofList]
          exact layout_before all whole low
    · cases cs with
      | nil => exact absurd rfl first
      | cons c rest =>
        cases rest with
        | nil =>
          simp only [String.toList_append, String.toList_ofList]
          have h := layout_scaled all whole
          simpa using h
        | cons c' rest =>
          simp only [String.toList_append, String.toList_ofList]
          have h := layout_pointedScaled all whole
          have places : ((c :: c' :: rest).length : ℤ) + d.exponent - 1 =
            ((c' :: rest).length : ℤ) + d.exponent := by
              rw [List.length_cons]
              omega
          rw [places]
          simpa using h

theorem not_mem_pointed {a b : List Char} (ha : AllDigits a) (hb : AllDigits b) :
    'e' ∉ a ++ '.' :: b := by
  rw [List.mem_append, List.mem_cons]
  rintro (mem | eq | mem)
  · exact ha.not_mem rfl mem
  · exact absurd eq (by decide)
  · exact hb.not_mem rfl mem

theorem Layout.value_reading {d : Decimal} {cs : List Char} (h : Layout d cs) :
    (reading cs).value = d.value := by
  cases h with
  | pointed a b first ha hb same =>
    rw [reading_unmarked (not_mem_pointed ha hb), readPoint_mark (ha.not_mem rfl), same]
  | scaled a k first ha same =>
    rw [reading_mark (ha.not_mem rfl), readPoint_unmarked (ha.not_mem rfl), readSigned_toString,
      zero_add, same]
  | pointedScaled a b k first ha hb same =>
    rw [reading_mark (not_mem_pointed ha hb), readPoint_mark (ha.not_mem rfl),
      readSigned_toString, same]

/-- The text of a decimal stands for its value. -/
theorem value_reading (d : Decimal) :
    (reading (Spelling.json.digits d).toList).value = d.value :=
  (layout_digits d).value_reading

/-! ## The characters of a text -/

def isNumeric (c : Char) : Bool :=
  c.isDigit || c == '-' || c == '.' || c == 'e'

theorem AllDigits.isNumeric {cs : List Char} (h : AllDigits cs) :
    ∀ c ∈ cs, isNumeric c = true := by
  intro c hc
  unfold Number.isNumeric
  rw [h c hc]
  rfl

theorem isNumeric_toString (k : ℤ) : ∀ c ∈ (toString k).toList, isNumeric c = true := by
  rw [Int.toString_eq_repr, Int.repr_eq_if]
  split
  · rw [Nat.toList_repr]
    exact (allDigits_toDigits _).isNumeric
  · rw [String.toList_append, Nat.toList_repr]
    intro c hc
    rcases List.mem_cons.mp hc with rfl | hc
    · rfl
    · exact (allDigits_toDigits _).isNumeric c hc

theorem not_mem_toString (k : ℤ) : '.' ∉ (toString k).toList ∧ 'e' ∉ (toString k).toList := by
  have digits (n : ℕ) := allDigits_toDigits n
  rw [Int.toString_eq_repr, Int.repr_eq_if]
  split
  · rw [Nat.toList_repr]
    exact ⟨(digits _).not_mem rfl, (digits _).not_mem rfl⟩
  · rw [String.toList_append, Nat.toList_repr]
    refine ⟨fun mem => ?_, fun mem => ?_⟩
    · rcases List.mem_cons.mp mem with eq | mem
      · exact absurd eq (by decide)
      · exact (digits _).not_mem rfl mem
    · rcases List.mem_cons.mp mem with eq | mem
      · exact absurd eq (by decide)
      · exact (digits _).not_mem rfl mem

theorem Layout.isNumeric {d : Decimal} {cs : List Char} (h : Layout d cs) :
    ∀ c ∈ cs, isNumeric c = true := by
  cases h with
  | pointed a b first ha hb same =>
    intro c hc
    rcases List.mem_append.mp hc with hc | hc
    · exact ha.isNumeric c hc
    · rcases List.mem_cons.mp hc with rfl | hc
      · rfl
      · exact hb.isNumeric c hc
  | scaled a k first ha same =>
    intro c hc
    rcases List.mem_append.mp hc with hc | hc
    · exact ha.isNumeric c hc
    · rcases List.mem_cons.mp hc with rfl | hc
      · rfl
      · exact isNumeric_toString k c hc
  | pointedScaled a b k first ha hb same =>
    intro c hc
    rcases List.mem_append.mp hc with hc | hc
    · rcases List.mem_append.mp hc with hc | hc
      · exact ha.isNumeric c hc
      · rcases List.mem_cons.mp hc with rfl | hc
        · rfl
        · exact hb.isNumeric c hc
    · rcases List.mem_cons.mp hc with rfl | hc
      · rfl
      · exact isNumeric_toString k c hc

theorem Layout.begins {d : Decimal} {cs : List Char} (h : Layout d cs) :
    (∃ c rest, cs = c :: rest ∧ c.isDigit = true) ∧ ('.' ∈ cs ∨ 'e' ∈ cs) := by
  have digit {a r : List Char} (first : a ≠ []) (ha : AllDigits a) :
      ∃ c rest, a ++ r = c :: rest ∧ c.isDigit = true := by
    obtain ⟨c, rest, rfl⟩ := List.exists_cons_of_ne_nil first
    exact ⟨c, rest ++ r, rfl, ha c (List.mem_cons_self ..)⟩
  cases h with
  | pointed a b first ha hb same => exact ⟨digit first ha, .inl (by simp)⟩
  | scaled a k first ha same => exact ⟨digit first ha, .inr (by simp)⟩
  | pointedScaled a b k first ha hb same =>
    rw [List.append_assoc]
    exact ⟨digit first ha, .inl (by simp)⟩

/-! ## The text of a number -/

theorem json_text {x : Float} {v : Exact} (h : shape x = .finite v) :
    (Spelling.json.text x).toList =
      (if v.negative then ['-'] else []) ++ (Spelling.json.digits (shortest v)).toList := by
  unfold Spelling.text
  rw [h, String.toList_append]
  cases v.negative <;> rfl

/-- The text of a finite number is made of digits, signs, points and exponent marks, and has a point
or an exponent. -/
theorem json_text_isReal {x : Float} (h : x.isFinite = true) :
    (∀ c ∈ (Spelling.json.text x).toList, isNumeric c = true) ∧
      ('.' ∈ (Spelling.json.text x).toList ∨ 'e' ∈ (Spelling.json.text x).toList) := by
  obtain ⟨v, hv⟩ := (isFinite_iff_shape x).mp h
  have layout := layout_digits (shortest v)
  rw [json_text hv]
  refine ⟨fun c hc => ?_, ?_⟩
  · rcases List.mem_append.mp hc with hc | hc
    · split at hc
      · rw [List.mem_singleton.mp hc]
        rfl
      · cases hc
    · exact layout.isNumeric c hc
  · exact layout.begins.2.imp (List.mem_append_right _) (List.mem_append_right _)

theorem value_shortest_zero {v : Exact} (zero : v.mantissa = 0) : (shortest v).value = 0 := by
  unfold shortest
  rw [if_pos zero, value]
  simp

theorem value_shortest_pos {v : Exact} (hv : v.Canonical) (pos : v.mantissa ≠ 0) :
    0 < (shortest v).value := by
  have low := (shortest_rounds hv pos).le.1
  have unit : (0 : ℚ) < 2 ^ (v.exponent - 2) := by positivity
  have gap := v.gapBelow_le
  have whole : 0 < 4 * v.mantissa - v.gapBelow := by omega
  have : 0 < v.lowEnd := mul_pos (by exact_mod_cast whole) unit
  linarith

/-- The decimal of a magnitude tells which magnitude it is. -/
theorem value_shortest_inj {v w : Exact} (hv : v.Canonical) (hw : w.Canonical)
    (h : (shortest v).value = (shortest w).value) :
    v.mantissa = w.mantissa ∧ v.exponent = w.exponent := by
  by_cases zv : v.mantissa = 0
  · have zw : w.mantissa = 0 := by
      by_contra pos
      have := value_shortest_pos hw pos
      rw [← h, value_shortest_zero zv] at this
      exact lt_irrefl _ this
    have bottom {u : Exact} (hu : u.Canonical) (zero : u.mantissa = 0) : u.exponent = -1074 := by
      by_contra above
      have := hu.full above
      omega
    exact ⟨zv.trans zw.symm, (bottom hv zv).trans (bottom hw zw).symm⟩
  · have pw : w.mantissa ≠ 0 := by
      intro zw
      have := value_shortest_pos hv zv
      rw [h, value_shortest_zero zw] at this
      exact lt_irrefl _ this
    have inV := shortest_rounds hv zv
    rw [h] at inV
    exact Exact.rounds_unique hv hw inV (shortest_rounds hw pw)

/-- Finite numbers with one text are the same number, the sign of zero included. -/
theorem json_text_inj {x y : Float} (hx : x.isFinite = true) (hy : y.isFinite = true)
    (h : (Spelling.json.text x).toList = (Spelling.json.text y).toList) : x = y := by
  obtain ⟨v, hv⟩ := (isFinite_iff_shape x).mp hx
  obtain ⟨w, hw⟩ := (isFinite_iff_shape y).mp hy
  rw [json_text hv, json_text hw] at h
  obtain ⟨c, rest, ev, dv⟩ := (layout_digits (shortest v)).begins.1
  obtain ⟨d, rest', ew, dw⟩ := (layout_digits (shortest w)).begins.1
  have parts : v.negative = w.negative ∧
      (Spelling.json.digits (shortest v)).toList = (Spelling.json.digits (shortest w)).toList := by
    cases nv : v.negative <;> cases nw : w.negative <;> rw [nv, nw] at h
    · exact ⟨rfl, h⟩
    · rw [ev] at h
      rw [(List.cons.inj h).1] at dv
      cases dv
    · rw [ew] at h
      rw [← (List.cons.inj h).1] at dw
      cases dw
    · exact ⟨rfl, (List.cons.inj h).2⟩
  have same : (shortest v).value = (shortest w).value := by
    rw [← value_reading (shortest v), parts.2, value_reading]
  obtain ⟨mantissa, exponent⟩ :=
    value_shortest_inj (canonical_of_shape hv) (canonical_of_shape hw) same
  have eq : v = w := by
    cases v
    cases w
    congr
    exact parts.1
  exact shape_inj hv (eq ▸ hw)

end Handoff.Number

import Handoff.Number.Scaling
import Handoff.Proofs.Number.Packing
/-!
# What is read is a finite number

A number text is read as a word that is multiplied with a power of ten or divided by one. A product
is refused when it leaves the range; a quotient cannot leave it, as every power that divides is at
least ten, and rounding moves the size of a number by one bit at most.

Results:
* `isFinite_mul`, `isFinite_div`, `isFinite_neg`: operations that stay in the range.
* `isFinite_ofInt`: integers that fit a word are finite numbers.
* `isFinite_scale`: what is read off digits and an exponent is finite.
-/
namespace Handoff.Number
open Float.Model UnpackedFloat

/-! ## Operations -/

abbrev unpacked (x : Float) : UnpackedFloat := x.toModel.unpack

theorem eq_of_isFinite {f : UnpackedFloat} (h : f.isFinite = true) :
    (∃ s, f = .zero s) ∨ ∃ s m e pos, f = .finite s m e pos := by
  cases f with
  | infinity s => cases h
  | notANumber => cases h
  | zero s => exact .inl ⟨s, rfl⟩
  | finite s m e pos => exact .inr ⟨s, m, e, pos, rfl⟩

theorem isFinite_neg {x : Float} (h : x.isFinite = true) : (-x).isFinite = true := by
  show (repack (unpacked x).neg).isFinite = true
  obtain ⟨s, eq⟩ | ⟨s, m, e, pos, eq⟩ := eq_of_isFinite (f := unpacked x) h
  · rw [eq]
    exact congrArg UnpackedFloat.isFinite (repack_zero _)
  · rw [eq]
    exact isFinite_repack (unpack_bounds eq).2

theorem isFinite_or_isInf_repack {f : UnpackedFloat} (h : f.isFinite = true) :
    (repack f).isFinite = true ∨ (repack f).isInf = true := by
  obtain ⟨s, rfl⟩ | ⟨s, m, e, pos, rfl⟩ := eq_of_isFinite h
  · rw [repack_zero]
    exact .inl rfl
  · by_cases high : e ≤ 971
    · exact .inl (isFinite_repack high)
    · rw [repack, pack_finite, if_pos (by omega)]
      cases s <;> exact .inr rfl

/-- Rounding never gives more than a number. -/
theorem isFinite_round (s : Sign) (m : ℕ) (e : ℤ) (a : Accuracy) :
    (roundWithAccuracy Format.binary64 s m e a).isFinite = true := by
  obtain ⟨r, -, -, eq⟩ := round_eq s m e a
  rw [eq]
  generalize r / 2 ^ (target r (e + (target m e - e).toNat) -
    (e + (target m e - e).toNat)).toNat = rounded
  by_cases zero : rounded = 0
  · rw [dif_pos zero]
    rfl
  · rw [dif_neg zero]
    rfl

/-- A product of finite numbers is finite unless it is infinite. -/
theorem isFinite_mul {x y : Float} (hx : x.isFinite = true) (hy : y.isFinite = true)
    (small : (x * y).isInf = false) : (x * y).isFinite = true := by
  have product : (UnpackedFloat.mul Format.binary64 (unpacked x) (unpacked y)).isFinite = true := by
    obtain ⟨s, ex⟩ | ⟨s, m, e, pos, ex⟩ := eq_of_isFinite (f := unpacked x) hx <;>
      obtain ⟨s', ey⟩ | ⟨s', m', e', pos', ey⟩ := eq_of_isFinite (f := unpacked y) hy <;>
      rw [ex, ey]
    · rfl
    · rfl
    · rfl
    · exact isFinite_round ..
  refine (isFinite_or_isInf_repack product).resolve_right fun inf => ?_
  rw [show (x * y).isInf = true from inf] at small
  cases small

/-- Whether a number is finite and at least 4, whatever its sign. -/
def isLarge (x : Float) : Bool :=
  match unpacked x with
  | .finite _ m e _ => decide (3 ≤ totalExponent m e)
  | _ => false

theorem isLarge_iff {x : Float} : isLarge x = true ↔
    ∃ s m e pos, unpacked x = .finite s m e pos ∧ 3 ≤ totalExponent m e := by
  unfold isLarge
  cases unpacked x with
  | finite s m e pos =>
    show decide (3 ≤ totalExponent m e) = true ↔ _
    rw [decide_eq_true_eq]
    refine ⟨fun h => ⟨s, m, e, pos, rfl, h⟩, ?_⟩
    rintro ⟨s', m', e', pos', eq, h⟩
    cases eq
    exact h
  | _ =>
    refine iff_of_false Bool.false_ne_true ?_
    rintro ⟨s, m, e, pos, eq, -⟩
    cases eq

theorem isFinite_of_isLarge {x : Float} (h : isLarge x = true) : x.isFinite = true := by
  obtain ⟨s, m, e, pos, eq, -⟩ := isLarge_iff.mp h
  show (unpacked x).isFinite = true
  rw [eq]
  rfl

theorem totalExponent_quotient_le {m₁ m₂ k : ℕ} {e₁ e₂ e : ℤ} (h : e + k = e₁ - e₂)
    (pos₂ : 0 < m₂) (nonzero : m₁ * 2 ^ k / m₂ ≠ 0) :
    totalExponent (m₁ * 2 ^ k / m₂) e ≤ totalExponent m₁ e₁ - totalExponent m₂ e₂ + 1 := by
  have below : m₁ * 2 ^ k < 2 ^ (m₁.log2 + 1 + k) := by
    rw [pow_add]
    exact Nat.mul_lt_mul_of_pos_right Nat.lt_log2_self (Nat.two_pow_pos k)
  have above : 2 ^ (m₂.log2 + (m₁ * 2 ^ k / m₂).log2) ≤ m₁ * 2 ^ k := by
    rw [pow_add]
    calc 2 ^ m₂.log2 * 2 ^ (m₁ * 2 ^ k / m₂).log2
        ≤ m₂ * (m₁ * 2 ^ k / m₂) :=
          Nat.mul_le_mul (Nat.log2_self_le pos₂.ne') (Nat.log2_self_le nonzero)
      _ ≤ m₁ * 2 ^ k := Nat.mul_div_le ..
  have := (Nat.pow_lt_pow_iff_right (by decide)).mp (lt_of_le_of_lt above below)
  unfold totalExponent
  omega

theorem divCore_le {m₁ m₂ m : ℕ} {e₁ e₂ e : ℤ} {a : Accuracy} (pos₂ : 0 < m₂)
    (small : totalExponent m₁ e₁ - totalExponent m₂ e₂ ≤ 1021)
    (h : divCore Format.binary64 m₁ e₁ m₂ e₂ = (m, e, a)) : e ≤ 968 ∧ totalExponent m e ≤ 1022 := by
  unfold divCore at h
  simp only [Prod.mk.injEq, Nat.shiftLeft_eq, targetExponent_eq] at h
  obtain ⟨rfl, he, -⟩ := h
  have shift : e + (e₁ - e₂ - e).toNat = e₁ - e₂ := by omega
  rw [he]
  refine ⟨by omega, ?_⟩
  by_cases zero : m₁ * 2 ^ (e₁ - e₂ - e).toNat / m₂ = 0
  · rw [zero]
    unfold totalExponent
    rw [Nat.log2_zero]
    omega
  · have := totalExponent_quotient_le shift pos₂ zero
    omega

theorem div_finite (s₁ s₂ : Sign) {m₁ m₂ : ℕ} (e₁ e₂ : ℤ) (pos₁ : 0 < m₁) (pos₂ : 0 < m₂) :
    UnpackedFloat.div Format.binary64 (.finite s₁ m₁ e₁ pos₁) (.finite s₂ m₂ e₂ pos₂) =
      roundWithAccuracy Format.binary64 (s₁ / s₂) (divCore Format.binary64 m₁ e₁ m₂ e₂).1
        (divCore Format.binary64 m₁ e₁ m₂ e₂).2.1 (divCore Format.binary64 m₁ e₁ m₂ e₂).2.2 :=
  rfl

/-- A finite number divided by a large one is finite. -/
theorem isFinite_div {x y : Float} (hx : x.isFinite = true) (hy : isLarge y = true) :
    (x / y).isFinite = true := by
  obtain ⟨s₂, m₂, e₂, pos₂, ey, large⟩ := isLarge_iff.mp hy
  show (repack (UnpackedFloat.div Format.binary64 (unpacked x) (unpacked y))).isFinite = true
  obtain ⟨s₁, ex⟩ | ⟨s₁, m₁, e₁, pos₁, ex⟩ := eq_of_isFinite (f := unpacked x) hx
  · rw [ex, ey]
    exact congrArg UnpackedFloat.isFinite (repack_zero (s₁ / s₂))
  · have size := (unpack_bounds ex).1
    obtain ⟨⟨m, e, a⟩, quotient⟩ : ∃ q, divCore Format.binary64 m₁ e₁ m₂ e₂ = q := ⟨_, rfl⟩
    have bound := divCore_le pos₂ (by omega) quotient
    have rounded : UnpackedFloat.div Format.binary64 (unpacked x) (unpacked y) =
        roundWithAccuracy Format.binary64 (s₁ / s₂) m e a := by
      rw [ex, ey, div_finite, quotient]
    rw [rounded]
    obtain ⟨s, eq⟩ | ⟨s, m', e', pos', eq⟩ := eq_of_isFinite (isFinite_round (s₁ / s₂) m e a)
    · rw [eq, repack_zero]
      rfl
    · have := round_exponent_le eq
      rw [eq]
      exact isFinite_repack (by omega)

/-! ## Whole numbers and powers of ten -/

theorem totalExponent_shift (m k : ℕ) (e : ℤ) (pos : m ≠ 0) :
    totalExponent (m * 2 ^ k) (e - k) = totalExponent m e := by
  have back : m * 2 ^ k / 2 ^ k = m := Nat.mul_div_cancel m (Nat.two_pow_pos k)
  have := totalExponent_div (m := m * 2 ^ k) (k := k) (e := e - k) (by rwa [back])
  rw [back, Int.sub_add_cancel] at this
  exact this.symm

theorem ofSize_word {n : UInt64} (h : n.toNat ≠ 0) :
    OfSize (totalExponent n.toNat 0) (unpacked n.toFloat) := by
  have small : totalExponent n.toNat 0 ≤ 64 := by
    have := (Nat.log2_lt h).mpr n.toNat_lt
    unfold totalExponent
    omega
  refine OfSize.repack ?_ (by omega)
  show OfSize _ (UnpackedFloat.normalize Format.binary64 (n.toNat : ℤ) 0 .positive)
  have positive : compare (n.toNat : ℤ) 0 = .gt := by
    rw [Int.compare_eq_gt]
    omega
  unfold UnpackedFloat.normalize
  rw [positive]
  show OfSize _ (UnpackedFloat.round Format.binary64 .positive n.toNat 0)
  unfold UnpackedFloat.round decreaseExponent
  simp only [Nat.shiftLeft_eq]
  have same (k : ℕ) := totalExponent_shift n.toNat k 0 h
  rw [targetExponent_eq]
  generalize eq : (0 - max (totalExponent n.toNat 0 - 53) (-1074)).toNat = k
  rw [← same k]
  refine ofSize_round ?_
  unfold target
  rw [same]
  omega

theorem totalExponent_mul_pow {m : ℕ} (k : ℕ) (pos : m ≠ 0) :
    totalExponent (m * 2 ^ k) (-k) = totalExponent m 0 := by
  have := totalExponent_shift m k 0 pos
  rwa [Int.zero_sub] at this

theorem ofSize_ofScientific {m e : ℕ} (pos : m ≠ 0) (he : e ≤ 2048) :
    OfSize (totalExponent (m * 10 ^ e) 0) (UnpackedFloat.ofScientific Format.binary64 m e) := by
  have product : UnpackedFloat.ofScientific Format.binary64 m e =
      roundWithAccuracy Format.binary64 .positive (m * 10 ^ e * 2 ^ 53) (-(53 : ℕ)) .exact := by
    unfold UnpackedFloat.ofScientific
    rw [dif_neg pos, if_neg (by show ¬((e : ℤ) > 2048); omega),
      if_neg (by show ¬((e : ℤ) < -(2048 + _)); omega), if_pos (Int.natCast_nonneg e)]
    show roundWithAccuracy Format.binary64 .positive (m <<< 53 * 10 ^ e) (-(53 : ℕ) + 0) .exact = _
    rw [Nat.shiftLeft_eq, Nat.mul_right_comm, Int.add_zero]
  have nonzero : m * 10 ^ e ≠ 0 := Nat.mul_ne_zero pos (Nat.pow_pos (by decide)).ne'
  rw [product, ← totalExponent_mul_pow 53 nonzero]
  refine ofSize_round ?_
  unfold target
  rw [totalExponent_mul_pow 53 nonzero]
  unfold totalExponent
  omega

theorem ofSize_mul_one {x : Float} {t : ℤ} (h : OfSize t (unpacked x)) (low : -1021 ≤ t)
    (high : t ≤ 1022) : (x * Float.ofBits 0x3FF0000000000000).isFinite = true := by
  have one : unpacked (Float.ofBits 0x3FF0000000000000) =
      .finite .positive (2 ^ 52) (-52) (by decide) := rfl
  obtain ⟨-, -, vanishes⟩ | ⟨s, m, e, pos, eq, rounded⟩ := h
  · omega
  · have product : UnpackedFloat.mul Format.binary64 (unpacked x)
        (unpacked (Float.ofBits 0x3FF0000000000000)) =
          roundWithAccuracy Format.binary64 (s * .positive) (m * 2 ^ 52) (e - (52 : ℕ)) .exact := by
      rw [eq, one]
      rfl
    have size := totalExponent_shift m 52 e pos.ne'
    have fits : OfSize (totalExponent m e) (UnpackedFloat.mul Format.binary64 (unpacked x)
        (unpacked (Float.ofBits 0x3FF0000000000000))) := by
      rw [product, ← size]
      refine ofSize_round ?_
      unfold target
      rw [size]
      unfold totalExponent
      omega
    have := rounded.upper
    exact (fits.repack (by omega)).isFinite

theorem isFinite_ofNat {n : ℕ} (h : n < 2 ^ 64) : (Float.ofNat n).isFinite = true := by
  by_cases zero : n = 0
  · rw [zero]
    decide +kernel
  · have small : 1 ≤ totalExponent n 0 ∧ totalExponent n 0 ≤ 64 := by
      have := (Nat.log2_lt zero).mpr h
      unfold totalExponent
      omega
    show (Float.ofScientific n false 0).isFinite = true
    unfold Float.ofScientific
    split
    · have word : n.toUInt64.toNat = n := UInt64.toNat_ofNat_of_lt h
      have size := ofSize_word (n := n.toUInt64) (by rwa [word])
      rw [word] at size
      exact ofSize_mul_one size (by omega) (by omega)
    · have size := ofSize_ofScientific (e := 0) zero (by decide)
      rw [pow_zero, Nat.mul_one] at size
      exact (size.repack (by omega)).isFinite

/-- An integer that fits a word, with or without a sign in front of it, is a finite number. -/
theorem isFinite_ofInt {n : ℤ} (h : n.natAbs < 2 ^ 64) : (Float.ofInt n).isFinite = true := by
  cases n with
  | ofNat n => exact isFinite_ofNat h
  | negSucc n => exact isFinite_neg (isFinite_ofNat h)

theorem isLarge_tenTo {n : ℕ} (low : 1 ≤ n) (high : n ≤ 308) : isLarge (tenTo n) = true := by
  -- The table of small powers and the largest one are evaluated; in between the size is enough.
  have small : ∀ n < 22, isLarge (tenTo (n + 1)) = true := by decide +kernel
  have largest : isLarge (tenTo 308) = true := by decide +kernel
  by_cases inTable : n ≤ 22
  · have := small (n - 1) (by omega)
    rwa [Nat.sub_add_cancel low] at this
  · by_cases last : n = 308
    · rw [last]
      exact largest
    · have lower : 76 ≤ (1 * 10 ^ n).log2 := by
        rw [Nat.one_mul, Nat.le_log2 (Nat.pow_pos (by decide)).ne']
        exact le_trans (by decide) (Nat.pow_le_pow_right (by decide) (show 23 ≤ n by omega))
      have upper : (1 * 10 ^ n).log2 < 1022 := by
        rw [Nat.one_mul, Nat.log2_lt (Nat.pow_pos (by decide)).ne']
        exact lt_of_le_of_lt (Nat.pow_le_pow_right (by decide) (show n ≤ 307 by omega))
          (by decide +kernel)
      have power : unpacked (tenTo n) =
          repack (UnpackedFloat.ofScientific Format.binary64 1 n) := by
        unfold tenTo Float.ofScientific
        rw [dif_neg (by omega)]
        rfl
      have size := (ofSize_ofScientific (m := 1) (e := n) (by decide) (by omega)).repack (by
        unfold totalExponent
        omega)
      rw [← power] at size
      obtain ⟨-, -, vanishes⟩ | ⟨s, m, e, pos, eq, rounded⟩ := size
      · unfold totalExponent at vanishes
        omega
      · have := rounded.lower
        unfold totalExponent at this
        exact isLarge_iff.mpr ⟨s, m, e, pos, eq, by unfold totalExponent; omega⟩

theorem isFinite_tenTo {n : ℕ} (high : n ≤ 308) : (tenTo n).isFinite = true := by
  by_cases zero : n = 0
  · rw [zero]
    decide +kernel
  · exact isFinite_of_isLarge (isLarge_tenTo (by omega) high)

/-! ## Scaling -/

theorem isFinite_word (n : UInt64) : n.toFloat.isFinite = true := by
  by_cases zero : n.toNat = 0
  · have : n = 0 := UInt64.toNat_inj.mp zero
    rw [this]
    rfl
  · exact (ofSize_word zero).isFinite

/-- What is read off digits and an exponent is finite. -/
theorem isFinite_scale {significand : ℕ} {exponent : ℤ} {x : Float}
    (h : scale significand exponent = some x) : x.isFinite = true := by
  have word := isFinite_word (UInt64.ofNat significand)
  unfold scale at h
  dsimp only at h
  split_ifs at h with raised inRange inf zero once twice
  · cases h
    exact isFinite_mul word (isFinite_tenTo inRange) (Bool.eq_false_iff.mpr inf)
  · cases h
    exact word
  · cases h
    exact isFinite_div word (isLarge_tenTo (by omega) once)
  · cases h
    exact isFinite_div (isFinite_div word (isLarge_tenTo (by decide) (by decide)))
      (isLarge_tenTo (by omega) (by omega))
  · cases h
    rfl

end Handoff.Number

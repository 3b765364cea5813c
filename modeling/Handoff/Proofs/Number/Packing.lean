import Handoff.Number.Exact
import Handoff.Proofs.Number.Bits
import Mathlib.Order.Lattice
import Mathlib.Tactic.Ring
/-!
# How numbers are rounded and packed

The logical model of numbers works on mantissas and exponents without bounds. A result is rounded:
its mantissa is shifted to the exponent that its size asks for, `target`, and again when rounding up
has carried; then it is packed into 64 bits. The size of a number is its `totalExponent`, one more
than the exponent of the power of two below it.

Results:
* `round_exponent_le`, `ofSize_round`: how far rounding moves the exponent and the size.
* `isFinite_repack`: what has a small exponent stays finite.
* `repack_canonical`: what is canonical is what is read off its bits.
* `unpack_bounds`: what is read off bits is below `2 ^ 1024`.
-/
namespace Handoff.Number
open Float.Model UnpackedFloat

/-! ## Shifting -/

theorem targetExponent_eq (t : ℤ) : Format.binary64.targetExponent t = max (t - 53) (-1074) := rfl

theorem mantissa_shiftRight (em : ExtendedMantissa) (n : ℕ) :
    (em >>> n).mantissa = em.mantissa / 2 ^ n := by
  show (n.repeat ExtendedMantissa.shiftRightOne em).mantissa = _
  induction n with
  | zero => simp [Nat.repeat]
  | succ n ih =>
    show (n.repeat ExtendedMantissa.shiftRightOne em).mantissa / 2 = _
    rw [ih, Nat.div_div_eq_div_mul, pow_succ]

theorem mantissa_ofMantissaAndAccuracy (m : ℕ) (a : Accuracy) :
    (ExtendedMantissa.ofMantissaAndAccuracy m a).mantissa = m := by
  cases a with
  | exact => rfl
  | inexact o => cases o <;> rfl

theorem roundedMantissa_bounds (em : ExtendedMantissa) :
    em.mantissa ≤ em.roundedMantissa ∧ em.roundedMantissa ≤ em.mantissa + 1 := by
  obtain ⟨m, round, sticky⟩ := em
  cases round <;> cases sticky <;>
    simp only [ExtendedMantissa.roundedMantissa, ExtendedMantissa.accuracy,
      Accuracy.roundToNearestEven] <;> omega

/-- The exponent to which a mantissa is brought. -/
def target (m : ℕ) (e : ℤ) : ℤ := max (totalExponent m e - 53) (-1074)

theorem shiftToTargetExponent_eq (m : ℕ) (e : ℤ) (a : Accuracy) :
    (shiftToTargetExponent Format.binary64 m e a).1.mantissa = m / 2 ^ (target m e - e).toNat ∧
      (shiftToTargetExponent Format.binary64 m e a).2 = e + (target m e - e).toNat := by
  unfold shiftToTargetExponent shiftToExponent target
  dsimp only
  rw [mantissa_shiftRight, mantissa_ofMantissaAndAccuracy, targetExponent_eq]
  exact ⟨rfl, rfl⟩

theorem totalExponent_div {m k : ℕ} {e : ℤ} (h : m / 2 ^ k ≠ 0) :
    totalExponent (m / 2 ^ k) (e + k) = totalExponent m e := by
  have pos : 0 < 2 ^ k := Nat.two_pow_pos k
  have le : 2 ^ k ≤ m := by
    by_contra lt
    exact h (Nat.div_eq_of_lt (Nat.lt_of_not_le lt))
  have ne : m ≠ 0 := by omega
  have fits : k ≤ m.log2 := (Nat.le_log2 ne).mpr le
  have log : (m / 2 ^ k).log2 = m.log2 - k := by
    rw [Nat.log2_eq_iff h]
    constructor
    · rw [Nat.le_div_iff_mul_le pos, ← pow_add, Nat.sub_add_cancel fits]
      exact Nat.log2_self_le ne
    · rw [Nat.div_lt_iff_lt_mul pos, ← pow_add, show m.log2 - k + 1 + k = m.log2 + 1 by omega]
      exact Nat.lt_log2_self
  unfold totalExponent
  rw [log]
  omega

/-- One more can only add one bit. -/
theorem totalExponent_succ_le {m r : ℕ} {e : ℤ} (h : r ≤ m + 1) :
    totalExponent r e ≤ totalExponent m e + 1 := by
  unfold totalExponent
  by_cases zero : r = 0
  · rw [zero]
    simp
    omega
  · have lt : r < 2 ^ (m.log2 + 2) := by
      have := @Nat.lt_log2_self m
      have two : 2 ^ (m.log2 + 2) = 2 * 2 ^ (m.log2 + 1) := by ring
      omega
    have := (Nat.log2_lt zero).mpr lt
    omega

theorem totalExponent_mono {m r : ℕ} {e : ℤ} (ne : m ≠ 0) (h : m ≤ r) :
    totalExponent m e ≤ totalExponent r e := by
  have : 2 ^ m.log2 ≤ r := (Nat.log2_self_le ne).trans h
  have := (Nat.le_log2 (show r ≠ 0 by omega)).mpr this
  unfold totalExponent
  omega

/-- Rounding by a mantissa that differs from the shifted one by at most one, shifted again. -/
theorem round_eq (s : Sign) (m : ℕ) (e : ℤ) (a : Accuracy) :
    let k := (target m e - e).toNat
    ∃ r, m / 2 ^ k ≤ r ∧ r ≤ m / 2 ^ k + 1 ∧
      let l := (target r (e + k) - (e + k)).toNat
      roundWithAccuracy Format.binary64 s m e a =
        if h : r / 2 ^ l = 0 then .zero s
        else .finite s (r / 2 ^ l) (e + k + l) (Nat.pos_of_ne_zero h) := by
  intro k
  obtain ⟨first, firstExponent⟩ := shiftToTargetExponent_eq m e a
  unfold roundWithAccuracy
  generalize shiftToTargetExponent Format.binary64 m e a = shifted at first firstExponent
  obtain ⟨em, e₁⟩ := shifted
  dsimp only at first firstExponent ⊢
  obtain ⟨low, high⟩ := roundedMantissa_bounds em
  subst firstExponent
  obtain ⟨second, secondExponent⟩ :=
    shiftToTargetExponent_eq em.roundedMantissa (e + k) .exact
  refine ⟨em.roundedMantissa, first ▸ low, first ▸ high, ?_⟩
  generalize shiftToTargetExponent Format.binary64 em.roundedMantissa (e + k) .exact = shifted
    at second secondExponent
  obtain ⟨⟨m₂, up, more⟩, e₂⟩ := shifted
  cases second
  cases secondExponent
  rfl

theorem totalExponent_rounded_le {m r : ℕ} {e : ℤ} {k : ℕ} (h : r ≤ m / 2 ^ k + 1) :
    totalExponent r (e + k) ≤ max (totalExponent m e + 1) (e + k + 1) := by
  by_cases zero : m / 2 ^ k = 0
  · rw [zero] at h
    have small : r.log2 = 0 := by
      rcases Nat.le_one_iff_eq_zero_or_eq_one.mp h with rfl | rfl <;> decide
    unfold totalExponent
    rw [small]
    omega
  · have := totalExponent_succ_le (e := e + k) h
    rw [totalExponent_div zero] at this
    omega

/-- Rounding does not bring a number higher than its size asks for. -/
theorem round_exponent_le {s s' : Sign} {m m' : ℕ} {e e' : ℤ} {a : Accuracy} {pos : 0 < m'}
    (h : roundWithAccuracy Format.binary64 s m e a = .finite s' m' e' pos) :
    e' ≤ max e (max (totalExponent m e - 52) (-1074)) := by
  obtain ⟨r, -, high, eq⟩ := round_eq s m e a
  have size := totalExponent_rounded_le (e := e) high
  rw [eq] at h
  by_cases zero : r / 2 ^ (target r (e + (target m e - e).toNat) -
      (e + (target m e - e).toNat)).toNat = 0
  · rw [dif_pos zero] at h
    cases h
  · rw [dif_neg zero] at h
    cases h
    unfold target at size ⊢
    omega

/-- A number that is brought to the exponent that its size asks for has at most 53 bits. -/
theorem shifted_lt {m k : ℕ} {e : ℤ} (hk : e + k = target m e) : m / 2 ^ k < 2 ^ 53 := by
  by_cases zero : m / 2 ^ k = 0
  · rw [zero]
    decide
  · have size := totalExponent_div (e := e) zero
    rw [← Nat.log2_lt zero]
    unfold target at hk
    unfold totalExponent at size hk
    omega

theorem le_shifted {m k : ℕ} {e : ℤ} (hk : e + k = target m e)
    (normal : target m e = totalExponent m e - 53) : 2 ^ 52 ≤ m / 2 ^ k := by
  unfold totalExponent at normal
  have ne : m ≠ 0 := by
    rintro rfl
    rw [Nat.log2_zero] at normal
    omega
  have nonzero : m / 2 ^ k ≠ 0 := by
    have fits : 2 ^ k ≤ m := (Nat.le_log2 ne).mp (by omega)
    have := Nat.div_pos fits (Nat.two_pow_pos k)
    omega
  have size := totalExponent_div (e := e) nonzero
  rw [← Nat.le_log2 nonzero]
  unfold totalExponent at size
  omega

/-- A mantissa and an exponent that rounding makes of a number of size `t`. -/
structure Rounded (t : ℤ) (m : ℕ) (e : ℤ) : Prop where
  canonical : (Exact.mk false m e).Canonical
  upper : totalExponent m e ≤ max (t + 1) (-1073)
  lower : -1021 ≤ t → t ≤ totalExponent m e

/-- A number that rounding makes of one of size `t`: zero, unless that is too large to vanish, or a
number of this size up to one bit. -/
def OfSize (t : ℤ) (f : UnpackedFloat) : Prop :=
  (∃ s, f = .zero s ∧ t < -1021) ∨ ∃ s m e pos, f = .finite s m e pos ∧ Rounded t m e

theorem OfSize.isFinite {t : ℤ} {f : UnpackedFloat} (h : OfSize t f) : f.isFinite = true := by
  obtain ⟨s, rfl, -⟩ | ⟨s, m, e, pos, rfl, -⟩ := h <;> rfl

theorem finite_congr {s : Sign} {m m' : ℕ} {e e' : ℤ} {pos : 0 < m} {pos' : 0 < m'}
    (hm : m = m') (he : e = e') : UnpackedFloat.finite s m e pos = .finite s m' e' pos' := by
  subst hm he
  rfl

theorem toNat_target_carried {e : ℤ} (lowest : -1074 ≤ e) :
    (target (2 ^ 53) e - e).toNat = 1 := by
  unfold target totalExponent
  rw [Nat.log2_two_pow]
  omega

theorem toNat_target_bounded {r : ℕ} {e : ℤ} (bounded : r < 2 ^ 53) (lowest : -1074 ≤ e) :
    (target r e - e).toNat = 0 := by
  unfold target totalExponent
  by_cases zero : r = 0
  · rw [zero, Nat.log2_zero]
    omega
  · have := (Nat.log2_lt zero).mpr bounded
    omega

section

variable {m k : ℕ} {e : ℤ} (hk : e + k = target m e)
include hk

theorem lowest_le : -1074 ≤ e + k := by
  unfold target at hk
  omega

theorem le_shifted_of_large (large : -1021 ≤ totalExponent m e) : 2 ^ 52 ≤ m / 2 ^ k :=
  le_shifted hk (by unfold target; omega)

/-- All bits were set and the last one is rounded up: one more shift, which loses nothing. -/
theorem rounded_carried (carried : m / 2 ^ k + 1 = 2 ^ 53) :
    Rounded (totalExponent m e) (2 ^ 52) (e + k + 1) := by
  have lowest := lowest_le hk
  have size := totalExponent_div (e := e) (show m / 2 ^ k ≠ 0 by omega)
  have log : (m / 2 ^ k).log2 = 52 := (Nat.log2_eq_iff (by omega)).mpr ⟨by omega, by omega⟩
  refine ⟨⟨by dsimp only; omega, by dsimp only; omega, fun _ => le_refl _⟩, ?_, ?_⟩
  all_goals
    unfold totalExponent at size ⊢
    rw [log] at size
    rw [Nat.log2_two_pow]
    omega

theorem rounded_kept {r : ℕ} (above : m / 2 ^ k ≤ r) (below : r ≤ m / 2 ^ k + 1)
    (bounded : r < 2 ^ 53) : Rounded (totalExponent m e) r (e + k) := by
  refine ⟨⟨lowest_le hk, bounded, fun ne => ?_⟩, ?_, fun large => ?_⟩
  · have := le_shifted hk (by unfold target at hk ⊢; dsimp only at ne; omega)
    dsimp only
    omega
  · have := totalExponent_rounded_le (e := e) below
    unfold target at hk
    omega
  · have ne : m / 2 ^ k ≠ 0 := by
      have := le_shifted_of_large hk large
      omega
    rw [← totalExponent_div (e := e) ne]
    exact totalExponent_mono ne above

end

/-- Rounding keeps the size of a number up to one bit, where its exponent is not above the one that
its size asks for. -/
theorem ofSize_round {s : Sign} {m : ℕ} {e : ℤ} {a : Accuracy} (low : e ≤ target m e) :
    OfSize (totalExponent m e) (roundWithAccuracy Format.binary64 s m e a) := by
  obtain ⟨r, above, below, eq⟩ := round_eq s m e a
  have hk : e + (target m e - e).toNat = target m e := by omega
  generalize (target m e - e).toNat = k at *
  have most := shifted_lt hk
  have lowest := lowest_le hk
  rw [eq]
  by_cases carried : r = 2 ^ 53
  · right
    rw [carried, toNat_target_carried lowest]
    exact ⟨s, 2 ^ 52, e + k + 1, by decide, rfl, rounded_carried hk (by omega)⟩
  · have bounded : r < 2 ^ 53 := by omega
    rw [toNat_target_bounded bounded lowest, pow_zero, Nat.div_one]
    by_cases zero : r = 0
    · left
      refine ⟨s, dif_pos zero, ?_⟩
      by_contra large
      have := le_shifted_of_large hk (by omega)
      omega
    · right
      refine ⟨s, r, e + k, Nat.pos_of_ne_zero zero, ?_, rounded_kept hk above below bounded⟩
      rw [dif_neg zero]
      exact finite_congr rfl (by omega)

/-! ## Packing -/

/-- What is read off the bits into which a number is packed. -/
abbrev repack (f : UnpackedFloat) : UnpackedFloat :=
  UnpackedFloat.unpack Format.binary64 (UnpackedFloat.pack Format.binary64 f)

theorem pack_finite (s : Sign) (m : ℕ) (e : ℤ) (pos : 0 < m) :
    UnpackedFloat.pack Format.binary64 (.finite s m e pos) =
      if 2 ^ 11 ≤ (e + 1075).toNat + 1 then packedInfinity Format.binary64 s
      else if m.log2 + 1 = 53 then
        packComponents Format.binary64 s (BitVec.ofNat 11 (e + 1075).toNat) (BitVec.ofNat 52 m)
      else packComponents Format.binary64 s 0#11 (BitVec.ofNat 52 m) := by
  have biased : e + 1075 =
      e + Format.binary64.exponentBias + Format.binary64.mantissaBitsWithoutImplicit := by
    rw [add_assoc]
    rfl
  rw [biased]
  rfl

theorem isFinite_repack {s : Sign} {m : ℕ} {e : ℤ} {pos : 0 < m} (high : e ≤ 971) :
    (repack (.finite s m e pos)).isFinite = true := by
  rw [unpack_isFinite, pack_finite, if_neg (by omega)]
  split
  · rw [unpackExponent_packComponents]
    show (e + 1075).toNat % 2 ^ 11 ≠ 2047
    omega
  · rw [unpackExponent_packComponents]
    decide

theorem toNat_leadingBit (f : BitVec 52) : (1#1 ++ f).toNat = 2 ^ 52 + f.toNat := by
  rw [BitVec.toNat_append, Nat.shiftLeft_eq, Nat.or_comm]
  show f.toNat ||| 2 ^ 52 = _
  rw [Nat.or_two_pow_eq_add_of_lt f.isLt]
  exact Nat.add_comm ..

section
variable {b : BitVec Format.binary64.numBits}

theorem unpack_normal (notLast : unpackExponent b ≠ -1#11) (notFirst : unpackExponent b ≠ 0#11) :
    ∃ s pos, UnpackedFloat.unpack Format.binary64 b =
      .finite s (1#1 ++ unpackMantissa b).toNat ((unpackExponent b).toNat - 1075) pos := by
  unfold UnpackedFloat.unpack
  rw [if_neg notLast, if_neg notFirst]
  refine ⟨_, ?_, rfl⟩
  rw [toNat_leadingBit]
  exact Nat.add_pos_left (Nat.two_pow_pos 52) _

theorem unpack_subnormal (first : unpackExponent b = 0#11) (nonzero : unpackMantissa b ≠ 0#52) :
    ∃ s pos, UnpackedFloat.unpack Format.binary64 b =
      .finite s (unpackMantissa b).toNat (-1074) pos := by
  unfold UnpackedFloat.unpack
  rw [if_neg (by rw [first]; decide), if_pos first, dif_neg nonzero, first]
  exact ⟨_, Nat.pos_of_ne_zero fun zero => nonzero (BitVec.eq_of_toNat_eq zero), rfl⟩

end

section
variable {s : Sign} {m : ℕ} {e : ℤ} {pos : 0 < m}

theorem repack_normal (leading : 2 ^ 52 ≤ m) (bounded : m < 2 ^ 53) (low : -1074 ≤ e)
    (high : e ≤ 971) :
    ∃ s' pos', repack (.finite s m e pos) = .finite s' m e pos' := by
  have log : m.log2 + 1 = 53 := congrArg (· + 1) ((Nat.log2_eq_iff pos.ne').mpr ⟨leading, bounded⟩)
  rw [repack, pack_finite, if_neg (by omega), if_pos log]
  generalize packed : packComponents Format.binary64 s (BitVec.ofNat 11 (e + 1075).toNat)
    (BitVec.ofNat 52 m) = b
  have exponent : (unpackExponent b).toNat = (e + 1075).toNat := by
    rw [← packed, unpackExponent_packComponents]
    show (e + 1075).toNat % 2 ^ 11 = _
    omega
  have mantissa : (unpackMantissa b).toNat = m - 2 ^ 52 := by
    rw [← packed, unpackMantissa_packComponents]
    show m % 2 ^ 52 = _
    omega
  have notLast : unpackExponent b ≠ -1#11 := by
    intro h
    have : (unpackExponent b).toNat = 2047 := congrArg BitVec.toNat h
    omega
  have notFirst : unpackExponent b ≠ 0#11 := by
    intro h
    have : (unpackExponent b).toNat = 0 := congrArg BitVec.toNat h
    omega
  obtain ⟨s', pos', eq⟩ := unpack_normal notLast notFirst
  have whole : (1#1 ++ unpackMantissa b).toNat = m := by
    rw [toNat_leadingBit, mantissa]
    omega
  have shift : ((unpackExponent b).toNat : ℤ) - 1075 = e := by omega
  exact ⟨s', pos, eq.trans (finite_congr whole shift)⟩

theorem repack_subnormal (bounded : m < 2 ^ 52) :
    ∃ s' pos', repack (.finite s m (-1074) pos) = .finite s' m (-1074) pos' := by
  have log : ¬m.log2 + 1 = 53 := by
    have := (Nat.log2_lt pos.ne').mpr bounded
    omega
  rw [repack, pack_finite, if_neg (by decide), if_neg log]
  generalize packed : packComponents Format.binary64 s 0#11 (BitVec.ofNat 52 m) = b
  have first : unpackExponent b = 0#11 := by rw [← packed, unpackExponent_packComponents]
  have mantissa : (unpackMantissa b).toNat = m := by
    rw [← packed, unpackMantissa_packComponents]
    exact Nat.mod_eq_of_lt bounded
  have nonzero : unpackMantissa b ≠ 0#52 := by
    intro h
    have : (unpackMantissa b).toNat = 0 := congrArg BitVec.toNat h
    omega
  obtain ⟨s', pos', eq⟩ := unpack_subnormal first nonzero
  exact ⟨s', pos, eq.trans (finite_congr mantissa rfl)⟩

/-- A number in the form that 64 bits can hold is what is read off its bits. -/
theorem repack_canonical (canonical : (Exact.mk false m e).Canonical) (high : e ≤ 971) :
    ∃ s' pos', repack (.finite s m e pos) = .finite s' m e pos' := by
  obtain ⟨lowest, bounded, full⟩ := canonical
  by_cases leading : 2 ^ 52 ≤ m
  · exact repack_normal leading bounded lowest high
  · have bottom : e = -1074 := by
      by_contra ne
      exact leading (full ne)
    subst bottom
    exact repack_subnormal (by omega)

end

theorem repack_zero (s : Sign) : repack (.zero s) = .zero s := by
  cases s <;> rfl

theorem OfSize.repack {t : ℤ} {f : UnpackedFloat} (h : OfSize t f) (small : t ≤ 1023) :
    OfSize t (Number.repack f) := by
  obtain ⟨s, rfl, vanishes⟩ | ⟨s, m, e, pos, rfl, rounded⟩ := h
  · exact .inl ⟨s, repack_zero s, vanishes⟩
  · have high : e ≤ 971 := by
      by_contra above
      have leading : 2 ^ 52 ≤ m := rounded.canonical.full (by dsimp only; omega)
      have := (Nat.le_log2 pos.ne').mpr leading
      have := rounded.upper
      unfold totalExponent at this
      omega
    obtain ⟨s', pos', eq⟩ : ∃ s' pos', Number.repack (.finite s m e pos) = .finite s' m e pos' :=
      repack_canonical rounded.canonical high
    exact .inr ⟨s', m, e, pos', eq, rounded⟩

/-- What is read off bits is below `2 ^ 1024`, with an exponent that leaves room for 53 bits. -/
theorem unpack_bounds {b : BitVec Format.binary64.numBits} {s : Sign} {m : ℕ} {e : ℤ}
    {pos : 0 < m} (h : UnpackedFloat.unpack Format.binary64 b = .finite s m e pos) :
    totalExponent m e ≤ 1024 ∧ e ≤ 971 := by
  have finite : (UnpackedFloat.unpack Format.binary64 b).isFinite = true := by rw [h]; rfl
  rw [unpack_isFinite] at finite
  have notLast : unpackExponent b ≠ -1#11 := fun last => finite (congrArg BitVec.toNat last)
  have fraction : (unpackMantissa b).toNat < 2 ^ 52 := (unpackMantissa b).isLt
  have field : (unpackExponent b).toNat < 2 ^ 11 := (unpackExponent b).isLt
  have size {m : ℕ} {e : ℤ} (pos : 0 < m) (bounded : m < 2 ^ 53) (high : e ≤ 971) :
      totalExponent m e ≤ 1024 ∧ e ≤ 971 := by
    have := (Nat.log2_lt pos.ne').mpr bounded
    unfold totalExponent
    omega
  by_cases first : unpackExponent b = 0#11
  · have nonzero : unpackMantissa b ≠ 0#52 := by
      intro zero
      unfold UnpackedFloat.unpack at h
      rw [if_neg notLast, if_pos first, dif_pos zero] at h
      cases h
    obtain ⟨s', pos', eq⟩ := unpack_subnormal first nonzero
    rw [h] at eq
    cases eq
    exact size pos' (by omega) (by omega)
  · obtain ⟨s', pos', eq⟩ := unpack_normal notLast first
    rw [h] at eq
    cases eq
    refine size pos' ?_ (by omega)
    rw [toNat_leadingBit]
    omega

end Handoff.Number

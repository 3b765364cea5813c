import Handoff.Number.Exact
import Mathlib.Algebra.Group.Nat.Defs
/-!
# What the bits of a number say

`shape` reads a number off its bits. Here that reading is shown to lose nothing on the finite
numbers, and its parts to lie in the ranges that 64 bits leave them.

Results:
* `isFinite_iff_shape`: the finite numbers are those with a finite shape.
* `canonical_of_shape`: above the lowest exponent a mantissa has its leading bit, and none reaches
  `2 ^ 53`.
* `shape_inj`: two numbers with one finite shape are the same number, the sign of zero included.
-/
namespace Handoff.Number
open Float.Model

theorem unpackExponent_toNat (b : BitVec Format.binary64.numBits) :
    (UnpackedFloat.unpackExponent b).toNat = b.toNat / 2 ^ 52 % 2 ^ 11 := by
  simp [UnpackedFloat.unpackExponent, Nat.shiftRight_eq_div_pow]

theorem unpack_isFinite (b : BitVec Format.binary64.numBits) :
    (UnpackedFloat.unpack Format.binary64 b).isFinite = true ↔
      (UnpackedFloat.unpackExponent b).toNat ≠ 2047 := by
  have all : UnpackedFloat.unpackExponent b = -1#11 ↔
      (UnpackedFloat.unpackExponent b).toNat = 2047 :=
    ⟨fun e => by rw [e]; rfl, fun e => BitVec.eq_of_toNat_eq e⟩
  rw [ne_eq, ← all]
  unfold UnpackedFloat.unpack
  by_cases last : UnpackedFloat.unpackExponent b = -1#11
  · refine iff_of_false ?_ fun ne => ne last
    rw [if_pos last]
    by_cases empty : UnpackedFloat.unpackMantissa b = 0#52
    · rw [if_pos empty]
      exact Bool.false_ne_true
    · rw [if_neg empty]
      exact Bool.false_ne_true
  · refine iff_of_true ?_ last
    rw [if_neg last]
    by_cases first : UnpackedFloat.unpackExponent b = 0#11
    · rw [if_pos first]
      by_cases empty : UnpackedFloat.unpackMantissa b = 0#52
      · rw [dif_pos empty]
        rfl
      · rw [dif_neg empty]
        rfl
    · rw [if_neg first]
      rfl

theorem isFinite_iff_field (x : Float) :
    x.isFinite = true ↔ x.toBits.toNat / 2 ^ 52 % 2 ^ 11 ≠ 2047 := by
  have e := unpack_isFinite x.toModel.toBits.toBitVec
  rw [unpackExponent_toNat] at e
  exact e

theorem isFinite_iff_shape (x : Float) : x.isFinite = true ↔ ∃ v, shape x = .finite v := by
  rw [isFinite_iff_field]
  unfold shape
  dsimp only
  split
  · next e =>
    refine iff_of_false (fun ne => ne e) ?_
    rintro ⟨v, h⟩
    split at h <;> cases h
  · next e =>
    refine iff_of_true e ?_
    split <;> exact ⟨_, rfl⟩

/-- What the three fields of a finite number allow. -/
structure Exact.Canonical (v : Exact) : Prop where
  lowest : -1074 ≤ v.exponent
  bounded : v.mantissa < 2 ^ 53
  /-- Above the lowest exponent the leading bit is there. -/
  full : v.exponent ≠ -1074 → 2 ^ 52 ≤ v.mantissa

theorem canonical_of_shape {x : Float} {v : Exact} (h : shape x = .finite v) : v.Canonical := by
  unfold shape at h
  dsimp only at h
  have lt : x.toBits.toNat % 2 ^ 52 < 2 ^ 52 := Nat.mod_lt _ (by decide)
  split at h
  · split at h <;> cases h
  · split at h
    · cases h
      exact ⟨Int.le_refl _, by dsimp only; omega, fun ne => absurd rfl ne⟩
    · cases h
      exact ⟨by dsimp only; omega, by dsimp only; omega, fun _ => by dsimp only; omega⟩

/-- The bits of a finite number, put together from its value. -/
def Exact.bits (v : Exact) : Nat :=
  (if v.negative then 2 ^ 63 else 0) +
    if v.mantissa < 2 ^ 52 then v.mantissa
    else (v.exponent + 1075).toNat * 2 ^ 52 + (v.mantissa - 2 ^ 52)

theorem bits_of_shape {x : Float} {v : Exact} (h : shape x = .finite v) :
    x.toBits.toNat = v.bits := by
  have lt := x.toBits.toNat_lt
  unfold shape at h
  dsimp only at h
  generalize x.toBits.toNat = n at *
  have top : 2 ^ 63 ≤ n ↔ n / 2 ^ 63 = 1 := by omega
  split at h
  · split at h <;> cases h
  · split at h
    · cases h
      simp only [Exact.bits, decide_eq_true_eq]
      split <;> split <;> omega
    · cases h
      simp only [Exact.bits, decide_eq_true_eq]
      split <;> split <;> omega

/-- The value of a finite number tells which number it is. -/
theorem shape_inj {x y : Float} {v : Exact} (hx : shape x = .finite v) (hy : shape y = .finite v) :
    x = y := by
  have same : x.toBits = y.toBits :=
    UInt64.toNat_inj.mp ((bits_of_shape hx).trans (bits_of_shape hy).symm)
  -- A number holds its bits and a proof that they are valid ones.
  obtain ⟨⟨b, valid⟩⟩ := x
  obtain ⟨⟨b', valid'⟩⟩ := y
  cases same
  rfl

end Handoff.Number

import Mathlib.Analysis.Complex.Basic
import Mathlib.Algebra.Order.BigOperators.Ring.Finset

/-!
# Least squares in the plane

Points of the plane are complex numbers, and `a * z + b` with `a ≠ 0` is a rotation with a scale,
and a translation. The one that brings a family of points closest to another has the quotient of
their covariance and the variance as its slope, and takes mean to mean.
-/

namespace Geometry

open ComplexConjugate

variable {ι : Type*} [Fintype ι] [Nonempty ι] (z w : ι → ℂ)

noncomputable def mean : ℂ := (∑ i, z i) / Fintype.card ι

noncomputable def variance : ℝ := (∑ i, Complex.normSq (z i - mean z)) / Fintype.card ι

noncomputable def covariance : ℂ :=
  (∑ i, (w i - mean w) * conj (z i - mean z)) / Fintype.card ι

noncomputable def slope : ℂ := covariance z w / variance z

/-- What the closest map leaves of the second family. -/
noncomputable def residual (i : ι) : ℂ := (w i - mean w) - slope z w * (z i - mean z)

theorem sum_sub_mean : ∑ i, (z i - mean z) = 0 := by
  have hcard : (Fintype.card ι : ℂ) ≠ 0 := Nat.cast_ne_zero.2 Fintype.card_ne_zero
  rw [Finset.sum_sub_distrib, Finset.sum_const, Finset.card_univ, nsmul_eq_mul, mean,
    mul_div_cancel₀ _ hcard, sub_self]

theorem sum_residual : ∑ i, residual z w i = 0 := by
  simp only [residual, Finset.sum_sub_distrib, ← Finset.mul_sum]
  rw [← Finset.sum_sub_distrib, ← Finset.sum_sub_distrib, sum_sub_mean, sum_sub_mean, mul_zero,
    sub_zero]

variable {z w}

theorem sum_residual_mul (hz : variance z ≠ 0) :
    ∑ i, residual z w i * conj (z i - mean z) = 0 := by
  have hcard : (Fintype.card ι : ℂ) ≠ 0 := Nat.cast_ne_zero.2 Fintype.card_ne_zero
  have hvar : ((variance z : ℝ) : ℂ) ≠ 0 := Complex.ofReal_ne_zero.2 hz
  have hcov : ∑ i, (w i - mean w) * conj (z i - mean z) = Fintype.card ι * covariance z w := by
    rw [covariance, mul_div_cancel₀ _ hcard]
  have hsq : ∑ i, (z i - mean z) * conj (z i - mean z) = Fintype.card ι * variance z := by
    simp only [Complex.mul_conj, ← Complex.ofReal_sum]
    rw [variance, Complex.ofReal_div, Complex.ofReal_natCast, mul_div_cancel₀ _ hcard]
  calc ∑ i, residual z w i * conj (z i - mean z)
      = ∑ i, ((w i - mean w) * conj (z i - mean z) -
          slope z w * ((z i - mean z) * conj (z i - mean z))) :=
        Finset.sum_congr rfl fun i _ => by rw [residual]; ring
    _ = Fintype.card ι * covariance z w - slope z w * (Fintype.card ι * variance z) := by
        rw [Finset.sum_sub_distrib, ← Finset.mul_sum, hcov, hsq]
    _ = 0 := by
        rw [slope]
        field_simp
        ring

/-- **Least squares**: among all maps `a * z + b`, the distances are least for the slope that takes
mean to mean. -/
theorem sum_normSq_residual_le (hz : variance z ≠ 0) (a b : ℂ) :
    ∑ i, Complex.normSq (residual z w i) ≤ ∑ i, Complex.normSq (w i - (a * z i + b)) := by
  set d := slope z w - a
  set e := mean w - (a * mean z + b)
  have hsplit : ∀ i, w i - (a * z i + b) = residual z w i + (d * (z i - mean z) + e) :=
    fun i => by simp only [residual, d, e]; ring
  have hcross : ∑ i, residual z w i * conj (d * (z i - mean z) + e) = 0 := by
    have hi : ∀ i, residual z w i * conj (d * (z i - mean z) + e) =
        conj d * (residual z w i * conj (z i - mean z)) + conj e * residual z w i := fun i => by
      rw [map_add, map_mul]
      ring
    rw [Finset.sum_congr rfl fun i _ => hi i, Finset.sum_add_distrib, ← Finset.mul_sum,
      ← Finset.mul_sum, sum_residual_mul hz, sum_residual, mul_zero, mul_zero, add_zero]
  have hre : ∑ i, (residual z w i * conj (d * (z i - mean z) + e)).re = 0 := by
    rw [← Complex.re_sum, hcross, Complex.zero_re]
  calc ∑ i, Complex.normSq (residual z w i)
      ≤ ∑ i, Complex.normSq (residual z w i) + ∑ i, Complex.normSq (d * (z i - mean z) + e) :=
        le_add_of_nonneg_right (Finset.sum_nonneg fun i _ => Complex.normSq_nonneg _)
    _ = ∑ i, Complex.normSq (w i - (a * z i + b)) := by
        simp only [hsplit, Complex.normSq_add, Finset.sum_add_distrib, ← Finset.mul_sum]
        rw [hre, mul_zero, add_zero]

end Geometry

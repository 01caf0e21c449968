import Mathlib.Algebra.BigOperators.Fin
import Mathlib.Algebra.Order.Floor.Ring
import Mathlib.Analysis.Normed.Affine.AddTorsor
import Mathlib.Analysis.SpecialFunctions.Complex.Arg
import Mathlib.LinearAlgebra.AffineSpace.FiniteDimensional
import Tess.Geometry.LeastSquares
import Tess.Mug.Liveness

/-!
# Alignment

A face is cut out of a frame along the similarity that brings its landmarks closest to those of a
template. This module follows `mug/src/align.rs`, in exact arithmetic, where every number is finite.
-/

namespace Tess

namespace Mug

/-! ## The estimate -/

section Definitions

variable {F : Type} [Field F] [LinearOrder F]

/-- `[m00, m01, m02, m10, m11, m12]`: a linear part, and a translation. -/
@[ext]
structure Affine (F : Type) where
  m00 : F
  m01 : F
  m02 : F
  m10 : F
  m11 : F
  m12 : F

def Affine.apply (m : Affine F) (p : F × F) : F × F :=
  (m.m00 * p.1 + m.m01 * p.2 + m.m02, m.m10 * p.1 + m.m11 * p.2 + m.m12)

def epsVar : F := 1

def epsScale : F := 1 / 1000

def epsDet : F := 1 / 1000000000

/-- The means of two families of points, their covariances, and the variance of the first one. -/
structure Moments (F : Type) where
  smx : F
  smy : F
  dmx : F
  dmy : F
  a00 : F
  a01 : F
  a10 : F
  a11 : F
  varSrc : F

def moments (src dst : Fin 5 → F × F) : Moments F :=
  let smx := (∑ i, (src i).1) / 5
  let smy := (∑ i, (src i).2) / 5
  let dmx := (∑ i, (dst i).1) / 5
  let dmy := (∑ i, (dst i).2) / 5
  { smx, smy, dmx, dmy
    a00 := (∑ i, ((dst i).1 - dmx) * ((src i).1 - smx)) / 5
    a01 := (∑ i, ((dst i).1 - dmx) * ((src i).2 - smy)) / 5
    a10 := (∑ i, ((dst i).2 - dmy) * ((src i).1 - smx)) / 5
    a11 := (∑ i, ((dst i).2 - dmy) * ((src i).2 - smy)) / 5
    varSrc := (∑ i, (((src i).1 - smx) * ((src i).1 - smx) +
      ((src i).2 - smy) * ((src i).2 - smy))) / 5 }

def Moments.detA (m : Moments F) : F := m.a00 * m.a11 - m.a01 * m.a10

section Elementary

variable [Elementary F]

/-- The sum of the singular values, over the variance. -/
def Moments.scale (m : Moments F) : F :=
  let fro2 := m.a00 * m.a00 + m.a01 * m.a01 + m.a10 * m.a10 + m.a11 * m.a11
  Elementary.sqrt (max (fro2 + (2 : ℕ) * m.detA) 0) / m.varSrc

def Moments.similarity (m : Moments F) : Affine F :=
  let theta := Elementary.atan2 (m.a10 - m.a01) (m.a00 + m.a11)
  let c := Elementary.cos theta
  let s := Elementary.sin theta
  let r00 := m.scale * c
  let r01 := -m.scale * s
  let r10 := m.scale * s
  let r11 := m.scale * c
  { m00 := r00, m01 := r01, m02 := m.dmx - (r00 * m.smx + r01 * m.smy)
    m10 := r10, m11 := r11, m12 := m.dmy - (r10 * m.smx + r11 * m.smy) }

def estimateSimilarity (src dst : Fin 5 → F × F) : Except (MugError F) (Affine F) :=
  let m := moments src dst
  if m.varSrc < epsVar then
    .error (.invalidFrame "degenerate landmarks (coincident/collinear source)")
  else if m.detA ≤ 0 then
    .error (.invalidFrame "degenerate landmarks (reflected/rank-deficient)")
  else if m.scale < epsScale then
    .error (.invalidFrame "degenerate landmarks (near-zero scale)")
  else .ok m.similarity

end Elementary

/-- The inverse of the linear part. -/
structure Inverse (F : Type) where
  i00 : F
  i01 : F
  i10 : F
  i11 : F

def Inverse.apply (v : Inverse F) (p : F × F) : F × F :=
  (v.i00 * p.1 + v.i01 * p.2, v.i10 * p.1 + v.i11 * p.2)

def invertAffine (m : Affine F) : Except (MugError F) (Inverse F) :=
  let den := m.m00 * m.m11 - m.m01 * m.m10
  if |den| < epsDet then .error (.invalidFrame "singular alignment transform")
  else .ok ⟨m.m11 / den, -m.m01 / den, -m.m10 / den, m.m00 / den⟩

/-! ## The crop -/

variable [FloorRing F]

/-- The nearest integer, away from zero where there are two. -/
def roundAway (x : F) : ℤ := if 0 ≤ x then ⌊x + 1 / (2 : ℕ)⌋ else ⌈x - 1 / (2 : ℕ)⌉

/-- The pixel at a place, black outside of the plane. -/
def pixelAt (data : List UInt8) (w h : ℕ) (x y : ℤ) : F :=
  if 0 ≤ x ∧ 0 ≤ y ∧ x < w ∧ y < h then gray (data.getD (y.toNat * w + x.toNat) 0) else 0

def sampleBilinear (data : List UInt8) (w h : ℕ) (sx sy : F) : UInt8 :=
  let x0 := ⌊sx⌋
  let y0 := ⌊sy⌋
  let fx := sx - x0
  let fy := sy - y0
  let p00 : F := pixelAt data w h x0 y0
  let p10 : F := pixelAt data w h (x0 + 1) y0
  let p01 : F := pixelAt data w h x0 (y0 + 1)
  let p11 : F := pixelAt data w h (x0 + 1) (y0 + 1)
  let val := p00 * (1 - fx) * (1 - fy) + p10 * fx * (1 - fy) + p01 * (1 - fx) * fy + p11 * fx * fy
  UInt8.ofNat (max 0 (min (roundAway val) 255)).toNat

def maxAlignedSize : ℕ := 4096

def arcfaceDst112 : Fin 5 → F × F :=
  ![(382946 / 10000, 516963 / 10000), (735318 / 10000, 515014 / 10000),
    (560252 / 10000, 717366 / 10000), (415493 / 10000, 923655 / 10000),
    (707299 / 10000, 922041 / 10000)]

/-- The crop at a place, by the place of the frame it comes from. -/
def alignedPixel (frame : IrFrame) (forward : Affine F) (inverse : Inverse F) (u v : ℕ) : UInt8 :=
  let p := inverse.apply ((u : F) - forward.m02, (v : F) - forward.m12)
  sampleBilinear frame.data frame.width frame.height p.1 p.2

def alignFace [Elementary F] (frame : IrFrame) (landmarks : FaceLandmarks F) (size : ℕ) :
    Except (MugError F) IrFrame := do
  if size = 0 ∨ maxAlignedSize < size then
    .error (.invalidFrame ("aligned size " ++ toString size ++ " out of range (1..=" ++
      toString maxAlignedSize ++ ")"))
  else
    let ratio : F := (size : F) / 112
    let dst := fun i => ((arcfaceDst112 i).1 * ratio, (arcfaceDst112 i).2 * ratio)
    let forward ← estimateSimilarity landmarks.points dst
    let inverse ← invertAffine forward
    IrFrame.new size size ((List.range size).flatMap fun v =>
      (List.range size).map fun u => alignedPixel frame forward inverse u v)

end Definitions

/-! ## The estimate as least squares -/

noncomputable instance : Elementary ℝ where
  sqrt := Real.sqrt
  exp := Real.exp
  sin := Real.sin
  cos := Real.cos
  atan2 y x := Complex.arg ⟨x, y⟩

open Geometry

/-- A point as a complex number. -/
def plane (p : ℝ × ℝ) : ℂ := ⟨p.1, p.2⟩

theorem plane_inj {p q : ℝ × ℝ} (h : plane p = plane q) : p = q :=
  Prod.ext (congrArg Complex.re h) (congrArg Complex.im h)

variable {src dst : Fin 5 → ℝ × ℝ}

theorem mean_plane (p : Fin 5 → ℝ × ℝ) :
    mean (fun i => plane (p i)) = ⟨(∑ i, (p i).1) / 5, (∑ i, (p i).2) / 5⟩ := by
  apply Complex.ext <;> simp [mean, plane]

theorem variance_plane (src dst : Fin 5 → ℝ × ℝ) :
    variance (fun i => plane (src i)) = (moments src dst).varSrc := by
  rw [variance, mean_plane]
  simp [plane, Complex.normSq_apply, moments]

theorem covariance_plane (src dst : Fin 5 → ℝ × ℝ) :
    covariance (fun i => plane (src i)) (fun i => plane (dst i)) =
      ⟨(moments src dst).a00 + (moments src dst).a11,
        (moments src dst).a10 - (moments src dst).a01⟩ := by
  rw [covariance, mean_plane, mean_plane]
  apply Complex.ext
  · simp only [plane, moments, ← add_div, ← Finset.sum_add_distrib, Fintype.card_fin,
      Nat.cast_ofNat, Complex.div_ofNat_re, Complex.re_sum, Complex.mul_re, Complex.sub_re,
      Complex.sub_im, Complex.conj_re, Complex.conj_im]
    congr 1
    exact Finset.sum_congr rfl fun i _ => by ring
  · simp only [plane, moments, ← sub_div, ← Finset.sum_sub_distrib, Fintype.card_fin,
      Nat.cast_ofNat, Complex.div_ofNat_im, Complex.im_sum, Complex.mul_im, Complex.sub_re,
      Complex.sub_im, Complex.conj_re, Complex.conj_im]
    congr 1
    exact Finset.sum_congr rfl fun i _ => by ring

/-- The slope of the closest map: `scale * cos theta` and `scale * sin theta`. -/
theorem slope_plane (src dst : Fin 5 → ℝ × ℝ) :
    Geometry.slope (fun i => plane (src i)) (fun i => plane (dst i)) =
      ⟨(moments src dst).scale * Real.cos (Elementary.atan2
          ((moments src dst).a10 - (moments src dst).a01)
          ((moments src dst).a00 + (moments src dst).a11)),
        (moments src dst).scale * Real.sin (Elementary.atan2
          ((moments src dst).a10 - (moments src dst).a01)
          ((moments src dst).a00 + (moments src dst).a11))⟩ := by
  rw [Geometry.slope, covariance_plane, variance_plane src dst]
  set m := moments src dst
  set c : ℂ := ⟨m.a00 + m.a11, m.a10 - m.a01⟩ with hc
  have hnorm : Elementary.sqrt (max (m.a00 * m.a00 + m.a01 * m.a01 + m.a10 * m.a10 +
      m.a11 * m.a11 + (2 : ℕ) * m.detA) 0) = ‖c‖ := by
    have hsq : m.a00 * m.a00 + m.a01 * m.a01 + m.a10 * m.a10 + m.a11 * m.a11 +
        (2 : ℕ) * m.detA = Complex.normSq c := by
      rw [hc, Complex.normSq_mk, Moments.detA, Nat.cast_ofNat]
      ring
    rw [hsq, max_eq_left (Complex.normSq_nonneg c)]
    exact (Complex.norm_def c).symm
  have harg : Elementary.atan2 (m.a10 - m.a01) (m.a00 + m.a11) = Complex.arg c := rfl
  rw [Moments.scale, hnorm, harg]
  apply Complex.ext
  · rw [Complex.div_ofReal_re, ← Complex.norm_mul_cos_arg]
    ring
  · rw [Complex.div_ofReal_im, ← Complex.norm_mul_sin_arg]
    ring

/-- What is estimated from: points that are not too close, a proper rotation, and a scale. -/
theorem estimateSimilarity_ok_iff {t : Affine ℝ} : estimateSimilarity src dst = .ok t ↔
    1 ≤ (moments src dst).varSrc ∧ 0 < (moments src dst).detA ∧
      1 / 1000 ≤ (moments src dst).scale ∧ t = (moments src dst).similarity := by
  unfold estimateSimilarity epsVar epsScale
  dsimp only
  split_ifs with hvar hdet hscale
  · exact iff_of_false nofun fun h => absurd h.1 (not_le.2 hvar)
  · exact iff_of_false nofun fun h => absurd h.2.1 (not_lt.2 hdet)
  · exact iff_of_false nofun fun h => absurd h.2.2.1 (not_le.2 hscale)
  · rw [Except.ok.injEq, eq_comm]
    exact ⟨fun h => ⟨not_lt.1 hvar, not_le.1 hdet, not_lt.1 hscale, h⟩, fun h => h.2.2.2⟩

theorem estimateSimilarity_rejects
    (h : (moments src dst).detA ≤ 0) : ∃ e, estimateSimilarity src dst = .error e := by
  cases hs : estimateSimilarity src dst with
  | error e => exact ⟨e, rfl⟩
  | ok t => exact absurd (estimateSimilarity_ok_iff.1 hs).2.1 (not_lt.2 h)

/-! ## The closest similarity -/

/-- A rotation by an angle, with a scale, and a translation. -/
noncomputable def similarityMap (scale theta : ℝ) (t : ℝ × ℝ) : Affine ℝ where
  m00 := scale * Real.cos theta
  m01 := -scale * Real.sin theta
  m02 := t.1
  m10 := scale * Real.sin theta
  m11 := scale * Real.cos theta
  m12 := t.2

theorem plane_similarityMap (scale theta : ℝ) (t p : ℝ × ℝ) :
    plane ((similarityMap scale theta t).apply p) =
      ⟨scale * Real.cos theta, scale * Real.sin theta⟩ * plane p + plane t := by
  apply Complex.ext
  · simp only [plane, similarityMap, Affine.apply, Complex.add_re, Complex.mul_re]
    ring
  · simp only [plane, similarityMap, Affine.apply, Complex.add_im, Complex.mul_im]
    ring

def sqDist (p q : ℝ × ℝ) : ℝ := (p.1 - q.1) ^ 2 + (p.2 - q.2) ^ 2

theorem sqDist_eq_normSq (p q : ℝ × ℝ) : sqDist p q = Complex.normSq (plane q - plane p) := by
  rw [sqDist, Complex.normSq_apply, Complex.sub_re, Complex.sub_im]
  simp only [plane]
  ring

theorem sqDist_eq_zero {p q : ℝ × ℝ} : sqDist p q = 0 ↔ p = q := by
  rw [sqDist_eq_normSq, Complex.normSq_eq_zero, sub_eq_zero]
  exact ⟨fun h => (plane_inj h).symm, fun h => h ▸ rfl⟩

/-- How far a map takes the first points from the second ones. -/
noncomputable def misfit (m : Affine ℝ) (src dst : Fin 5 → ℝ × ℝ) : ℝ :=
  ∑ i, sqDist (m.apply (src i)) (dst i)

/-- What is estimated is the slope of the closest map, and it takes mean to mean. -/
theorem plane_similarity_apply (src dst : Fin 5 → ℝ × ℝ) (p : ℝ × ℝ) :
    plane ((moments src dst).similarity.apply p) =
      Geometry.slope (fun i => plane (src i)) (fun i => plane (dst i)) *
        (plane p - mean fun i => plane (src i)) + mean fun i => plane (dst i) := by
  rw [slope_plane, mean_plane, mean_plane]
  apply Complex.ext
  · simp only [plane, Affine.apply, Moments.similarity, Complex.add_re, Complex.mul_re,
      Complex.sub_re, Complex.sub_im]
    simp only [moments, Elementary.cos, Elementary.sin]
    ring
  · simp only [plane, Affine.apply, Moments.similarity, Complex.add_im, Complex.mul_im,
      Complex.sub_re, Complex.sub_im]
    simp only [moments, Elementary.cos, Elementary.sin]
    ring

theorem misfit_similarity (src dst : Fin 5 → ℝ × ℝ) :
    misfit (moments src dst).similarity src dst = ∑ i, Complex.normSq
      (residual (fun i => plane (src i)) (fun i => plane (dst i)) i) := by
  refine Finset.sum_congr rfl fun i _ => ?_
  rw [sqDist_eq_normSq, plane_similarity_apply, Geometry.residual]
  congr 1
  ring

/-- **The estimate is the closest map.** -/
theorem misfit_le (h : 0 < (moments src dst).varSrc) (scale theta : ℝ) (t : ℝ × ℝ) :
    misfit (moments src dst).similarity src dst ≤ misfit (similarityMap scale theta t) src dst := by
  have hvar : variance (fun i => plane (src i)) ≠ 0 := by
    rw [variance_plane src dst]
    exact h.ne'
  rw [misfit_similarity]
  refine (sum_normSq_residual_le hvar ⟨scale * Real.cos theta, scale * Real.sin theta⟩
    (plane t)).trans_eq ?_
  refine Finset.sum_congr rfl fun i _ => ?_
  rw [sqDist_eq_normSq, plane_similarityMap]

/-- Points that a similarity has moved are taken where it has taken them. -/
theorem similarity_exact (h : 0 < (moments src dst).varSrc) {scale theta : ℝ} {t : ℝ × ℝ}
    (hd : ∀ i, dst i = (similarityMap scale theta t).apply (src i)) (i : Fin 5) :
    (moments src dst).similarity.apply (src i) = dst i := by
  have hzero : misfit (similarityMap scale theta t) src dst = 0 :=
    Finset.sum_eq_zero fun i _ => sqDist_eq_zero.2 (hd i).symm
  have hnonneg : ∀ i ∈ Finset.univ,
      0 ≤ sqDist ((moments src dst).similarity.apply (src i)) (dst i) := fun i _ => by
    unfold sqDist
    positivity
  have hle : misfit (moments src dst).similarity src dst ≤ 0 :=
    (misfit_le h scale theta t).trans_eq hzero
  have hsum := (Finset.sum_eq_zero_iff_of_nonneg hnonneg).1
    (le_antisymm hle (Finset.sum_nonneg hnonneg))
  exact sqDist_eq_zero.1 (hsum i (Finset.mem_univ i))

/-! ## The inverse -/

/-- The linear part. -/
def Affine.linear (m : Affine ℝ) (p : ℝ × ℝ) : ℝ × ℝ :=
  (m.m00 * p.1 + m.m01 * p.2, m.m10 * p.1 + m.m11 * p.2)

theorem invertAffine_inverse {m : Affine ℝ} {v : Inverse ℝ} (h : invertAffine m = .ok v) :
    (∀ p, v.apply (m.linear p) = p) ∧ ∀ p, m.linear (v.apply p) = p := by
  unfold invertAffine epsDet at h
  dsimp only at h
  split_ifs at h with hden
  obtain rfl := Except.ok.inj h
  have hne : m.m00 * m.m11 - m.m01 * m.m10 ≠ 0 := by
    intro hzero
    rw [hzero, abs_zero] at hden
    exact hden (by norm_num)
  generalize hd : m.m00 * m.m11 - m.m01 * m.m10 = den at hne
  constructor
  · intro p
    ext
    · simp only [Inverse.apply, Affine.linear]
      field_simp
      linear_combination p.1 * hd
    · simp only [Inverse.apply, Affine.linear]
      field_simp
      linear_combination p.2 * hd
  · intro p
    ext
    · simp only [Inverse.apply, Affine.linear]
      field_simp
      linear_combination p.1 * hd
    · simp only [Inverse.apply, Affine.linear]
      field_simp
      linear_combination p.2 * hd

/-- A similarity whose scale is accepted is inverted. -/
theorem invertAffine_similarityMap {scale theta : ℝ} {t : ℝ × ℝ} (h : 1 / 1000 ≤ scale) :
    ∃ v, invertAffine (similarityMap scale theta t) = .ok v := by
  have hden : scale * Real.cos theta * (scale * Real.cos theta) -
      -scale * Real.sin theta * (scale * Real.sin theta) = scale * scale := by
    linear_combination scale * scale * Real.cos_sq_add_sin_sq theta
  have hlarge : 1 / 1000 * (1 / 1000) ≤ scale * scale :=
    mul_le_mul h h (by norm_num) (by linarith)
  have hnot : ¬ |scale * scale| < 1 / 1000000000 := by
    rw [abs_of_nonneg (mul_self_nonneg scale)]
    exact not_lt.2 (le_trans (by norm_num) hlarge)
  unfold invertAffine similarityMap epsDet
  dsimp only
  rw [hden, if_neg hnot]
  exact ⟨_, rfl⟩

/-! ## Points on a line -/

/-- Points on a line differ from their mean by multiples of one direction. -/
theorem collinear_sub_mean {p : Fin 5 → ℝ × ℝ} (h : Collinear ℝ (Set.range p)) :
    ∃ (v : ℝ × ℝ) (r : Fin 5 → ℝ), ∀ i, (p i).1 - (∑ i, (p i).1) / 5 = r i * v.1 ∧
      (p i).2 - (∑ i, (p i).2) / 5 = r i * v.2 := by
  obtain ⟨v, hv⟩ := (collinear_iff_of_mem (Set.mem_range_self 0)).1 h
  choose r hr using fun i => hv (p i) (Set.mem_range_self i)
  have h1 : ∀ i, (p i).1 = r i * v.1 + (p 0).1 := fun i => congrArg Prod.fst (hr i)
  have h2 : ∀ i, (p i).2 = r i * v.2 + (p 0).2 := fun i => congrArg Prod.snd (hr i)
  refine ⟨v, fun i => r i - (∑ i, r i) / 5, fun i => ⟨?_, ?_⟩⟩
  · rw [Finset.sum_congr rfl fun i _ => h1 i, Finset.sum_add_distrib, ← Finset.sum_mul, h1 i]
    simp only [Finset.sum_const, Finset.card_univ, Fintype.card_fin, nsmul_eq_mul, Nat.cast_ofNat]
    ring
  · rw [Finset.sum_congr rfl fun i _ => h2 i, Finset.sum_add_distrib, ← Finset.sum_mul, h2 i]
    simp only [Finset.sum_const, Finset.card_univ, Fintype.card_fin, nsmul_eq_mul, Nat.cast_ofNat]
    ring

theorem detA_of_collinear_src (h : Collinear ℝ (Set.range src)) : (moments src dst).detA = 0 := by
  obtain ⟨v, r, hr⟩ := collinear_sub_mean h
  simp only [Moments.detA, moments, fun i => (hr i).1, fun i => (hr i).2, ← mul_assoc,
    ← Finset.sum_mul]
  ring

theorem detA_of_collinear_dst (h : Collinear ℝ (Set.range dst)) : (moments src dst).detA = 0 := by
  obtain ⟨v, r, hr⟩ := collinear_sub_mean h
  simp only [Moments.detA, moments, fun i => (hr i).1, fun i => (hr i).2, mul_right_comm _ v.1,
    mul_right_comm _ v.2, ← Finset.sum_mul]
  ring

/-- Where a map has moved the points, the covariances are those of the points under its linear part,
whose determinant then tells the orientation. -/
theorem detA_of_affine (m : Affine ℝ) (hd : ∀ i, dst i = m.apply (src i))
    (hm : m.m00 * m.m11 - m.m01 * m.m10 ≤ 0) : (moments src dst).detA ≤ 0 := by
  set x := fun i => (src i).1 - (∑ i, (src i).1) / 5 with hx
  set y := fun i => (src i).2 - (∑ i, (src i).2) / 5 with hy
  have hdx : ∀ i, (dst i).1 - (∑ i, (dst i).1) / 5 = m.m00 * x i + m.m01 * y i := by
    intro i
    simp only [hd, Affine.apply, Finset.sum_add_distrib, ← Finset.mul_sum, hx, hy]
    simp only [Finset.sum_const, Finset.card_univ, Fintype.card_fin, nsmul_eq_mul, Nat.cast_ofNat]
    ring
  have hdy : ∀ i, (dst i).2 - (∑ i, (dst i).2) / 5 = m.m10 * x i + m.m11 * y i := by
    intro i
    simp only [hd, Affine.apply, Finset.sum_add_distrib, ← Finset.mul_sum, hx, hy]
    simp only [Finset.sum_const, Finset.card_univ, Fintype.card_fin, nsmul_eq_mul, Nat.cast_ofNat]
    ring
  have hcs : (∑ i, x i * y i) ^ 2 ≤ (∑ i, x i ^ 2) * ∑ i, y i ^ 2 :=
    Finset.sum_mul_sq_le_sq_mul_sq ..
  have hdet : (moments src dst).detA = (m.m00 * m.m11 - m.m01 * m.m10) *
      ((∑ i, x i ^ 2) * (∑ i, y i ^ 2) - (∑ i, x i * y i) ^ 2) / 25 := by
    have hxx : ∀ a b : ℝ, ∑ i, (a * x i + b * y i) * x i =
        a * ∑ i, x i ^ 2 + b * ∑ i, x i * y i := fun a b => by
      rw [Finset.mul_sum, Finset.mul_sum, ← Finset.sum_add_distrib]
      exact Finset.sum_congr rfl fun i _ => by ring
    have hxy : ∀ a b : ℝ, ∑ i, (a * x i + b * y i) * y i =
        a * ∑ i, x i * y i + b * ∑ i, y i ^ 2 := fun a b => by
      rw [Finset.mul_sum, Finset.mul_sum, ← Finset.sum_add_distrib]
      exact Finset.sum_congr rfl fun i _ => by ring
    simp only [Moments.detA, moments, hdx, hdy]
    rw [hxx, hxx, hxy, hxy]
    ring
  rw [hdet]
  have hnonpos := mul_nonpos_of_nonpos_of_nonneg hm (sub_nonneg.2 hcs)
  linarith

/-- **The estimate is the closest similarity**: it is one, none takes the landmarks closer, it is
exact where one is, and it has an inverse. Points on a line, and a map that does not keep the
orientation, are rejected. -/
theorem estimateSimilarity_closest (src dst : Fin 5 → ℝ × ℝ) :
    (∀ m, estimateSimilarity src dst = .ok m →
      (∃ scale theta t, 0 < scale ∧ m = similarityMap scale theta t) ∧
      (∀ scale theta t, 0 < scale →
        misfit m src dst ≤ misfit (similarityMap scale theta t) src dst) ∧
      (∀ scale theta t, 0 < scale →
        (∀ i, dst i = (similarityMap scale theta t).apply (src i)) →
          ∀ i, m.apply (src i) = dst i) ∧
      ∃ v, invertAffine m = .ok v ∧ (∀ p, v.apply (m.linear p) = p) ∧
        ∀ p, m.linear (v.apply p) = p) ∧
    (Collinear ℝ (Set.range src) ∨ Collinear ℝ (Set.range dst) ∨ (moments src dst).detA ≤ 0 ∨
      (∃ m : Affine ℝ, m.m00 * m.m11 - m.m01 * m.m10 ≤ 0 ∧ ∀ i, dst i = m.apply (src i)) →
        ∃ e, estimateSimilarity src dst = .error e) := by
  refine ⟨fun m hm => ?_, fun h => estimateSimilarity_rejects ?_⟩
  · obtain ⟨hvar, -, hscale, rfl⟩ := estimateSimilarity_ok_iff.1 hm
    have hpos : 0 < (moments src dst).varSrc := one_pos.trans_le hvar
    have hmap : (moments src dst).similarity = similarityMap (moments src dst).scale
        (Elementary.atan2 ((moments src dst).a10 - (moments src dst).a01)
          ((moments src dst).a00 + (moments src dst).a11))
        ((moments src dst).similarity.m02, (moments src dst).similarity.m12) := rfl
    refine ⟨⟨_, _, _, lt_of_lt_of_le (by norm_num) hscale, hmap⟩,
      fun scale theta t _ => misfit_le hpos scale theta t,
      fun scale theta t _ hd => similarity_exact hpos hd, ?_⟩
    obtain ⟨v, hv⟩ : ∃ v, invertAffine (moments src dst).similarity = .ok v := by
      rw [hmap]
      exact invertAffine_similarityMap hscale
    exact ⟨v, hv, invertAffine_inverse hv⟩
  · obtain h | h | h | ⟨m, hm, hd⟩ := h
    · exact (detA_of_collinear_src h).le
    · exact (detA_of_collinear_dst h).le
    · exact h
    · exact detA_of_affine m hd hm

/-- The corners of a square, one of them twice. -/
def square : Fin 5 → ℝ × ℝ := ![(0, 0), (5, 0), (5, 5), (0, 5), (0, 0)]

theorem square_moments : moments square square = ⟨2, 2, 2, 2, 6, 1, 1, 6, 12⟩ := by
  simp only [moments, square, Fin.sum_univ_five, Matrix.cons_val]
  norm_num

theorem square_scale : (moments square square).scale = 1 := by
  have hsqrt : Real.sqrt 144 = 12 := by
    rw [show (144 : ℝ) = 12 ^ 2 by norm_num, Real.sqrt_sq (by norm_num)]
  simp only [square_moments, Moments.scale, Moments.detA, Elementary.sqrt]
  norm_num [hsqrt]

theorem estimateSimilarity_closest_square : ∃ m, estimateSimilarity square square = .ok m ∧
    ∀ i, m.apply (square i) = square i := by
  have hm : estimateSimilarity square square = .ok (moments square square).similarity :=
    estimateSimilarity_ok_iff.2 ⟨by norm_num [square_moments],
      by norm_num [square_moments, Moments.detA], by norm_num [square_scale], rfl⟩
  have hid : ∀ i, square i = (similarityMap 1 0 (0, 0)).apply (square i) := fun i => by
    simp [similarityMap, Affine.apply]
  exact ⟨_, hm, ((estimateSimilarity_closest square square).1 _ hm).2.2.1 1 0 (0, 0) one_pos hid⟩

end Mug

end Tess

import Tess.Lists.Means
import Tess.Mug.Agreement

/-!
# Relief

The gates of liveness bound statistics of a pair. What a pair has to look like for that, pixel by
pixel: the emitter adds enough light somewhere, and more to some pixels than to others by twice the
least deviation; neighbouring pixels differ; a scene that is bright without the emitter gets much
brighter with it; and not too much of it is saturated. A flat photo, a smooth one and a screen lack
one of these, and neither are they let in nor are templates made from them.
-/

namespace Tess

namespace Mug

open Effects Lists

/-! ## The gates -/

section Gates

variable {F : Type} [Field F] [LinearOrder F]

/-- The features clear every gate. -/
structure Clears (f : LivenessFeatures F) (cfg : LivenessConfig F) : Prop where
  mean : cfg.minMeanDelta ≤ f.meanDelta
  emission : cfg.maxBaselineForLive < f.baselineMean → cfg.emissionMinDelta ≤ f.meanDelta
  saturated : f.saturatedFraction ≤ cfg.maxSaturatedFraction
  std : cfg.minDeltaStd ≤ f.deltaStd
  gradient : cfg.minGradientEnergy ≤ f.gradientEnergy
  score : cfg.scoreThreshold ≤ f.score

theorem firstFailingGate_eq_none {fixed : ℕ → F → String} {f : LivenessFeatures F}
    {cfg : LivenessConfig F} (h : firstFailingGate fixed f cfg = none) : Clears f cfg := by
  unfold firstFailingGate at h
  split_ifs at h with hmean hemission hsaturated hstd hgradient hscore
  exact ⟨not_lt.1 hmean, fun hb => not_lt.1 fun hlt => hemission ⟨hb, hlt⟩, not_lt.1 hsaturated,
    not_lt.1 hstd, not_lt.1 hgradient, not_lt.1 hscore⟩

/-- A pair that passes is large enough, and clears every gate. -/
theorem analyze_passed [Elementary F] {fixed : ℕ → F → String} {pair : FramePair} {cfg : LivenessConfig F}
    {report : LivenessReport F} (h : analyze fixed pair cfg = .ok report)
    (hp : report.passed = true) :
    3 ≤ pair.dimensions.1 ∧ 3 ≤ pair.dimensions.2 ∧ Clears (liveFeatures pair) cfg := by
  unfold analyze at h
  dsimp only at h
  split_ifs at h with hsize
  obtain rfl := Except.ok.inj h
  exact ⟨by omega, by omega, firstFailingGate_eq_none (Option.isNone_iff_eq_none.1 hp)⟩

end Gates

/-! ## What a live pair looks like -/

section Pixels

variable {F : Type} [Field F] [LinearOrder F]

/-- What the emitter adds to each pixel, row after row. -/
def FramePair.returned (pair : FramePair) : List F :=
  List.zipWith difference pair.emitterOff.data pair.emitterOn.data

def FramePair.returnedAt (pair : FramePair) (x y : ℕ) : F :=
  pair.returned.getD (y * pair.dimensions.1 + x) 0

/-- A pair as its configuration wants it, pixel by pixel. -/
structure Lifelike (pair : FramePair) (cfg : LivenessConfig F) : Prop where
  lit : ∃ d ∈ pair.returned, cfg.minMeanDelta ≤ d
  uneven : ∃ d ∈ pair.returned, ∃ d' ∈ pair.returned, 2 * cfg.minDeltaStd ≤ d' - d
  relief : ∃ x y, x + 1 < pair.dimensions.1 ∧ y + 1 < pair.dimensions.2 ∧
    cfg.minGradientEnergy ≤ |pair.returnedAt (x + 1) y - pair.returnedAt x y| +
      |pair.returnedAt x (y + 1) - pair.returnedAt x y|
  passive : (∀ p ∈ pair.emitterOff.data, cfg.maxBaselineForLive < (gray p : F)) →
    ∃ d ∈ pair.returned, cfg.emissionMinDelta ≤ d
  unsaturated : (pair.emitterOn.data.countP (saturationLevel ≤ ·) : F) ≤
    cfg.maxSaturatedFraction * (pair.emitterOn.data.length : F)

theorem length_data (pair : FramePair) :
    pair.emitterOff.data.length = pair.emitterOn.data.length := by
  obtain ⟨off, on, h⟩ := pair
  obtain ⟨hw, hh⟩ := Prod.mk.inj h
  rw [off.length_data, on.length_data, hw, hh]

theorem length_returned (pair : FramePair) :
    (pair.returned : List F).length = pair.emitterOff.data.length := by
  rw [FramePair.returned, List.length_zipWith, ← length_data, Nat.min_self]

theorem data_ne_nil {pair : FramePair} (hw : 3 ≤ pair.dimensions.1) (hh : 3 ≤ pair.dimensions.2) :
    pair.emitterOff.data ≠ [] := by
  have hlen : pair.emitterOff.data.length = pair.dimensions.1 * pair.dimensions.2 :=
    pair.emitterOff.length_data
  have : 0 < pair.dimensions.1 * pair.dimensions.2 := Nat.mul_pos (by omega) (by omega)
  exact List.ne_nil_of_length_pos (by omega)

variable [IsStrictOrderedRing F]

/-- The mean gradient is reached somewhere. -/
theorem exists_gradient {delta : List F} {w h : ℕ} (hw : 3 ≤ w) (hh : 3 ≤ h) {g : F}
    (hg : g ≤ meanGradient delta w h) : ∃ x y, x + 1 < w ∧ y + 1 < h ∧
      g ≤ |delta.getD (y * w + x + 1) 0 - delta.getD (y * w + x) 0| +
        |delta.getD ((y + 1) * w + x) 0 - delta.getD (y * w + x) 0| := by
  unfold meanGradient at hg
  dsimp only at hg
  split_ifs at hg with hnone
  · rw [List.length_flatMap] at hnone
    simp at hnone
    omega
  · have hsteps := List.ne_nil_of_length_pos (Nat.pos_of_ne_zero hnone)
    obtain ⟨d, hd, hle⟩ := exists_le_of_le_mean hsteps hg
    obtain ⟨y, hy, hd⟩ := List.mem_flatMap.1 hd
    obtain ⟨x, hx, rfl⟩ := List.mem_map.1 hd
    have hx := List.mem_range.1 hx
    have hy := List.mem_range.1 hy
    exact ⟨x, y, by omega, by omega, hle⟩

end Pixels

/-- **What clears the gates** looks like a face, pixel by pixel. -/
theorem Clears.lifelike {pair : FramePair} {cfg : LivenessConfig ℝ} (hw : 3 ≤ pair.dimensions.1)
    (hh : 3 ≤ pair.dimensions.2) (h : Clears (liveFeatures pair) cfg) : Lifelike pair cfg := by
  have hoff := data_ne_nil hw hh
  have hlen : pair.emitterOff.data.length = (pair.returned : List ℝ).length :=
    (length_returned pair).symm
  have hret : (pair.returned : List ℝ) ≠ [] := by
    intro hnil
    rw [hnil] at hlen
    exact hoff (List.length_eq_zero_iff.1 hlen)
  have hn : (0 : ℝ) < (pair.emitterOff.data.length : ℝ) := by
    rw [hlen]
    exact length_pos hret
  have hmean : (liveFeatures pair : LivenessFeatures ℝ).meanDelta =
      pair.returned.sum / ((pair.returned : List ℝ).length : ℝ) := by
    rw [← hlen]
    rfl
  refine ⟨?_, ?_, ?_, fun hbright => ?_, ?_⟩
  · exact exists_le_of_le_mean hret (hmean ▸ h.mean)
  · obtain hle | hpos := le_or_gt cfg.minDeltaStd 0
    · obtain ⟨d, hd⟩ := List.exists_mem_of_ne_nil _ hret
      exact ⟨d, hd, d, hd, by linarith⟩
    · refine exists_far_apart hret hpos.le ?_
      have hstd : cfg.minDeltaStd ≤ Real.sqrt (squaresAround pair.returned
          (pair.returned.sum / ((pair.returned : List ℝ).length : ℝ)) /
            ((pair.returned : List ℝ).length : ℝ)) := by
        rw [← hlen]
        exact h.std
      rw [← pow_two]
      exact (Real.le_sqrt' hpos).1 hstd
  · exact exists_gradient hw hh h.gradient
  · refine exists_le_of_le_mean hret (hmean ▸ h.emission ?_)
    have hall : ∀ d ∈ pair.emitterOff.data.map (gray (F := ℝ)), cfg.maxBaselineForLive < d := by
      intro d hd
      obtain ⟨p, hp, rfl⟩ := List.mem_map.1 hd
      exact hbright p hp
    have hlt := lt_mean (mt List.map_eq_nil_iff.1 hoff) hall
    rwa [List.length_map] at hlt
  · rw [← length_data]
    exact (div_le_iff₀ hn).1 h.saturated

/-! ## What is let in, and what is enrolled -/

/-- The frames of an enrollment are those of its pair. -/
theorem captureTemplate_frames {K : Kernels ℝ} {source : MugTemplateSource ℝ}
    {t : FaceEnrollment ℝ} {l : List (Event ℝ)} (h : Ends (captureTemplate K source) (.ok t) l) :
    ∃ (pair : FramePair) (report : LivenessReport ℝ),
      frames l = [pair.emitterOff, pair.emitterOn] ∧
        K.analyze pair source.livenessCfg = .ok report ∧ report.passed = true := by
  obtain ⟨pair, l₁, report, face, l₂, created, rfl, hp, ha, hpass, hface, -, -⟩ :=
    captureTemplate_ok h
  refine ⟨pair, report, ?_, ha, hpass⟩
  obtain ⟨t₀, t', x, rfl⟩ := hp.ok
  have hnone : frames l₂ = [] := by
    obtain ⟨-, -, rfl⟩ | ⟨-, x, -, rfl⟩ := enrollmentFrame_ok hface
    · rfl
    · rfl
  rw [frames_append, frames_append, hnone]
  rfl

/-- **Liveness**: whatever the camera, the emitter and the models do, a run of the gate that lets a
face in began with a pair that looks like one, and so did a run that captured a template. -/
theorem face_lifelike (fixed : ℕ → ℝ → String) (detector : Bool) (enrolled : FaceEnrollment ℝ)
    (cfg : LivenessConfig ℝ) (deadlineMs rounds : ℕ) (source : MugTemplateSource ℝ) :
    (∀ l, Ends (verify (exact fixed) detector enrolled cfg deadlineMs rounds) (.ok ()) l →
      ∃ pair : FramePair, [pair.emitterOff, pair.emitterOn] <+: frames l ∧
        Lifelike pair (effectiveConfig enrolled cfg)) ∧
    ∀ t l, Ends (captureTemplate (exact fixed) source) (.ok t) l →
      ∃ pair : FramePair, frames l = [pair.emitterOff, pair.emitterOn] ∧
        Lifelike pair source.livenessCfg := by
  constructor
  · intro l h
    obtain ⟨pair, fs, report, hframes, ha, hpass⟩ := (verify_letIn h).live
    obtain ⟨hw, hh, hclears⟩ := analyze_passed ha hpass
    refine ⟨pair, ⟨fs, ?_⟩, hclears.lifelike hw hh⟩
    rw [hframes]
    rfl
  · intro t l h
    obtain ⟨pair, report, hframes, ha, hpass⟩ := captureTemplate_frames h
    obtain ⟨hw, hh, hclears⟩ := analyze_passed ha hpass
    exact ⟨pair, hframes, hclears.lifelike hw hh⟩

theorem face_lifelike_sample : ∃ pair : FramePair,
    [pair.emitterOff, pair.emitterOn] <+: frames sampleVerify ∧
      Lifelike pair (effectiveConfig sampleTemplate sampleMug.livenessConfig) :=
  (face_lifelike (fun _ _ => "") false sampleTemplate sampleMug.livenessConfig 2500 9
    (mugTemplateSource false sampleMug)).1 _ sampleVerify_ends

end Mug

end Tess

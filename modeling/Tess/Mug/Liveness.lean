import Mathlib.Algebra.Order.Field.Basic
import Tess.Mug.Camera

/-!
# Liveness

What the emitter adds to the light of a scene tells a face from a photo or a screen. The statistics
of the difference of two frames have to clear every gate of a configuration. This module follows
`mug/src/liveness.rs`, in exact arithmetic.
-/

namespace Tess

namespace Mug

/-- The functions on numbers that come with them. -/
class Elementary (F : Type) where
  sqrt : F → F
  exp : F → F
  sin : F → F
  cos : F → F
  atan2 : F → F → F

structure LivenessConfig (F : Type) where
  minMeanDelta : F
  minDeltaStd : F
  minGradientEnergy : F
  maxBaselineForLive : F
  emissionMinDelta : F
  maxSaturatedFraction : F
  scoreThreshold : F

structure LivenessFeatures (F : Type) where
  meanDelta : F
  deltaStd : F
  gradientEnergy : F
  specularFraction : F
  saturatedFraction : F
  baselineMean : F
  score : F

structure LivenessReport (F : Type) where
  features : LivenessFeatures F
  passed : Bool
  reason : Option String

variable {F : Type}

def LivenessReport.intoResult (report : LivenessReport F) :
    Except (MugError F) (LivenessFeatures F) :=
  if report.passed then .ok report.features
  else .error (.livenessRejected (report.reason.getD "below liveness threshold"))

theorem LivenessReport.intoResult_ok_iff {report : LivenessReport F} {f : LivenessFeatures F} :
    report.intoResult = .ok f ↔ report.passed = true ∧ report.features = f := by
  unfold intoResult
  split <;> simp [*]

theorem LivenessReport.intoResult_rejected (report : LivenessReport F)
    (hno : report.passed = false) : report.intoResult =
      .error (.livenessRejected (report.reason.getD "below liveness threshold")) := by
  rw [intoResult, if_neg (by simp [hno])]

section Analysis

variable [Field F] [LinearOrder F] [Elementary F]

def specularLevel : UInt8 := 235

def specularMinDelta : F := 40

def saturationLevel : UInt8 := 250

def meanRef : F := 60

def stdRef : F := 45

def gradRef : F := 25

def specRef : F := 2 / 100

def clamp (x lo hi : F) : F := if x < lo then lo else if hi < x then hi else x

def gray (pixel : UInt8) : F := (pixel.toNat : F)

/-- What the emitter adds to a pixel. -/
def difference (off on : UInt8) : F := max (gray on - gray off) 0

/-- The mean of the forward gradient, over the pixels that have a right and a lower neighbour. -/
def meanGradient (delta : List F) (w h : ℕ) : F :=
  let steps := (List.range (h - 1)).flatMap fun y => (List.range (w - 1)).map fun x =>
    let c := delta.getD (y * w + x) 0
    |delta.getD (y * w + x + 1) 0 - c| + |delta.getD ((y + 1) * w + x) 0 - c|
  if steps.length = 0 then 0 else steps.sum / (steps.length : F)

def compositeScore (meanDelta deltaStd gradient specular : F) : F :=
  let sMean := clamp (meanDelta / meanRef) 0 1
  let sStd := clamp (deltaStd / stdRef) 0 1
  let sGrad := clamp (gradient / gradRef) 0 1
  let sSpec := clamp (specular / specRef) 0 1
  30 / 100 * sMean + 30 / 100 * sStd + 30 / 100 * sGrad + 10 / 100 * sSpec

def liveFeatures (pair : FramePair) : LivenessFeatures F :=
  let off := pair.emitterOff.data
  let on := pair.emitterOn.data
  let n : F := (off.length : F)
  let delta : List F := List.zipWith difference off on
  let specular := (List.zip on delta).countP fun (p, d) =>
    decide (specularLevel ≤ p ∧ specularMinDelta ≤ d)
  let saturated := on.countP (saturationLevel ≤ ·)
  let meanDelta := delta.sum / n
  let deltaStd := Elementary.sqrt ((delta.map fun d => (d - meanDelta) * (d - meanDelta)).sum / n)
  let gradientEnergy := meanGradient delta pair.dimensions.1 pair.dimensions.2
  let specularFraction := (specular : F) / n
  { meanDelta, deltaStd, gradientEnergy, specularFraction
    saturatedFraction := (saturated : F) / n
    baselineMean := (off.map gray).sum / n
    score := compositeScore meanDelta deltaStd gradientEnergy specularFraction }

variable (fixed : ℕ → F → String)

/-- Why the first gate that does not hold rejects, with numbers to so many digits. -/
def firstFailingGate (f : LivenessFeatures F) (cfg : LivenessConfig F) : Option String :=
  if f.meanDelta < cfg.minMeanDelta then
    some ("weak active-illumination return (mean delta " ++ fixed 1 f.meanDelta ++ " < " ++
      fixed 1 cfg.minMeanDelta ++ "); flat, distant, or screen")
  else if cfg.maxBaselineForLive < f.baselineMean ∧ f.meanDelta < cfg.emissionMinDelta then
    some ("bright IR baseline " ++ fixed 1 f.baselineMean ++ " with weak differential " ++
      fixed 1 f.meanDelta ++ "; likely a self-emitting screen")
  else if cfg.maxSaturatedFraction < f.saturatedFraction then
    some ("excessive saturation (" ++ fixed 0 (f.saturatedFraction * 100) ++
      "% of frame); likely screen glare")
  else if f.deltaStd < cfg.minDeltaStd then
    some ("spatially uniform return (delta std " ++ fixed 1 f.deltaStd ++ " < " ++
      fixed 1 cfg.minDeltaStd ++ "); likely a flat photo")
  else if f.gradientEnergy < cfg.minGradientEnergy then
    some ("no 3-D relief in IR return (gradient " ++ fixed 1 f.gradientEnergy ++ " < " ++
      fixed 1 cfg.minGradientEnergy ++ "); likely a smooth/glossy photo")
  else if f.score < cfg.scoreThreshold then
    some ("composite liveness score " ++ fixed 2 f.score ++ " < " ++ fixed 2 cfg.scoreThreshold)
  else none

def analyze (pair : FramePair) (cfg : LivenessConfig F) :
    Except (MugError F) (LivenessReport F) :=
  let (w, h) := pair.dimensions
  if w < 3 ∨ h < 3 then
    .error (.invalidFrame ("frame too small for liveness analysis: " ++ toString w ++ "x" ++
      toString h))
  else
    let features := liveFeatures pair
    let reason := firstFailingGate fixed features cfg
    .ok ⟨features, reason.isNone, reason⟩

end Analysis

end Mug

end Tess

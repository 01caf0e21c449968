import Tess.Mug.Align
import Tess.Mug.Gate
import Tess.Mug.Store

/-!
# Templates

The template of a face is the embedding of the frame with the emitter on of a live pair. This module
follows `MugTemplateSource` and `run_verify` of `tess-cli/src/face.rs`, `mug/src/config.rs`, and
`cosine_distance` of `mug/src/matcher.rs` in exact arithmetic, where every cosine is finite.
-/

namespace Tess

namespace Mug

open Effects

variable {F : Type}

section Exact

variable [Field F] [LinearOrder F] [Elementary F]

def cosineDistance (a b : List F) : Except (MugError F) F :=
  if a.length ≠ b.length then
    .error (.invalidFrame ("embedding length mismatch: " ++ toString a.length ++ " vs " ++
      toString b.length))
  else
    let dot := (List.zipWith (· * ·) a b).sum
    let na := Elementary.sqrt (a.map fun x => x * x).sum
    let nb := Elementary.sqrt (b.map fun x => x * x).sum
    if na = 0 ∨ nb = 0 then .error (.invalidFrame "zero-magnitude embedding")
    else .ok (clamp (1 - dot / (na * nb)) 0 (2 : ℕ))

/-- What the gate computes, in exact arithmetic. -/
def exact [FloorRing F] (fixed : ℕ → F → String) : Kernels F where
  analyze := analyze fixed
  alignFace := alignFace
  cosineDistance := cosineDistance

end Exact

/-! ## The configuration -/

structure LivenessThresholds (F : Type) where
  minMeanDelta : F
  minDeltaStd : F
  minGradientEnergy : F
  maxBaselineForLive : F
  emissionMinDelta : F
  maxSaturatedFraction : F
  scoreThreshold : F

structure MugConfig (F : Type) where
  captureDeadlineMs : ℕ
  matchThreshold : F
  liveness : LivenessThresholds F

section Default

variable [Field F]

def LivenessThresholds.default : LivenessThresholds F where
  minMeanDelta := ((12 : ℕ) : F)
  minDeltaStd := ((16 : ℕ) : F)
  minGradientEnergy := ((5 : ℕ) : F)
  maxBaselineForLive := ((70 : ℕ) : F)
  emissionMinDelta := ((20 : ℕ) : F)
  maxSaturatedFraction := ((1 : ℕ) : F) / ((2 : ℕ) : F)
  scoreThreshold := ((45 : ℕ) : F) / ((100 : ℕ) : F)

def MugConfig.default : MugConfig F where
  captureDeadlineMs := 2500
  matchThreshold := ((34 : ℕ) : F) / ((100 : ℕ) : F)
  liveness := .default

theorem MugConfig.default_matchThreshold [LinearOrder F] [IsStrictOrderedRing F] :
    0 ≤ (MugConfig.default : MugConfig F).matchThreshold := by
  unfold MugConfig.default
  positivity

end Default

def MugConfig.livenessConfig (cfg : MugConfig F) : LivenessConfig F where
  minMeanDelta := cfg.liveness.minMeanDelta
  minDeltaStd := cfg.liveness.minDeltaStd
  minGradientEnergy := cfg.liveness.minGradientEnergy
  maxBaselineForLive := cfg.liveness.maxBaselineForLive
  emissionMinDelta := cfg.liveness.emissionMinDelta
  maxSaturatedFraction := cfg.liveness.maxSaturatedFraction
  scoreThreshold := cfg.liveness.scoreThreshold

/-! ## Enrollment -/

/-- What was being done, and why it failed. -/
abbrev TemplateError (F : Type) := String × MugError F

abbrev TemplateIo (F : Type) := ExceptT (Stop (TemplateError F)) (Prog (Op.Res F))

def context {α : Type} (what : String) (x : Io F α) : TemplateIo F α := rethrow (what, ·) x

def unixTime : TemplateIo F (Option ℕ) := ask .unixTime .ok

structure MugTemplateSource (F : Type) where
  detector : Bool
  livenessCfg : LivenessConfig F
  matchThreshold : F
  deadlineMs : ℕ

def mugTemplateSource (detector : Bool) (cfg : MugConfig F) : MugTemplateSource F where
  detector := detector
  livenessCfg := cfg.livenessConfig
  matchThreshold := cfg.matchThreshold
  deadlineMs := cfg.captureDeadlineMs

/-- The frame that is embedded: the face, or the whole frame where there is no detector. -/
def enrollmentFrame (K : Kernels F) (detector : Bool) (frame : IrFrame) : TemplateIo F IrFrame :=
  if detector then
    context "locate/align the enrollment face" (locateAndAlign K frame alignedFaceSize)
  else pure frame

def captureTemplate (K : Kernels F) (source : MugTemplateSource F) :
    TemplateIo F (FaceEnrollment F) := do
  let pair ← context "capture the IR frame pair" (captureLivenessPair source.deadlineMs)
  let report ← context "analyze liveness" (lift (K.analyze pair source.livenessCfg))
  let features ← context "liveness check failed during enrollment" (lift report.intoResult)
  let face ← enrollmentFrame K source.detector pair.emitterOn
  let embedding ← context "embed the enrollment frame" (extract face)
  let created ← unixTime
  pure {
    version := enrollmentVersion
    createdUnix := created.getD 0
    embedding := embedding
    matchThreshold := source.matchThreshold
    liveness := ⟨features.score, source.livenessCfg.scoreThreshold⟩ }

def runVerify [LinearOrder F] (K : Kernels F) (detector : Bool) (enrolled : FaceEnrollment F)
    (cfg : MugConfig F) (rounds : ℕ) : Io F Unit :=
  verify K detector enrolled cfg.livenessConfig cfg.captureDeadlineMs rounds

/-! ## The runs of an enrollment -/

variable {K : Kernels F}

theorem ends_context_ok_iff {α : Type} {what : String} {x : Io F α} {a : α} {l : List (Event F)} :
    Ends (context what x) (.ok a) l ↔ Ends x (.ok a) l := ends_rethrow_ok_iff

theorem ends_context_lift_iff {α : Type} {what : String} {x : Except (MugError F) α}
    {r : Except (Stop (TemplateError F)) α} {l : List (Event F)} :
    Ends (context what (lift x)) r l ↔ r = x.mapError (fun e => .failed (what, e)) ∧ l = [] := by
  cases x with
  | ok a => exact traces_pure_iff
  | error e => exact traces_pure_iff

theorem ends_context_lift_ok {α : Type} {what : String} {x : Except (MugError F) α} {a : α}
    (hx : x = .ok a) : Ends (context what (lift x)) (.ok a) [] :=
  ends_context_lift_iff.2 ⟨by rw [hx]; rfl, rfl⟩

theorem ends_context_lift_error {α : Type} {what : String} {x : Except (MugError F) α}
    {e : MugError F} (hx : x = .error e) :
    Ends (context what (lift x)) (.error (.failed (what, e))) [] :=
  ends_context_lift_iff.2 ⟨by rw [hx]; rfl, rfl⟩

theorem enrollmentFrame_ok {detector : Bool} {frame face : IrFrame} {l : List (Event F)}
    (h : Ends (enrollmentFrame K detector frame) (.ok face) l) :
    (detector = false ∧ face = frame ∧ l = []) ∨
      detector = true ∧ ∃ x, faceOf K frame x = .ok face ∧ l = [⟨.detect frame, x⟩] := by
  unfold enrollmentFrame at h
  cases detector with
  | false =>
    obtain ⟨hr, rfl⟩ := ends_pure_iff.1 h
    exact .inl ⟨rfl, Except.ok.inj hr, rfl⟩
  | true =>
    obtain ⟨x, rfl, hx⟩ := locateAndAlign_run (ends_context_ok_iff.1 h)
    exact .inr ⟨rfl, x, mapError_eq_ok.1 hx.symm, rfl⟩

/-- **A template that was captured**: its pair was live, and it is the embedding of the face. -/
theorem captureTemplate_ok {source : MugTemplateSource F} {t : FaceEnrollment F}
    {l : List (Event F)} (h : Ends (captureTemplate K source) (.ok t) l) :
    ∃ pair l₁ report face l₂ created, l = l₁ ++ l₂ ++ [⟨.extract face, .ok t.embedding⟩,
        ⟨.unixTime, created⟩] ∧
      PairRun source.deadlineMs (.ok pair) l₁ ∧
      K.analyze pair source.livenessCfg = .ok report ∧ report.passed = true ∧
      Ends (enrollmentFrame K source.detector pair.emitterOn) (.ok face) l₂ ∧
      t.matchThreshold = source.matchThreshold ∧
      t.liveness = ⟨report.features.score, source.livenessCfg.scoreThreshold⟩ := by
  unfold captureTemplate at h
  obtain ⟨_, ⟨⟩, -⟩ | ⟨pair, l₁, l, rfl, hp, h⟩ := ends_bind_iff.1 h
  obtain ⟨_, ⟨⟩, -⟩ | ⟨report, l₂, l, rfl, ha, h⟩ := ends_bind_iff.1 h
  obtain ⟨_, ⟨⟩, -⟩ | ⟨features, l₃, l, rfl, hf, h⟩ := ends_bind_iff.1 h
  obtain ⟨_, ⟨⟩, -⟩ | ⟨face, l₄, l, rfl, hface, h⟩ := ends_bind_iff.1 h
  obtain ⟨_, ⟨⟩, -⟩ | ⟨embedding, l₅, l, rfl, he, h⟩ := ends_bind_iff.1 h
  obtain ⟨_, ⟨⟩, -⟩ | ⟨created, l₆, l, rfl, hc, hret⟩ := ends_bind_iff.1 h
  obtain ⟨hreport, rfl⟩ := ends_ofResult_iff.1 (ends_context_ok_iff.1 ha)
  obtain ⟨hfeatures, rfl⟩ := ends_ofResult_iff.1 (ends_context_ok_iff.1 hf)
  obtain ⟨x, hx, rfl⟩ := ends_ask_iff.1 (ends_context_ok_iff.1 he)
  obtain ⟨y, hy, rfl⟩ := ends_ask_iff.1 hc
  obtain ⟨ht, rfl⟩ := ends_pure_iff.1 hret
  obtain rfl := Except.ok.inj ht
  obtain rfl := mapError_eq_ok.1 hx.symm
  obtain ⟨hpass, rfl⟩ := LivenessReport.intoResult_ok_iff.1 (mapError_eq_ok.1 hfeatures.symm)
  exact ⟨pair, l₁, report, face, l₄, y, by simp, captureLivenessPair_run (ends_context_ok_iff.1 hp),
    mapError_eq_ok.1 hreport.symm, hpass, hface, rfl, rfl⟩

end Mug

end Tess

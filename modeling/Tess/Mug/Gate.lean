import Mathlib.Data.PNat.Basic
import Tess.Lists.Selection
import Tess.Mug.Liveness

/-!
# The face gate

A face is let in where a liveness pair passes, and the frame with the emitter on and those after it
match the enrolled template by a majority. This module follows `mug/src/gate.rs`,
`mug/src/matcher.rs` and `locate_and_align` of `mug/src/detect.rs`. A run is judged by the calls it
has made, whatever the camera, the emitter and the models answer to them.
-/

namespace Tess

namespace Mug

open Effects

variable {F : Type}

structure LivenessCalibration (F : Type) where
  enrolledScore : F
  scoreThreshold : F

structure FaceEnrollment (F : Type) where
  version : ℕ
  createdUnix : ℕ
  embedding : List F
  matchThreshold : F
  liveness : LivenessCalibration F

/-- What the gate computes with numbers. -/
structure Kernels (F : Type) where
  analyze : FramePair → LivenessConfig F → Except (MugError F) (LivenessReport F)
  alignFace : IrFrame → FaceLandmarks F → ℕ → Except (MugError F) IrFrame
  cosineDistance : List F → List F → Except (MugError F) F

def matchFrames : ℕ := 5

def minMatchFrames : ℕ+ := 3

def perFrameBudgetMs : ℕ := 150

def alignedFaceSize : ℕ := 112

variable (K : Kernels F) (detector : Bool)

def detect (frame : IrFrame) : Io F (Detection F) := ask (.detect frame) (·.mapError .failed)

def extract (frame : IrFrame) : Io F (List F) := ask (.extract frame) (·.mapError .failed)

def locateAndAlign (frame : IrFrame) (size : ℕ) : Io F IrFrame := do
  let det ← detect frame
  lift (K.alignFace frame det.landmarks size)

/-- `Matcher::distance`. -/
def distance (frame : IrFrame) (enrolled : List F) : Io F F := do
  let candidate ← extract frame
  lift (K.cosineDistance candidate enrolled)

/-- The distance of a frame, unless there is a detector and it has seen no face. -/
def frameDistance (frame : IrFrame) (enrolled : FaceEnrollment F) : Io F (Option F) :=
  if detector then do
    match ← settle (locateAndAlign K frame alignedFaceSize) with
    | .ok aligned =>
      let d ← distance K aligned enrolled.embedding
      pure (some d)
    | .error .noFace => pure none
    | .error e => throw (.failed e)
  else do
    let d ← distance K frame enrolled.embedding
    pure (some d)

def decideMatch [LinearOrder F] (distances : List F) (threshold : F) (minFrames : ℕ+) :
    Except (MugError F) Unit :=
  if h : distances.length < minFrames then
    .error (.insufficientFrames distances.length minFrames)
  else
    let median := Lists.median distances fun hnil => h (by simp [hnil])
    if median ≤ threshold then .ok () else .error (.noMatch median threshold)

/-- A round of the loop that collects distances. -/
def matchRound (enrolled : FaceEnrollment F) (deadline : ℕ) (distances : List F) :
    Io F (List F ⊕ List F) := do
  if matchFrames ≤ distances.length then pure (.inr distances)
  else do
    let t ← now
    let remaining := remainingMs deadline t
    if remaining = 0 then pure (.inr distances)
    else do
      match ← settle (capture (min remaining perFrameBudgetMs)) with
      | .ok frame =>
        let d ← frameDistance K detector frame enrolled
        pure (.inl (distances ++ d.toList))
      | .error (.timeout _) => pure (.inl distances)
      | .error e => throw (.failed e)

/-- What is done with the emitter on: match frames until there are enough, or the deadline has come,
and decide. -/
def matchFace [LinearOrder F] (enrolled : FaceEnrollment F) (deadline rounds : ℕ)
    (distances : List F) : Io F Unit := do
  let collected ← loop (matchRound K detector enrolled deadline) rounds distances
  lift (decideMatch collected enrolled.matchThreshold minMatchFrames)

/-- The configuration, with the threshold of the enrollment for the score. -/
def effectiveConfig (enrolled : FaceEnrollment F) (cfg : LivenessConfig F) : LivenessConfig F :=
  { cfg with scoreThreshold := enrolled.liveness.scoreThreshold }

/-- The emitter is guarded while frames are matched: it is turned off again whatever comes of it. -/
def verify [LinearOrder F] (enrolled : FaceEnrollment F) (cfg : LivenessConfig F)
    (deadlineMs rounds : ℕ) : Io F Unit := do
  let start ← now
  let deadline := start + deadlineMs * 1000000
  let pair ← captureLivenessPair deadlineMs
  let report ← lift (K.analyze pair (effectiveConfig enrolled cfg))
  let _ ← lift report.intoResult
  let d ← frameDistance K detector pair.emitterOn enrolled
  setEnabled true
  let outcome ← settle (matchFace K detector enrolled deadline rounds d.toList)
  restoreOff
  lift outcome

/-! ## The runs of one frame -/

variable {K detector}

theorem locateAndAlign_run {frame : IrFrame} {size : ℕ} {r : Except (Stop (MugError F)) IrFrame}
    {l : List (Event F)} (h : Ends (locateAndAlign K frame size) r l) :
    ∃ x, l = [⟨.detect frame, x⟩] ∧
      r = (x >>= fun det => K.alignFace frame det.landmarks size).mapError .failed := by
  unfold locateAndAlign detect lift at h
  obtain ⟨x | x, l, rfl, ⟨_, ⟨⟩, rfl, rfl⟩ | ⟨_, ⟨⟩, h⟩⟩ := ends_ask_bind_iff.1 h
  · exact ⟨.error x, rfl, rfl⟩
  · obtain ⟨rfl, rfl⟩ := ends_ofResult_iff.1 h
    exact ⟨.ok x, rfl, rfl⟩

theorem distance_run {frame : IrFrame} {enrolled : List F} {r : Except (Stop (MugError F)) F}
    {l : List (Event F)} (h : Ends (distance K frame enrolled) r l) :
    ∃ x, l = [⟨.extract frame, x⟩] ∧
      r = (x >>= fun c => K.cosineDistance c enrolled).mapError .failed := by
  unfold distance extract lift at h
  obtain ⟨x | x, l, rfl, ⟨_, ⟨⟩, rfl, rfl⟩ | ⟨_, ⟨⟩, h⟩⟩ := ends_ask_bind_iff.1 h
  · exact ⟨.error x, rfl, rfl⟩
  · obtain ⟨rfl, rfl⟩ := ends_ofResult_iff.1 h
    exact ⟨.ok x, rfl, rfl⟩

section FrameRun

variable (K) (enrolled : FaceEnrollment F) (frame : IrFrame)

/-- The face in a frame, from what the detector has answered. -/
def faceOf (x : Except (MugError F) (Detection F)) : Except (MugError F) IrFrame :=
  x >>= fun det => K.alignFace frame det.landmarks alignedFaceSize

/-- The distance of a face, from its embedding. -/
def distanceOf (x : Except (MugError F) (List F)) : Except (MugError F) F :=
  x >>= fun c => K.cosineDistance c enrolled.embedding

/-- The ends of `frame_distance`. -/
inductive FrameRun : Bool → Except (Stop (MugError F)) (Option F) → List (Event F) → Prop
  | noFace {x : Except (MugError F) (Detection F)} (hx : faceOf K frame x = .error .noFace) :
      FrameRun true (.ok none) [⟨.detect frame, x⟩]
  | notAligned {x : Except (MugError F) (Detection F)} {e : MugError F}
      (hx : faceOf K frame x = .error e) (he : e ≠ .noFace) :
      FrameRun true (.error (.failed e)) [⟨.detect frame, x⟩]
  | aligned {x : Except (MugError F) (Detection F)} {face : IrFrame}
      (hx : faceOf K frame x = .ok face) (y : Except (MugError F) (List F)) :
      FrameRun true (((distanceOf K enrolled y).map some).mapError .failed)
        [⟨.detect frame, x⟩, ⟨.extract face, y⟩]
  | whole (y : Except (MugError F) (List F)) :
      FrameRun false (((distanceOf K enrolled y).map some).mapError .failed) [⟨.extract frame, y⟩]

end FrameRun

variable {enrolled : FaceEnrollment F} {frame : IrFrame}

theorem distance_some_run {r : Except (Stop (MugError F)) (Option F)} {l : List (Event F)}
    (h : Ends (do let d ← distance K frame enrolled.embedding; pure (some d)) r l) :
    ∃ y, l = [⟨.extract frame, y⟩] ∧
      r = ((distanceOf K enrolled y).map some).mapError .failed := by
  obtain ⟨e, rfl, hd⟩ | ⟨d, l₁, l₂, rfl, hd, hret⟩ := ends_bind_iff.1 h
  · obtain ⟨y, rfl, hy⟩ := distance_run hd
    obtain ⟨e', he', ⟨⟩⟩ | ⟨d, -, ⟨⟩⟩ := mapError_cases hy.symm
    exact ⟨y, rfl, by rw [distanceOf, he']; rfl⟩
  · obtain ⟨y, rfl, hy⟩ := distance_run hd
    obtain ⟨rfl, rfl⟩ := ends_pure_iff.1 hret
    obtain ⟨e', -, ⟨⟩⟩ | ⟨d', hd', ⟨⟩⟩ := mapError_cases hy.symm
    exact ⟨y, rfl, by rw [distanceOf, hd']; rfl⟩

theorem frameDistance_run {r : Except (Stop (MugError F)) (Option F)} {l : List (Event F)}
    (h : Ends (frameDistance K detector frame enrolled) r l) :
    FrameRun K enrolled frame detector r l := by
  unfold frameDistance at h
  cases detector with
  | false =>
    obtain ⟨y, rfl, rfl⟩ := distance_some_run h
    exact .whole y
  | true =>
    obtain ⟨hl, rfl⟩ | ⟨outcome, l₁, l₂, rfl, hl, h⟩ := ends_settle_bind_iff.1 h
    · obtain ⟨x, -, hr⟩ := locateAndAlign_run hl
      obtain ⟨e, -, ⟨⟩⟩ | ⟨face, -, ⟨⟩⟩ := mapError_cases hr.symm
    obtain ⟨x, rfl, hx⟩ := locateAndAlign_run hl
    replace hx : faceOf K frame x = outcome := (mapError_failed_inj hx).symm
    cases outcome with
    | ok face =>
      obtain ⟨y, rfl, rfl⟩ := distance_some_run h
      exact .aligned hx y
    | error e =>
      cases e with
      | noFace =>
        obtain ⟨rfl, rfl⟩ := ends_pure_iff.1 h
        exact .noFace hx
      | _ =>
        obtain ⟨rfl, rfl⟩ := ends_throw_iff.1 h
        exact .notAligned hx nofun

/-! ## The runs of the loop -/

section MatchRound

variable (K) (enrolled) (detector) (deadline : ℕ) (distances : List F)

/-- The ends of a round. -/
inductive MatchRound : Except (Stop (MugError F)) (List F ⊕ List F) → List (Event F) → Prop
  | enough (hd : matchFrames ≤ distances.length) : MatchRound (.ok (.inr distances)) []
  | late {t : ℕ} (hd : distances.length < matchFrames) (ht : remainingMs deadline t = 0) :
      MatchRound (.ok (.inr distances)) [⟨.now, t⟩]
  | missed {t : ℕ} (hd : distances.length < matchFrames) (ht : remainingMs deadline t ≠ 0)
      (ms : ℕ) : MatchRound (.ok (.inl distances))
        [⟨.now, t⟩, ⟨.capture (min (remainingMs deadline t) perFrameBudgetMs),
          .error (.timeout ms)⟩]
  | refused {t : ℕ} (hd : distances.length < matchFrames) (ht : remainingMs deadline t ≠ 0)
      {e : MugError F} (he : ∀ ms, e ≠ .timeout ms) : MatchRound (.error (.failed e))
        [⟨.now, t⟩, ⟨.capture (min (remainingMs deadline t) perFrameBudgetMs), .error e⟩]
  | delivered {t : ℕ} (hd : distances.length < matchFrames) (ht : remainingMs deadline t ≠ 0)
      {frame : IrFrame} {r : Except (Stop (MugError F)) (Option F)} {l : List (Event F)}
      (hf : FrameRun K enrolled frame detector r l) :
      MatchRound (r.map fun d => .inl (distances ++ d.toList))
        (⟨.now, t⟩ :: ⟨.capture (min (remainingMs deadline t) perFrameBudgetMs), .ok frame⟩ :: l)

end MatchRound

variable {deadline : ℕ} {distances : List F}

theorem matchRound_run {r : Except (Stop (MugError F)) (List F ⊕ List F)} {l : List (Event F)}
    (h : Ends (matchRound K detector enrolled deadline distances) r l) :
    MatchRound K detector enrolled deadline distances r l := by
  unfold matchRound now at h
  split_ifs at h with hd
  · obtain ⟨rfl, rfl⟩ := ends_pure_iff.1 h
    exact .enough hd
  obtain ⟨t, l, rfl, ⟨_, ⟨⟩, -⟩ | ⟨_, ⟨⟩, h⟩⟩ := ends_ask_bind_iff.1 h
  dsimp only at h
  split_ifs at h with ht
  · obtain ⟨rfl, rfl⟩ := ends_pure_iff.1 h
    exact .late (not_le.1 hd) ht
  obtain ⟨hc, rfl⟩ | ⟨outcome, l₁, l₂, rfl, hc, hgo⟩ := ends_settle_bind_iff.1 h
  · obtain ⟨x, hr, -⟩ := ends_ask_iff.1 hc
    obtain ⟨e, -, ⟨⟩⟩ | ⟨frame, -, ⟨⟩⟩ := mapError_cases hr.symm
  obtain ⟨x, hx, rfl⟩ := ends_ask_iff.1 hc
  obtain rfl : outcome = x := mapError_failed_inj hx
  cases outcome with
  | ok frame =>
    obtain ⟨e, rfl, hf⟩ | ⟨d, l₃, l₄, rfl, hf, hret⟩ := ends_bind_iff.1 hgo
    · exact .delivered (not_le.1 hd) ht (frameDistance_run hf)
    · obtain ⟨rfl, rfl⟩ := ends_pure_iff.1 hret
      rw [List.append_nil]
      exact .delivered (not_le.1 hd) ht (frameDistance_run hf)
  | error e =>
    cases e with
    | timeout ms =>
      obtain ⟨rfl, rfl⟩ := ends_pure_iff.1 hgo
      exact .missed (not_le.1 hd) ht ms
    | _ =>
      obtain ⟨rfl, rfl⟩ := ends_throw_iff.1 hgo
      exact .refused (not_le.1 hd) ht nofun

/-! ## The runs of the gate -/

variable [LinearOrder F] {cfg : LivenessConfig F} {deadlineMs rounds : ℕ}

section VerifyRun

variable (K) (detector) (enrolled) (cfg) (deadlineMs rounds)

/-- The judgement of a liveness pair, under the threshold of the enrollment. -/
def judge (pair : FramePair) : Except (MugError F) (LivenessFeatures F) :=
  K.analyze pair (effectiveConfig enrolled cfg) >>= LivenessReport.intoResult

/-- The ends of `verify`, by the stage it has come to. -/
inductive VerifyRun : Except (Stop (MugError F)) Unit → List (Event F) → Prop
  | notCaptured (t : ℕ) {e : Stop (MugError F)} {l : List (Event F)}
      (hp : PairRun deadlineMs (.error e) l) : VerifyRun (.error e) (⟨.now, t⟩ :: l)
  | notLive (t : ℕ) {pair : FramePair} {l : List (Event F)} (hp : PairRun deadlineMs (.ok pair) l)
      {e : MugError F} (hj : judge K enrolled cfg pair = .error e) :
      VerifyRun (.error (.failed e)) (⟨.now, t⟩ :: l)
  | notMatched (t : ℕ) {pair : FramePair} {l : List (Event F)}
      (hp : PairRun deadlineMs (.ok pair) l) {f : LivenessFeatures F}
      (hj : judge K enrolled cfg pair = .ok f) {e : Stop (MugError F)} {l' : List (Event F)}
      (hf : FrameRun K enrolled pair.emitterOn detector (.error e) l') :
      VerifyRun (.error e) (⟨.now, t⟩ :: l ++ l')
  | notLit (t : ℕ) {pair : FramePair} {l : List (Event F)} (hp : PairRun deadlineMs (.ok pair) l)
      {f : LivenessFeatures F} (hj : judge K enrolled cfg pair = .ok f) {d : Option F}
      {l' : List (Event F)} (hf : FrameRun K enrolled pair.emitterOn detector (.ok d) l')
      (e : MugError F) :
      VerifyRun (.error (.failed e)) (⟨.now, t⟩ :: l ++ l' ++ [⟨.setEnabled true, .error e⟩])
  | cut (t : ℕ) {pair : FramePair} {l : List (Event F)} (hp : PairRun deadlineMs (.ok pair) l)
      {f : LivenessFeatures F} (hj : judge K enrolled cfg pair = .ok f) {d : Option F}
      {l' : List (Event F)} (hf : FrameRun K enrolled pair.emitterOn detector (.ok d) l')
      {l'' : List (Event F)}
      (hm : Ends (matchFace K detector enrolled (t + deadlineMs * 1000000) rounds d.toList)
        (.error .running) l'') :
      VerifyRun (.error .running) (⟨.now, t⟩ :: l ++ l' ++ ⟨.setEnabled true, .ok ()⟩ :: l'')
  | decided (t : ℕ) {pair : FramePair} {l : List (Event F)} (hp : PairRun deadlineMs (.ok pair) l)
      {f : LivenessFeatures F} (hj : judge K enrolled cfg pair = .ok f) {d : Option F}
      {l' : List (Event F)} (hf : FrameRun K enrolled pair.emitterOn detector (.ok d) l')
      {r : Except (MugError F) Unit} {l'' : List (Event F)}
      (hm : Ends (matchFace K detector enrolled (t + deadlineMs * 1000000) rounds d.toList)
        (r.mapError .failed) l'')
      (x : Except (MugError F) Unit) : VerifyRun (r.mapError .failed)
        (⟨.now, t⟩ :: l ++ l' ++ ⟨.setEnabled true, .ok ()⟩ :: l'' ++ [⟨.setEnabled false, x⟩])

end VerifyRun

theorem verify_run {r : Except (Stop (MugError F)) Unit} {l : List (Event F)}
    (h : Ends (verify K detector enrolled cfg deadlineMs rounds) r l) :
    VerifyRun K detector enrolled cfg deadlineMs rounds r l := by
  unfold verify now setEnabled restoreOff at h
  obtain ⟨t, l, rfl, ⟨_, ⟨⟩, -⟩ | ⟨_, ⟨⟩, h⟩⟩ := ends_ask_bind_iff.1 h
  obtain ⟨e, rfl, hp⟩ | ⟨pair, l, l', rfl, hp, h⟩ := ends_bind_iff.1 h
  · exact .notCaptured t (captureLivenessPair_run hp)
  have hp := captureLivenessPair_run hp
  obtain ⟨e, ha, rfl, rfl⟩ | ⟨report, ha, h⟩ := ends_lift_bind_iff.1 h
  · rw [List.append_nil]
    exact .notLive t hp (by rw [judge, ha]; rfl)
  obtain ⟨e, hj, rfl, rfl⟩ | ⟨f, hj, h⟩ := ends_lift_bind_iff.1 h
  · rw [List.append_nil]
    exact .notLive t hp (by rw [judge, ha]; exact hj)
  replace hj : judge K enrolled cfg pair = .ok f := by rw [judge, ha]; exact hj
  obtain ⟨e, rfl, hf⟩ | ⟨d, l', l, rfl, hf, h⟩ := ends_bind_iff.1 h
  · exact .notMatched t hp hj (frameDistance_run hf)
  have hf := frameDistance_run hf
  obtain ⟨e | _, l, rfl, ⟨_, ⟨⟩, rfl, rfl⟩ | ⟨_, ⟨⟩, h⟩⟩ := ends_ask_bind_iff.1 h
  · rw [← List.append_assoc]
    exact .notLit t hp hj hf e
  obtain ⟨hm, rfl⟩ | ⟨outcome, l'', l, rfl, hm, h⟩ := ends_settle_bind_iff.1 h
  · rw [← List.append_assoc]
    exact .cut t hp hj hf hm
  obtain ⟨x, l, rfl, ⟨_, ⟨⟩, -⟩ | ⟨_, ⟨⟩, h⟩⟩ := ends_ask_bind_iff.1 h
  obtain ⟨rfl, rfl⟩ := ends_ofResult_iff.1 h
  have hrun := VerifyRun.decided t hp hj hf hm x
  simpa only [List.append_assoc, List.cons_append] using hrun

/-! ## Sample values -/

def sampleFrame : IrFrame := ⟨3, 3, [0, 0, 0, 0, 0, 0, 0, 0, 0], rfl⟩

/-- A pair is live, a face is cut out as it is, and embeddings are as far apart as their first
entries. -/
def sampleKernels : Kernels ℤ where
  analyze _ _ := .ok ⟨⟨40, 40, 40, 0, 0, 0, 1⟩, true, none⟩
  alignFace frame _ _ := .ok frame
  cosineDistance a b := .ok |a.headD 0 - b.headD 0|

def sampleConfig : LivenessConfig ℤ := ⟨12, 16, 5, 70, 20, 1, 0⟩

def sampleEnrollment : FaceEnrollment ℤ := ⟨1, 0, [1], 0, ⟨1, 0⟩⟩

end Mug

end Tess

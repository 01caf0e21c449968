import Tess.Mug.Agreement

/-!
# The face test

`tess face-test` captures a reference and a probe, and says whether they are live and how far apart
they are. It stores nothing and unlocks nothing. This module follows `run_face_test` of
`tess-cli/src/face.rs`, without its prompts and the scores it prints.

What it says is compared with what an enrollment and a verification do when they are answered alike:
the reference stands for the one, and the probe for the first pair of the other (`Foretells`).
-/

namespace Tess

namespace Mug

open Effects

/-- What a face test comes to. -/
inductive FaceTestOutcome (F : Type) where
  | referenceRejected
  | probeRejected
  | compared (distance threshold : F) (matched : Bool)

section Calls

variable {F : Type} (K : Kernels F) (detector : Bool)

/-- The frame that is embedded: the face, or the whole frame where there is no detector. -/
def alignForEmbed (frame : IrFrame) : TemplateIo F IrFrame :=
  if detector then context "locate/align the face" (locateAndAlign K frame alignedFaceSize)
  else pure frame

/-- Capture a pair. There is none when it is not live. -/
def captureAndReport (label : String) (livenessCfg : LivenessConfig F) (deadlineMs : ℕ) :
    TemplateIo F (Option FramePair) := do
  let pair ← context ("capture the " ++ label ++ " IR pair") (captureLivenessPair deadlineMs)
  let report ← context ("analyze " ++ label ++ " liveness") (lift (K.analyze pair livenessCfg))
  pure (if report.passed then some pair else none)

/-- The embedding of the reference. -/
def embedReference (pair : FramePair) : TemplateIo F (List F) := do
  let face ← alignForEmbed K detector pair.emitterOn
  context "embed the reference frame" (extract face)

variable [LinearOrder F] (cfg : MugConfig F)

/-- How far the probe is from the reference. -/
def compareProbe (reference : List F) (probe : FramePair) : TemplateIo F (FaceTestOutcome F) := do
  let face ← alignForEmbed K detector probe.emitterOn
  let d ← context "match the probe against the reference" (distance K face reference)
  pure (.compared d cfg.matchThreshold (d ≤ cfg.matchThreshold))

def runFaceTest : TemplateIo F (FaceTestOutcome F) := do
  match ← captureAndReport K "reference" cfg.livenessConfig cfg.captureDeadlineMs with
  | none => pure .referenceRejected
  | some pair => do
    let reference ← embedReference K detector pair
    match ← captureAndReport K "probe" cfg.livenessConfig cfg.captureDeadlineMs with
    | none => pure .probeRejected
    | some probe => compareProbe K detector cfg reference probe

end Calls

section Runs

variable {F : Type} {K : Kernels F} {detector : Bool} {l : List (Event F)}

/-! ## The parts of a face test -/

theorem captureAndReport_ok {label : String} {cfg : LivenessConfig F} {ms : ℕ}
    {found : Option FramePair} (h : Ends (captureAndReport K label cfg ms) (.ok found) l) :
    ∃ pair report, Ends (captureLivenessPair ms) (.ok pair) l ∧ K.analyze pair cfg = .ok report ∧
      found = if report.passed then some pair else none := by
  unfold captureAndReport at h
  obtain ⟨_, ⟨⟩, -⟩ | ⟨pair, l₁, l, rfl, hp, h⟩ := ends_bind_iff.1 h
  obtain ⟨_, ⟨⟩, -⟩ | ⟨report, l₂, l, rfl, ha, hret⟩ := ends_bind_iff.1 h
  obtain ⟨hreport, rfl⟩ := ends_context_lift_iff.1 ha
  obtain ⟨hfound, rfl⟩ := ends_pure_iff.1 hret
  refine ⟨pair, report, ?_, mapError_eq_ok.1 hreport.symm, Except.ok.inj hfound⟩
  simpa using ends_context_ok_iff.1 hp

/-- A face test takes the same face from a frame as an enrollment. -/
theorem enrollmentFrame_of_alignForEmbed {frame face : IrFrame}
    (h : Ends (alignForEmbed K detector frame) (.ok face) l) :
    Ends (enrollmentFrame K detector frame) (.ok face) l := by
  unfold alignForEmbed at h
  unfold enrollmentFrame
  cases detector with
  | false => exact h
  | true => exact ends_context_ok_iff.2 (ends_context_ok_iff.1 h)

/-- And the same as a verification, which tells no face from other errors. -/
theorem frameDistance_of_alignForEmbed {frame face : IrFrame} {enrolled : FaceEnrollment F} {d : F}
    {l' : List (Event F)} (h : Ends (alignForEmbed K detector frame) (.ok face) l)
    (hd : Ends (distance K face enrolled.embedding) (.ok d) l') :
    Ends (frameDistance K detector frame enrolled) (.ok (some d)) (l ++ l') := by
  have hsome : Ends (do let d ← distance K face enrolled.embedding; pure (some d))
      (.ok (some d)) l' :=
    ends_bind_iff.2 (.inr ⟨d, l', [], (List.append_nil l').symm, hd, ends_pure_iff.2 ⟨rfl, rfl⟩⟩)
  unfold alignForEmbed at h
  unfold frameDistance
  cases detector with
  | false =>
    obtain ⟨hface, rfl⟩ := ends_pure_iff.1 h
    obtain rfl := Except.ok.inj hface
    exact hsome
  | true =>
    exact ends_settle_bind_iff.2 (.inr ⟨.ok face, l, l', rfl, ends_context_ok_iff.1 h, hsome⟩)

/-! ## Enrollments and verifications that are answered alike -/

variable {cfg : MugConfig F} {pair : FramePair} {report : LivenessReport F}

theorem captureTemplate_rejected (detector : Bool)
    (hp : Ends (captureLivenessPair cfg.captureDeadlineMs) (.ok pair) l)
    (ha : K.analyze pair cfg.livenessConfig = .ok report) (hno : report.passed = false) :
    ∃ e, Ends (captureTemplate K (mugTemplateSource detector cfg))
      (.error (.failed ("liveness check failed during enrollment", .livenessRejected e))) l := by
  refine ⟨report.reason.getD "below liveness threshold", ?_⟩
  refine ends_bind_iff.2 (.inr ⟨pair, l, [], (List.append_nil l).symm,
    ends_context_ok_iff.2 hp, ?_⟩)
  refine ends_bind_iff.2 (.inr ⟨report, [], [], rfl, ends_context_lift_ok ha, ?_⟩)
  exact ends_bind_iff.2 (.inl ⟨_, rfl, ends_context_lift_error (report.intoResult_rejected hno)⟩)

/-- The template that is made of a live pair. -/
def templateOf (cfg : MugConfig F) (report : LivenessReport F) (embedding : List F)
    (created : Option ℕ) : FaceEnrollment F where
  version := enrollmentVersion
  createdUnix := created.getD 0
  embedding := embedding
  matchThreshold := cfg.matchThreshold
  liveness := ⟨report.features.score, cfg.livenessConfig.scoreThreshold⟩

theorem captureTemplate_of_embedReference {l' : List (Event F)} {embedding : List F}
    (hp : Ends (captureLivenessPair cfg.captureDeadlineMs) (.ok pair) l)
    (ha : K.analyze pair cfg.livenessConfig = .ok report) (hlive : report.passed = true)
    (he : Ends (embedReference K detector pair) (.ok embedding) l') (created : Option ℕ) :
    Ends (captureTemplate K (mugTemplateSource detector cfg))
      (.ok (templateOf cfg report embedding created)) (l ++ l' ++ [⟨.unixTime, created⟩]) := by
  unfold embedReference at he
  obtain ⟨_, ⟨⟩, -⟩ | ⟨face, l₁, l₂, rfl, hface, hx⟩ := ends_bind_iff.1 he
  refine ends_bind_iff.2 (.inr ⟨pair, l, _, List.append_assoc .., ends_context_ok_iff.2 hp, ?_⟩)
  refine ends_bind_iff.2 (.inr ⟨report, [], _, rfl, ends_context_lift_ok ha, ?_⟩)
  refine ends_bind_iff.2 (.inr ⟨report.features, [], _, rfl,
    ends_context_lift_ok (LivenessReport.intoResult_ok_iff.2 ⟨hlive, rfl⟩), ?_⟩)
  refine ends_bind_iff.2 (.inr ⟨face, l₁, l₂ ++ [⟨.unixTime, created⟩], List.append_assoc ..,
    enrollmentFrame_of_alignForEmbed hface, ?_⟩)
  refine ends_bind_iff.2 (.inr ⟨embedding, l₂, _, rfl,
    ends_context_ok_iff.2 (ends_context_ok_iff.1 hx), ?_⟩)
  exact ends_ask_bind_iff.2 ⟨created, [], rfl, .inr ⟨created, rfl, ends_pure_iff.2 ⟨rfl, rfl⟩⟩⟩

variable {enrolled : FaceEnrollment F}

/-- A verification goes by the threshold of the template for the score. -/
theorem effectiveConfig_eq
    (hs : enrolled.liveness.scoreThreshold = cfg.livenessConfig.scoreThreshold) :
    effectiveConfig enrolled cfg.livenessConfig = cfg.livenessConfig := by
  rw [effectiveConfig, hs]

variable [LinearOrder F]

theorem runVerify_rejected
    (hs : enrolled.liveness.scoreThreshold = cfg.livenessConfig.scoreThreshold)
    (hp : Ends (captureLivenessPair cfg.captureDeadlineMs) (.ok pair) l)
    (ha : K.analyze pair cfg.livenessConfig = .ok report) (hno : report.passed = false)
    (start rounds : ℕ) : ∃ e, Ends (runVerify K detector enrolled cfg rounds)
      (.error (.failed (.livenessRejected e))) (⟨.now, start⟩ :: l) := by
  refine ⟨report.reason.getD "below liveness threshold", ?_⟩
  unfold runVerify verify
  refine ends_ask_bind_iff.2 ⟨start, l, rfl, .inr ⟨start, rfl, ?_⟩⟩
  refine ends_bind_iff.2 (.inr ⟨pair, l, [], (List.append_nil l).symm, hp, ?_⟩)
  refine ends_lift_bind_iff.2 (.inr ⟨report, by rw [effectiveConfig_eq hs, ha], ?_⟩)
  exact ends_lift_bind_iff.2 (.inl ⟨_, report.intoResult_rejected hno, rfl, rfl⟩)

/-- A verification that has found the first distance goes on to match more frames. -/
theorem runVerify_of_distance {l₂ l₃ : List (Event F)} {d : F} {o : Except (MugError F) Unit}
    {start rounds : ℕ}
    (hs : enrolled.liveness.scoreThreshold = cfg.livenessConfig.scoreThreshold)
    (hp : Ends (captureLivenessPair cfg.captureDeadlineMs) (.ok pair) l)
    (ha : K.analyze pair cfg.livenessConfig = .ok report) (hlive : report.passed = true)
    (hd : Ends (frameDistance K detector pair.emitterOn enrolled) (.ok (some d)) l₂)
    (hm : Ends (matchFace K detector enrolled (start + cfg.captureDeadlineMs * 1000000) rounds [d])
      (o.mapError .failed) l₃) (off : Except (MugError F) Unit) :
    Ends (runVerify K detector enrolled cfg rounds) (o.mapError .failed)
      (⟨.now, start⟩ :: (l ++ l₂) ++ ⟨.setEnabled true, .ok ()⟩ :: l₃ ++
        [⟨.setEnabled false, off⟩]) := by
  unfold runVerify verify
  refine ends_ask_bind_iff.2 ⟨start, _, rfl, .inr ⟨start, rfl, ?_⟩⟩
  refine ends_bind_iff.2 (.inr ⟨pair, l, l₂ ++ ⟨.setEnabled true, .ok ()⟩ :: (l₃ ++
    [⟨.setEnabled false, off⟩]), by simp, hp, ?_⟩)
  refine ends_lift_bind_iff.2 (.inr ⟨report, by rw [effectiveConfig_eq hs, ha], ?_⟩)
  refine ends_lift_bind_iff.2 (.inr ⟨report.features,
    LivenessReport.intoResult_ok_iff.2 ⟨hlive, rfl⟩, ?_⟩)
  refine ends_bind_iff.2 (.inr ⟨some d, l₂, _, rfl, hd, ?_⟩)
  refine ends_ask_bind_iff.2 ⟨.ok (), _, rfl, .inr ⟨(), rfl, ?_⟩⟩
  refine ends_settle_bind_iff.2 (.inr ⟨o, l₃, _, rfl, hm, ?_⟩)
  exact ends_ask_bind_iff.2 ⟨off, [], rfl, .inr ⟨(), rfl, ends_ofResult_iff.2 ⟨rfl, rfl⟩⟩⟩

/-! ## What a face test foretells -/

section Foretells

variable (K detector cfg)

/-- What the outcome of a face test says of an enrollment that is answered like its reference, and
of a verification that is answered like its probe. -/
inductive Foretells : FaceTestOutcome F → List (Event F) → Prop
  | referenceRejected {l : List (Event F)} {e : String}
      (enroll : Ends (captureTemplate K (mugTemplateSource detector cfg))
        (.error (.failed ("liveness check failed during enrollment", .livenessRejected e))) l) :
      Foretells .referenceRejected l
  | probeRejected {l₁ l₂ : List (Event F)} {template : Option ℕ → FaceEnrollment F}
      (enroll : ∀ created, Ends (captureTemplate K (mugTemplateSource detector cfg))
        (.ok (template created)) (l₁ ++ [⟨.unixTime, created⟩]))
      (gate : ∀ enrolled : FaceEnrollment F,
        enrolled.liveness.scoreThreshold = cfg.livenessConfig.scoreThreshold → ∀ start rounds,
          ∃ e, Ends (runVerify K detector enrolled cfg rounds)
            (.error (.failed (.livenessRejected e))) (⟨.now, start⟩ :: l₂)) :
      Foretells .probeRejected (l₁ ++ l₂)
  | compared {l₁ l₂ : List (Event F)} {template : Option ℕ → FaceEnrollment F} {d : F}
      (enroll : ∀ created, Ends (captureTemplate K (mugTemplateSource detector cfg))
        (.ok (template created)) (l₁ ++ [⟨.unixTime, created⟩]))
      (gate : ∀ created start rounds l₃ (o : Except (MugError F) Unit) off,
        Ends (matchFace K detector (template created) (start + cfg.captureDeadlineMs * 1000000)
          rounds [d]) (o.mapError .failed) l₃ →
        Ends (runVerify K detector (template created) cfg rounds) (o.mapError .failed)
          (⟨.now, start⟩ :: l₂ ++ ⟨.setEnabled true, .ok ()⟩ :: l₃ ++
            [⟨.setEnabled false, off⟩])) :
      Foretells (.compared d cfg.matchThreshold (d ≤ cfg.matchThreshold)) (l₁ ++ l₂)

end Foretells

/-- **A face test foretells the real thing.** A rejected reference could not be enrolled. A rejected
probe is let in under no template. A distance is the first one that a verification of the probe
against the template of the reference votes with. -/
theorem runFaceTest_foretells {outcome : FaceTestOutcome F}
    (h : Ends (runFaceTest K detector cfg) (.ok outcome) l) :
    Foretells K detector cfg outcome l := by
  unfold runFaceTest at h
  obtain ⟨_, ⟨⟩, -⟩ | ⟨found, l₁, l, rfl, href, h⟩ := ends_bind_iff.1 h
  obtain ⟨pair, report, hp, ha, rfl⟩ := captureAndReport_ok href
  cases hlive : report.passed with
  | false =>
    simp only [hlive] at h
    obtain ⟨hret, rfl⟩ := ends_pure_iff.1 h
    obtain rfl := Except.ok.inj hret
    obtain ⟨e, he⟩ := captureTemplate_rejected detector hp ha hlive
    rw [List.append_nil]
    exact .referenceRejected he
  | true =>
    simp only [hlive] at h
    obtain ⟨_, ⟨⟩, -⟩ | ⟨embedding, l₂, l', rfl, hemb, hprobe⟩ := ends_bind_iff.1 h
    have henroll := captureTemplate_of_embedReference hp ha hlive hemb
    rw [← List.append_assoc]
    obtain ⟨_, ⟨⟩, -⟩ | ⟨found, l₃, l₄, rfl, hcap, hrest⟩ := ends_bind_iff.1 hprobe
    obtain ⟨probe, report', hp', ha', rfl⟩ := captureAndReport_ok hcap
    cases hlive' : report'.passed with
    | false =>
      simp only [hlive'] at hrest
      obtain ⟨hret, rfl⟩ := ends_pure_iff.1 hrest
      obtain rfl := Except.ok.inj hret
      rw [List.append_nil]
      exact .probeRejected henroll fun enrolled hs start rounds =>
        runVerify_rejected hs hp' ha' hlive' start rounds
    | true =>
      simp only [hlive'] at hrest
      unfold compareProbe at hrest
      obtain ⟨_, ⟨⟩, -⟩ | ⟨face, l₅, l₆, rfl, hface, hrest⟩ := ends_bind_iff.1 hrest
      obtain ⟨_, ⟨⟩, -⟩ | ⟨d, l₇, l₈, rfl, hd, hret⟩ := ends_bind_iff.1 hrest
      obtain ⟨hout, rfl⟩ := ends_pure_iff.1 hret
      obtain rfl := Except.ok.inj hout
      rw [List.append_nil]
      -- The template is that of the reference, so that this is the distance the gate finds first.
      exact .compared henroll fun created start rounds l₉ o off hm =>
        runVerify_of_distance rfl hp' ha' hlive'
          (frameDistance_of_alignForEmbed hface (ends_context_ok_iff.1 hd)) hm off

end Runs

/-- A still face, captured twice. -/
def sampleFaceTest : List (Event ℝ) :=
  pairEvents 2500 0 0 samplePair (.ok ()) ++ ([⟨.extract litFrame, .ok [1]⟩] ++
    (pairEvents 2500 0 0 samplePair (.ok ()) ++ [⟨.extract litFrame, .ok [1]⟩]))

theorem sampleFaceTest_ends : Ends (runFaceTest sampleExact false sampleMug)
    (.ok (.compared 0 sampleMug.matchThreshold true)) sampleFaceTest := by
  have hcapture : ∀ label, Ends (captureAndReport sampleExact label sampleMug.livenessConfig 2500)
      (.ok (some samplePair)) (pairEvents 2500 0 0 samplePair (.ok ())) := by
    intro label
    refine ends_bind_iff.2 (.inr ⟨samplePair, _, [], (List.append_nil _).symm,
      ends_context_ok_iff.2 samplePair_ends, ?_⟩)
    exact ends_bind_iff.2 (.inr ⟨_, [], [], rfl, ends_context_lift_ok samplePair_live,
      ends_pure_iff.2 ⟨rfl, rfl⟩⟩)
  have hembed : Ends (embedReference sampleExact false samplePair) (.ok [1])
      [⟨.extract litFrame, .ok [1]⟩] :=
    ends_bind_iff.2 (.inr ⟨litFrame, [], _, rfl, ends_pure_iff.2 ⟨rfl, rfl⟩,
      ends_context_ok_iff.2 (ends_ask_iff.2 ⟨.ok [1], rfl, rfl⟩)⟩)
  have hself : cosineDistance [(1 : ℝ)] [1] = .ok 0 := cosineDistance_self ⟨1, by simp⟩
  replace hself : sampleExact.cosineDistance [1] [1] = .ok 0 := hself
  have hdistance : Ends (distance sampleExact litFrame [1]) (.ok 0)
      [⟨.extract litFrame, .ok [1]⟩] :=
    ends_ask_bind_iff.2 ⟨.ok [1], [], rfl, .inr ⟨[1], rfl, ends_ofResult_iff.2
      ⟨by rw [hself]; rfl, rfl⟩⟩⟩
  have hcompare : Ends (compareProbe sampleExact false sampleMug [1] samplePair)
      (.ok (.compared 0 sampleMug.matchThreshold true)) [⟨.extract litFrame, .ok [1]⟩] := by
    refine ends_bind_iff.2 (.inr ⟨litFrame, [], _, rfl, ends_pure_iff.2 ⟨rfl, rfl⟩, ?_⟩)
    refine ends_bind_iff.2 (.inr ⟨0, _, [], rfl, ends_context_ok_iff.2 hdistance, ?_⟩)
    exact ends_pure_iff.2 ⟨by simp [sampleMug, MugConfig.default_matchThreshold], rfl⟩
  refine ends_bind_iff.2 (.inr ⟨some samplePair, pairEvents 2500 0 0 samplePair (.ok ()), _, rfl,
    hcapture "reference", ?_⟩)
  refine ends_bind_iff.2 (.inr ⟨[1], [⟨.extract litFrame, .ok [1]⟩], _, rfl, hembed, ?_⟩)
  exact ends_bind_iff.2 (.inr ⟨some samplePair, _, _, rfl, hcapture "probe", hcompare⟩)

theorem runFaceTest_foretells_sample : Foretells sampleExact false sampleMug
    (.compared 0 sampleMug.matchThreshold true) sampleFaceTest :=
  runFaceTest_foretells sampleFaceTest_ends

end Mug

end Tess

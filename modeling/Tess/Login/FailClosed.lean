import Tess.Login.Face

/-!
# No model, no face

A face is verified only with models that were loaded, unless the environment allows the mock in so
many words: a configuration that cannot be read, a model that is missing or does not load, and a
camera that does not answer all make the verification fail.
-/

namespace Tess

namespace Login

open Text Effects

variable {F : Type}

/-! ## What a run shows -/

/-- A call of the gate. -/
def IsFace : Op F → Prop
  | .face .. => True
  | _ => False

/-- The calls of a run that are not the gate's. -/
def NoFace (l : List (Event F)) : Prop := ∀ e ∈ l, ¬ IsFace e.1

theorem NoFace.append {l l' : List (Event F)} (h : NoFace l) (h' : NoFace l') :
    NoFace (l ++ l') := by
  intro e he
  obtain he | he := List.mem_append.1 he
  · exact h e he
  · exact h' e he

theorem noFace_map_sys (l : List Mug.Sys.Event) : NoFace (l.map (sysPart F).answer) := by
  intro e he
  obtain ⟨e₀, -, rfl⟩ := List.mem_map.1 he
  exact id

section Shows

variable (env : Pam.Env) (fromStr : Text → Except String (FaceConfig F)) (faceModel : Bool)

/-- The configuration is the default, or it was read as a whole from the file that is named. -/
def Configured [Field F] (cfg : FaceConfig F) (l : List (Event F)) : Prop :=
  (env envConfig = none ∧ cfg = .default) ∨ ∃ path data,
    (env envConfig).bind ofUtf8 = some path ∧ ⟨.openConfig path, .ok ()⟩ ∈ l ∧
      ⟨.configIsFile, .ok true⟩ ∈ l ∧ ⟨.readConfig (maxConfigBytes + 1), .ok data⟩ ∈ l ∧
      byteLen data ≤ maxConfigBytes ∧ fromStr data = .ok cfg

/-- The path of a model is the configured one, or else that of a variable. -/
def Located (configured : Option Text) (var : String) (path : Text) : Prop :=
  configured = some path ∨ configured = none ∧ (env var).bind ofUtf8 = some path

/-- The matcher and the detector were loaded. -/
def Genuine (cfg : FaceConfig F) (pipeline : Pipeline F) (l : List (Event F)) : Prop :=
  faceModel = true ∧ ∃ path detector, pipeline = ⟨.tract path cfg.pixelScale, some detector⟩ ∧
    Located env cfg.modelPath envModelPath path ∧
    ⟨.loadExtractor path cfg.pixelScale, .ok ()⟩ ∈ l ∧
    Located env cfg.detectorModelPath envDetectorModel detector ∧
    ⟨.loadDetector detector, .ok ()⟩ ∈ l

/-- The environment allows the mock. -/
def MockAllowed : Prop := (env envAllowMockFace).bind ofUtf8 = some ['1']

variable {env faceModel}

theorem Genuine.append {cfg : FaceConfig F} {pipeline : Pipeline F} {l : List (Event F)}
    (h : Genuine env faceModel cfg pipeline l) (l' : List (Event F)) :
    Genuine env faceModel cfg pipeline (l' ++ l) := by
  obtain ⟨hmodel, path, detector, hpipeline, hpath, hext, hdet, hload⟩ := h
  exact ⟨hmodel, path, detector, hpipeline, hpath, List.mem_append_right _ hext, hdet,
    List.mem_append_right _ hload⟩

end Shows

/-! ## The parts -/

section Parts

variable {fmt : Formatter F} {env : Pam.Env} {faceModel : Bool} {l : List (Event F)}

theorem envVar_bind {var : String} {text : Text} (h : envVar env var = .ok text) :
    (env var).bind ofUtf8 = some text := by
  obtain ⟨value, hvar, htext⟩ := envVar_ok h
  rw [hvar]
  exact htext

theorem osContext_ok {α : Type} {what : String} {x : Except String α} {a : α} :
    osContext what x = .ok a ↔ x = .ok a := mapError_eq_ok

theorem mockAllowed_of (h : mockFaceAllowed env = true) : MockAllowed env := by
  unfold mockFaceAllowed at h
  split at h
  next value hvar => exact (envVar_bind hvar).trans (congrArg some (of_decide_eq_true h))
  · cases h

theorem modelPath_ok {configured path : Option Text} {var : String}
    (h : Ends (modelPath env configured var : Io F (Option Text)) (.ok path) l) :
    (∀ p, path = some p → Located env configured var p) ∧ l = [] := by
  unfold modelPath at h
  cases configured with
  | some p =>
    obtain ⟨hpath, rfl⟩ := ends_pure_iff.1 h
    exact ⟨fun q hq => .inl ((Except.ok.inj hpath).symm.trans hq), rfl⟩
  | none =>
    cases hvar : envVar env var with
    | ok p =>
      rw [hvar] at h
      obtain ⟨hpath, rfl⟩ := ends_pure_iff.1 h
      refine ⟨fun q hq => .inr ⟨rfl, ?_⟩, rfl⟩
      obtain rfl := Option.some.inj (hq.symm.trans (Except.ok.inj hpath))
      exact envVar_bind hvar
    | error e =>
      rw [hvar] at h
      cases e with
      | notPresent =>
        obtain ⟨hpath, rfl⟩ := ends_pure_iff.1 h
        obtain rfl := Except.ok.inj hpath
        exact ⟨nofun, rfl⟩
      | notUnicode => obtain ⟨⟨⟩, -⟩ := ends_throw_iff.1 h

/-- A model that was loaded, or the mock is allowed. -/
theorem loadModel_ok {α : Type} {path : Option Text} {load : Text → Io F α}
    {refusal : Option Text → String} {note : Option Text → Bool → String} {instead a : α}
    (h : Ends (loadModel env faceModel path false load refusal note instead) (.ok a) l) :
    (faceModel = true ∧ ∃ p, path = some p ∧ Ends (load p) (.ok a) l) ∨
      (MockAllowed env ∧ NoFace l) := by
  have hmock : Ends (if !false && !mockFaceAllowed env then anyhow (refusal path)
      else do
        eprintln (note path false)
        pure instead : Io F α) (.ok a) l → MockAllowed env ∧ NoFace l := by
    intro h
    split_ifs at h with hmock
    · obtain ⟨⟨⟩, -⟩ := ends_throw_iff.1 h
    · obtain ⟨x, l, rfl, ⟨_, ⟨⟩, -⟩ | ⟨_, -, hret⟩⟩ := ends_ask_bind_iff.1 h
      obtain ⟨-, rfl⟩ := ends_pure_iff.1 hret
      exact ⟨mockAllowed_of (by simpa using hmock), by simp [NoFace, IsFace]⟩
  cases path with
  | none => exact .inr (hmock h)
  | some p =>
    cases faceModel with
    | false => exact .inr (hmock h)
    | true => exact .inl ⟨rfl, p, rfl, h⟩

section Pipeline

variable {cfg : FaceConfig F}

theorem buildMatcher_ok {extractor : Extractor F}
    (h : Ends (buildMatcher fmt env faceModel cfg false) (.ok extractor) l) : NoFace l ∧
      (MockAllowed env ∨ faceModel = true ∧ ∃ path, extractor = .tract path cfg.pixelScale ∧
        Located env cfg.modelPath envModelPath path ∧
        ⟨.loadExtractor path cfg.pixelScale, .ok ()⟩ ∈ l) := by
  unfold buildMatcher loadExtractor at h
  obtain ⟨_, ⟨⟩, -⟩ | ⟨path, l₁, l₂, rfl, hpath, hload⟩ := ends_bind_iff.1 h
  obtain ⟨hlocated, rfl⟩ := modelPath_ok hpath
  rw [List.nil_append]
  obtain ⟨hmodel, p, rfl, hp⟩ | ⟨hmock, hquiet⟩ := loadModel_ok hload
  · obtain ⟨x, l, rfl, ⟨_, -, ⟨⟩, -⟩ | ⟨_, hx, hret⟩⟩ := ends_ask_bind_iff.1 hp
    obtain ⟨hextractor, rfl⟩ := ends_pure_iff.1 hret
    obtain rfl := mapError_eq_ok.1 hx
    exact ⟨by simp [NoFace, IsFace], .inr ⟨hmodel, p, Except.ok.inj hextractor, hlocated p rfl,
      List.mem_cons_self⟩⟩
  · exact ⟨hquiet, .inl hmock⟩

theorem buildDetector_ok {detector : Option Text}
    (h : Ends (buildDetector fmt env faceModel cfg false) (.ok detector) l) : NoFace l ∧
      (MockAllowed env ∨ faceModel = true ∧ ∃ path, detector = some path ∧
        Located env cfg.detectorModelPath envDetectorModel path ∧
        ⟨.loadDetector path, .ok ()⟩ ∈ l) := by
  unfold buildDetector loadDetector at h
  obtain ⟨_, ⟨⟩, -⟩ | ⟨path, l₁, l₂, rfl, hpath, hload⟩ := ends_bind_iff.1 h
  obtain ⟨hlocated, rfl⟩ := modelPath_ok hpath
  rw [List.nil_append]
  obtain ⟨hmodel, p, rfl, hp⟩ | ⟨hmock, hquiet⟩ := loadModel_ok hload
  · obtain ⟨x, l, rfl, ⟨_, -, ⟨⟩, -⟩ | ⟨_, hx, hret⟩⟩ := ends_ask_bind_iff.1 hp
    obtain ⟨hdetector, rfl⟩ := ends_pure_iff.1 hret
    obtain rfl := mapError_eq_ok.1 hx
    exact ⟨by simp [NoFace, IsFace], .inr ⟨hmodel, p, Except.ok.inj hdetector, hlocated p rfl,
      List.mem_cons_self⟩⟩
  · exact ⟨hquiet, .inl hmock⟩

end Pipeline

section Configuration

variable [Field F] {fromStr : Text → Except String (FaceConfig F)}

theorem loadConfig_ok {cfg : FaceConfig F} (h : Ends (loadConfig env fromStr) (.ok cfg) l) :
    Configured env fromStr cfg l ∧ NoFace l := by
  unfold loadConfig at h
  cases hvar : envVar env envConfig with
  | error e =>
    rw [hvar] at h
    cases e with
    | notPresent =>
      obtain ⟨hcfg, rfl⟩ := ends_pure_iff.1 h
      refine ⟨.inl ⟨?_, Except.ok.inj hcfg⟩, nofun⟩
      unfold envVar at hvar
      split at hvar
      next hnone => exact hnone
      next value _ =>
        split at hvar
        · cases hvar
        · cases hvar
    | notUnicode => obtain ⟨⟨⟩, -⟩ := ends_throw_iff.1 h
  | ok path =>
    rw [hvar] at h
    obtain ⟨a, l₁, rfl, ⟨_, -, ⟨⟩, -⟩ | ⟨_, ha, h₁⟩⟩ := ends_ask_bind_iff.1 h
    obtain ⟨b, l₂, rfl, ⟨_, -, ⟨⟩, -⟩ | ⟨isFile, hb, h₂⟩⟩ := ends_ask_bind_iff.1 h₁
    obtain ⟨hfile, h₃⟩ := ends_ensure_bind h₂
    obtain ⟨c, l₃, rfl, ⟨_, -, ⟨⟩, -⟩ | ⟨data, hc, h₄⟩⟩ := ends_ask_bind_iff.1 h₃
    obtain ⟨hlen, h₅⟩ := ends_ensure_bind h₄
    obtain ⟨hparse, rfl⟩ := ends_ofResult_iff.1 h₅
    obtain rfl := osContext_ok.1 ha
    obtain rfl := osContext_ok.1 hb
    obtain rfl := osContext_ok.1 hc
    subst hfile
    refine ⟨.inr ⟨path, data, envVar_bind hvar, ?_, ?_, ?_, hlen, osContext_ok.1 hparse.symm⟩, ?_⟩
    · exact List.mem_cons_self
    · simp
    · simp
    · simp [NoFace, IsFace]

end Configuration

/-! ## The camera -/

section Camera

theorem allOps_sys (P : Op F → Prop) (hP : ∀ o, P (.sys o)) {α : Type}
    (x : ExceptT (Stop (Mug.MugError F)) (Prog Mug.Sys.Op.Res) α) :
    AllOps P ((sysPart F).liftT x) := Part.allOps_liftT hP x

/-- Choosing a camera has nothing to do with the gate, nor with the control of the emitter. -/
theorem allOps_selectBackend {P : Op F → Prop} (hP : ∀ o, P (.sys o)) (rounds : ℕ) :
    AllOps P (selectBackend fmt env rounds : Io F CaptureBackend) := by
  have hauto : AllOps P (autoBackend fmt (virtualSubstrate env)
      ((sysPart F).liftT (Mug.Sys.findBrioIrNode rounds))) := by
    unfold autoBackend
    split
    · exact allOps_pure _
    · exact ((allOps_sys P hP _).rethrow _).bind fun _ => allOps_pure _
  have hresolve : ∀ requested, AllOps P (resolveBackend fmt requested (virtualSubstrate env)
      ((sysPart F).liftT (Mug.Sys.findBrioIrNode rounds))) := by
    intro requested
    unfold resolveBackend
    cases requested.map trim with
    | none => exact hauto
    | some choice =>
      dsimp only
      split_ifs
      · exact allOps_pure _
      · exact allOps_pure _
      · exact allOps_throw _
      · exact hauto
      · exact allOps_throw _
  unfold selectBackend
  split
  · exact hresolve _
  · exact hresolve none
  · exact allOps_throw _

theorem allOps_captureNode {P : Op F → Prop} (hP : ∀ o, P (.sys o))
    (node : Option Mug.Sys.OsPath) (rounds : ℕ) : AllOps P (captureNode fmt node rounds) := by
  unfold captureNode
  split
  · exact allOps_pure _
  · exact (allOps_sys P hP _).rethrow _

theorem allOps_emitterVar {P : Op F → Prop} {α : Type} (parse : Text → Except String α)
    (expected var : String) (default : α) :
    AllOps P (emitterVar env parse expected var default : Io F α) := by
  unfold emitterVar
  split
  · exact allOps_ofResult _
  · exact allOps_pure _
  · exact allOps_throw _

theorem allOps_emitterNode {P : Op F → Prop} (hcanonicalize : ∀ path, P (.canonicalize path))
    (hdevice : ∀ path, P (.isCharDevice path)) (node : Mug.Sys.OsPath) :
    AllOps P (emitterNode env node : Io F Mug.Sys.OsPath) := by
  unfold emitterNode validateDeviceNode
  split
  · split_ifs
    · exact allOps_throw _
    · exact ((allOps_ask (hcanonicalize _) _).bind fun _ => (allOps_ensure _ _).bind fun _ =>
        (allOps_ensure _ _).bind fun _ => (allOps_ask (hdevice _) _).bind fun _ =>
          allOps_ensure _ _).bind fun _ => allOps_pure _
  · exact allOps_pure _

theorem noFace_buildEmitter (node : Mug.Sys.OsPath) :
    AllOps (fun o => ¬ IsFace o) (buildEmitter fmt env node : Io F (Option BrioEmitter)) := by
  unfold buildEmitter
  split_ifs
  · exact (allOps_emitterVar ..).bind fun _ => (allOps_emitterVar ..).bind fun _ =>
      (allOps_emitterVar ..).bind fun _ => (allOps_emitterVar ..).bind fun _ =>
        (allOps_emitterNode (fun _ => id) (fun _ => id) _).bind fun _ =>
          (allOps_ask id _).bind fun _ => allOps_pure _
  · exact allOps_pure _

theorem noFace_buildHardwareBackend (node : Option Mug.Sys.OsPath) (rounds : ℕ) :
    AllOps (fun o => ¬ IsFace o) (buildHardwareBackend fmt env node rounds) := by
  have hsys : ∀ o, ¬ IsFace (.sys o : Op F) := fun _ => id
  unfold buildHardwareBackend
  refine (allOps_captureNode hsys node rounds).bind fun node => ?_
  refine ((allOps_sys _ hsys _).rethrow _).bind fun source => ?_
  refine (noFace_buildEmitter node).settle.bind fun emitter => ?_
  cases emitter with
  | ok emitter => exact allOps_pure _
  | error e => exact ((allOps_sys _ hsys _).rethrow _).bind fun _ => allOps_throw _

end Camera

end Parts

/-! ## The whole -/

section Whole

variable [LinearOrder F] (fmt : Formatter F) (env : Pam.Env)
  (fromStr : Text → Except String (FaceConfig F)) (faceModel : Bool) (K : Mug.Kernels F)
  (enrolled : Mug.FaceEnrollment F) (rounds : ℕ)

/-- A face was let in by one run of the gate, with a configuration and models as they have to be. -/
def Verified (cfg : FaceConfig F) (l : List (Event F)) : Prop :=
  ∃ pipeline before gate after, l = before ++ gate.map (facePart pipeline).answer ++ after ∧
    NoFace before ∧ NoFace after ∧
    (MockAllowed env ∨ Genuine env faceModel cfg pipeline before) ∧
    Mug.LetIn K pipeline.detector.isSome enrolled cfg.livenessConfig gate

variable {fmt env fromStr faceModel K enrolled rounds} {l : List (Event F)}

theorem Verified.within {cfg : FaceConfig F} (h : Verified env faceModel K enrolled cfg l)
    {l₁ l₂ : List (Event F)} (h₁ : NoFace l₁) (h₂ : NoFace l₂) :
    Verified env faceModel K enrolled cfg (l₁ ++ l ++ l₂) := by
  obtain ⟨pipeline, before, gate, after, rfl, hbefore, hafter, hgenuine, hlet⟩ := h
  exact ⟨pipeline, l₁ ++ before, gate, after ++ l₂, by simp, h₁.append hbefore, hafter.append h₂,
    hgenuine.imp_right fun h => h.append l₁, hlet⟩

theorem runVerify_ok {cfg : FaceConfig F}
    (h : Ends (runVerify fmt env faceModel K enrolled rounds cfg) (.ok ()) l) :
    Verified env faceModel K enrolled cfg l := by
  unfold runVerify at h
  obtain ⟨_, ⟨⟩, -⟩ | ⟨extractor, l₁, l₂, rfl, hmatcher, h₂⟩ := ends_bind_iff.1 h
  obtain ⟨_, ⟨⟩, -⟩ | ⟨detector, l₃, l₄, rfl, hdetector, h₄⟩ := ends_bind_iff.1 h₂
  obtain ⟨gate, hgate, rfl⟩ := Part.ends_liftT_iff.1 (ends_rethrow_ok_iff.1 h₄)
  obtain ⟨hquiet₁, hext⟩ := buildMatcher_ok hmatcher
  obtain ⟨hquiet₃, hdet⟩ := buildDetector_ok hdetector
  refine ⟨⟨extractor, detector⟩, l₁ ++ l₃, gate, [], by simp, hquiet₁.append hquiet₃, nofun, ?_,
    Mug.verify_letIn hgate⟩
  obtain hmock | ⟨hmodel, path, rfl, hpath, hload⟩ := hext
  · exact .inl hmock
  obtain hmock | ⟨-, detectorPath, rfl, hpath', hload'⟩ := hdet
  · exact .inl hmock
  exact .inr ⟨hmodel, path, detectorPath, rfl, hpath, List.mem_append_left _ hload, hpath',
    List.mem_append_right _ hload'⟩

theorem verifyFromEnv_ok [Field F]
    (h : Ends (verifyFromEnv fmt env fromStr faceModel K enrolled rounds) (.ok ()) l) :
    ∃ cfg, Configured env fromStr cfg l ∧ Verified env faceModel K enrolled cfg l := by
  unfold verifyFromEnv at h
  obtain ⟨_, ⟨⟩, -⟩ | ⟨cfg, l₁, l₂, rfl, hcfg, h₂⟩ := ends_bind_iff.1 h
  obtain ⟨hconfigured, hquiet₁⟩ := loadConfig_ok hcfg
  obtain ⟨_, ⟨⟩, -⟩ | ⟨backend, l₃, l₄, rfl, hbackend, h₄⟩ := ends_bind_iff.1 h₂
  have hquiet₃ : NoFace l₃ := (allOps_selectBackend (P := fun o => ¬ IsFace o)
    (fun _ => id) rounds).ends hbackend
  have hwithin : ∀ l', Configured env fromStr cfg (l₁ ++ l') := fun l' => by
    obtain hdefault | ⟨path, data, hpath, hopen, hfile, hread, hlen, hparse⟩ := hconfigured
    · exact .inl hdefault
    · exact .inr ⟨path, data, hpath, List.mem_append_left _ hopen, List.mem_append_left _ hfile,
        List.mem_append_left _ hread, hlen, hparse⟩
  refine ⟨cfg, hwithin _, ?_⟩
  cases backend with
  | virtual =>
    dsimp only at h₄
    split_ifs at h₄
    · rw [← List.append_assoc, ← List.append_nil (l₁ ++ l₃ ++ l₄)]
      exact (runVerify_ok h₄).within (hquiet₁.append hquiet₃) nofun
    · obtain ⟨⟨⟩, -⟩ := ends_throw_iff.1 h₄
  | hardware node =>
    obtain ⟨_, ⟨⟩, -⟩ | ⟨hardware, l₅, l₆, rfl, hbuild, h₆⟩ := ends_bind_iff.1 h₄
    have hquiet₅ : NoFace l₅ := (noFace_buildHardwareBackend node rounds).ends hbuild
    obtain ⟨-, ⟨⟩⟩ | ⟨outcome, l₇, l₈, rfl, hverify, h₈⟩ := ends_settle_bind_iff.1 h₆
    obtain ⟨_, ⟨⟩, -⟩ | ⟨_, l₉, l₁₀, rfl, hdrop, hret⟩ := ends_bind_iff.1 h₈
    obtain ⟨houtcome, rfl⟩ := ends_ofResult_iff.1 hret
    obtain rfl := mapError_eq_ok.1 houtcome.symm
    obtain ⟨l₉, -, rfl⟩ := Part.ends_liftT_iff.1 (ends_rethrow_ok_iff.1 hdrop)
    rw [← List.append_assoc l₁, ← List.append_assoc, ← List.append_assoc, List.append_nil]
    exact (runVerify_ok hverify).within ((hquiet₁.append hquiet₃).append hquiet₅)
      (noFace_map_sys l₉)

/-- **Without models nobody is let in.** Where the mock is not allowed and a face is verified, the
configuration is the default one or was read as a whole, the models of identity and of detection
were loaded from where they have to be, and then the gate was run once, with these models, and has
let the face in by a live pair and a majority of matched frames. -/
theorem verifyFromEnv_failsClosed [Field F] (hmock : ¬ MockAllowed env)
    (h : Ends (verifyFromEnv fmt env fromStr faceModel K enrolled rounds) (.ok ()) l) :
    faceModel = true ∧ ∃ cfg path detector before gate after,
      l = before ++ gate.map (facePart ⟨.tract path cfg.pixelScale, some detector⟩).answer ++ after ∧
      NoFace before ∧ NoFace after ∧ Configured env fromStr cfg l ∧
      Located env cfg.modelPath envModelPath path ∧
      ⟨.loadExtractor path cfg.pixelScale, .ok ()⟩ ∈ before ∧
      Located env cfg.detectorModelPath envDetectorModel detector ∧
      ⟨.loadDetector detector, .ok ()⟩ ∈ before ∧
      Mug.LetIn K true enrolled cfg.livenessConfig gate := by
  obtain ⟨cfg, hconfigured, pipeline, before, gate, after, rfl, hbefore, hafter, hgenuine, hlet⟩ :=
    verifyFromEnv_ok h
  obtain hallowed | ⟨hmodel, path, detector, rfl, hpath, hload, hpath', hload'⟩ := hgenuine
  · exact absurd hallowed hmock
  · exact ⟨hmodel, cfg, path, detector, before, gate, after, rfl, hbefore, hafter, hconfigured,
      hpath, hload, hpath', hload', hlet⟩

end Whole

/-! ## A verified face -/

/-- The substrate and both models are named. -/
def sampleEnv : Pam.Env := fun var =>
  if var = envVirtualDir ∨ var = envModelPath ∨ var = envDetectorModel then some (utf8 ['m'])
  else none

/-- Everything is live, a face is cut out as it is, and every face is the enrolled one. -/
def sampleKernels : Mug.Kernels ℚ where
  analyze _ _ := .ok ⟨⟨40, 40, 40, 0, 0, 0, 1⟩, true, none⟩
  alignFace frame _ _ := .ok frame
  cosineDistance _ _ := .ok 0

def sampleEnrollment : Mug.FaceEnrollment ℚ := ⟨1, 0, [1], 0, ⟨1, 0⟩⟩

/-- What the two models find in a frame. -/
def sampleFound : List (Mug.Event ℚ) :=
  [⟨.detect Mug.sampleFrame, .ok ⟨0, ⟨fun _ => 0⟩, 1⟩⟩, ⟨.extract Mug.sampleFrame, .ok [1]⟩]

def sampleGate : List (Mug.Event ℚ) :=
  [⟨.now, 0⟩, ⟨.now, 0⟩, ⟨.setEnabled false, .ok ()⟩, ⟨.capture 1250, .ok Mug.sampleFrame⟩,
    ⟨.setEnabled true, .ok ()⟩, ⟨.now, 0⟩, ⟨.capture 2500, .ok Mug.sampleFrame⟩,
    ⟨.setEnabled false, .ok ()⟩] ++ sampleFound ++ [⟨.setEnabled true, .ok ()⟩, ⟨.now, 0⟩,
    ⟨.capture 150, .ok Mug.sampleFrame⟩] ++ sampleFound ++ [⟨.now, 0⟩,
    ⟨.capture 150, .ok Mug.sampleFrame⟩] ++ sampleFound ++ [⟨.now, 2500000000⟩,
    ⟨.setEnabled false, .ok ()⟩]

def samplePipeline : Pipeline ℚ := ⟨.tract ['m'] .symmetric, some ['m']⟩

theorem ends_sampleGate (cfg : Mug.LivenessConfig ℚ) :
    Ends (Mug.verify sampleKernels true sampleEnrollment cfg 2500 9) (.ok ()) sampleGate :=
  .op _ (.op _ (.op _ (.op _ (.op _ (.op _ (.op _ (.op _ (.op _ (.op _ (.op _ (.op _ (.op _ (.op _
    (.op _ (.op _ (.op _ (.op _ (.op _ (.op _ (.op _ (.pure _)))))))))))))))))))))

/-- The calls that load the two models. -/
def sampleLoads : List (Event ℚ) :=
  [⟨.loadExtractor ['m'] .symmetric, .ok ()⟩, ⟨.loadDetector ['m'], .ok ()⟩]

def sampleFormatter : Formatter ℚ := ⟨fun _ _ => "", String.ofList⟩

def sampleRun : List (Event ℚ) := sampleLoads ++ sampleGate.map (facePart samplePipeline).answer

theorem envVar_sampleEnv {var : String} (h : var = envModelPath ∨ var = envDetectorModel) :
    envVar sampleEnv var = .ok ['m'] := by
  have hset : sampleEnv var = some (utf8 ['m']) := if_pos (.inr h)
  rw [envVar, hset]
  simp only [ofUtf8_utf8]

theorem ends_sampleLoads (fmt : Formatter ℚ) :
    Ends (buildMatcher fmt sampleEnv true .default false) (.ok samplePipeline.extractor)
        [⟨.loadExtractor ['m'] .symmetric, .ok ()⟩] ∧
      Ends (buildDetector fmt sampleEnv true .default false) (.ok samplePipeline.detector)
        [⟨.loadDetector ['m'], .ok ()⟩] := by
  unfold buildMatcher buildDetector modelPath FaceConfig.default
  dsimp only
  rw [envVar_sampleEnv (.inl rfl), envVar_sampleEnv (.inr rfl)]
  exact ⟨.op _ (.pure _), .op _ (.pure _)⟩

theorem ends_sampleRun (fmt : Formatter ℚ) (fromStr : Text → Except String (FaceConfig ℚ)) :
    Ends (verifyFromEnv fmt sampleEnv fromStr true sampleKernels sampleEnrollment 9) (.ok ())
      sampleRun := by
  have hverify : Ends (runVerify fmt sampleEnv true sampleKernels sampleEnrollment 9 .default)
      (.ok ()) sampleRun := by
    obtain ⟨hextractor, hdetector⟩ := ends_sampleLoads fmt
    refine ends_bind_iff.2 (.inr ⟨_, [_], _, rfl, hextractor, ?_⟩)
    refine ends_bind_iff.2 (.inr ⟨_, [_], _, rfl, hdetector, ?_⟩)
    exact ends_rethrow_ok_iff.2 (Part.ends_liftT_iff.2 ⟨sampleGate, ends_sampleGate _, rfl⟩)
  exact hverify

theorem not_mockAllowed_sampleEnv : ¬ MockAllowed sampleEnv := by
  have hunset : sampleEnv envAllowMockFace = none := by decide
  rw [MockAllowed, hunset]
  exact nofun

theorem verifyFromEnv_failsClosed_sample : true = true ∧ ∃ (cfg : FaceConfig ℚ) (path detector : Text)
    (before : List (Event ℚ)) (gate : List (Mug.Event ℚ)) (after : List (Event ℚ)),
    sampleRun = before ++
      gate.map (facePart ⟨.tract path cfg.pixelScale, some detector⟩).answer ++ after ∧
    NoFace before ∧ NoFace after ∧
    Configured sampleEnv (fun _ => .error "") cfg sampleRun ∧
    Located sampleEnv cfg.modelPath envModelPath path ∧
    ⟨.loadExtractor path cfg.pixelScale, .ok ()⟩ ∈ before ∧
    Located sampleEnv cfg.detectorModelPath envDetectorModel detector ∧
    ⟨.loadDetector detector, .ok ()⟩ ∈ before ∧
    Mug.LetIn sampleKernels true sampleEnrollment cfg.livenessConfig gate :=
  verifyFromEnv_failsClosed not_mockAllowed_sampleEnv
    (ends_sampleRun sampleFormatter fun _ => .error "")

end Login

end Tess

import Tess.Effects.Interfaces
import Tess.Formats.Hex
import Tess.Mug.Stream
import Tess.Mug.Template
import Tess.Mug.Vote
import Tess.Mug.Warmup
import Tess.Pam.Helper

/-!
# Verifying a face from the environment

The environment and a configuration choose the camera, the emitter, and the models that a face is
verified with. This module follows `tess-cli/src/face.rs` and the configuration of
`mug/src/config.rs`. A build has the models or has not, which is the feature `face-model`.

The environment of the process is what it is started with, and everything outside of the process
answers in any way.
-/

namespace Tess

namespace Login

open Text Effects

variable {F : Type}

/-! ## Errors and variables -/

/-- How the formatting macros write a number with so many digits, and a text as `{:?}` does. -/
structure Formatter (F : Type) where
  fixed : ℕ → F → String
  debug : Text → String

/-- How an error of the face factor reads. -/
def display (fmt : Formatter F) : Mug.MugError F → String
  | .camera what => "camera error: " ++ what
  | .noIrNode => "no Brio IR (GREY) capture node found"
  | .emitter what => "IR emitter enable failed: " ++ what
  | .timeout ms => "operation timed out after " ++ toString ms ++ "ms"
  | .livenessRejected reason => "liveness rejected: " ++ reason
  | .matcherUnavailable what => "face matcher unavailable: " ++ what
  | .noMatch distance threshold => "no face match (distance " ++ fmt.fixed 4 distance ++
      " >= threshold " ++ fmt.fixed 4 threshold ++ ")"
  | .insufficientFrames captured required => "insufficient face frames for a confident match (" ++
      toString captured ++ " captured, " ++ toString required ++ " required)"
  | .notEnrolled => "user is not enrolled for the face factor"
  | .noFace => "no face detected in frame"
  | .store what => "enroll store error: " ++ what
  | .invalidUsername name => "enroll store error: invalid username: " ++ fmt.debug name.toList
  | .invalidFrame what => "invalid frame: " ++ what
  | .io what => "io error: " ++ what

inductive VarError where
  | notPresent
  | notUnicode

/-- `std::env::var`. -/
def envVar (env : Pam.Env) (var : String) : Except VarError Text :=
  match env var with
  | none => .error .notPresent
  | some value =>
    match ofUtf8 value with
    | some text => .ok text
    | none => .error .notUnicode

theorem envVar_ok {env : Pam.Env} {var : String} {text : Text} (h : envVar env var = .ok text) :
    ∃ value, env var = some value ∧ ofUtf8 value = some text := by
  unfold envVar at h
  cases hvar : env var with
  | none => simp [hvar] at h
  | some value =>
    cases htext : ofUtf8 value with
    | none => simp [hvar, htext] at h
    | some t =>
      simp only [hvar, htext, Except.ok.injEq] at h
      exact ⟨value, rfl, h ▸ htext⟩

def envBackend : String := "MUG_IR_BACKEND"

def envEmitterOn : String := "MUG_IR_EMITTER_ON_HEX"

def envEmitterOff : String := "MUG_IR_EMITTER_OFF_HEX"

def envEmitterUnit : String := "MUG_IR_EMITTER_UNIT"

def envEmitterSelector : String := "MUG_IR_EMITTER_SELECTOR"

def envEmitterNode : String := "MUG_IR_EMITTER_NODE"

def envModelPath : String := "MUG_MODEL_PATH"

def envDetectorModel : String := "MUG_DETECTOR_MODEL"

def envConfig : String := "MUG_CONFIG"

def envAllowMockFace : String := "TESS_ALLOW_MOCK_FACE"

/-- `VirtualIrDevice::ENV_DIR`. -/
def envVirtualDir : String := "MUG_VIRTUAL_IR_DIR"

/-! ## The configuration -/

inductive PixelScale (F : Type) where
  | symmetric
  | unit
  | standardized (mean std : F)

/-- The configuration, with what the pipeline is built from. -/
structure FaceConfig (F : Type) extends Mug.MugConfig F where
  modelPath : Option Text
  detectorModelPath : Option Text
  pixelScale : PixelScale F
  warmup : Mug.WarmupConfig F

section Default

variable [Field F] [LinearOrder F]

def FaceConfig.default : FaceConfig F where
  toMugConfig := .default
  modelPath := none
  detectorModelPath := none
  pixelScale := .symmetric
  warmup := Mug.WarmupConfig.default

end Default

/-! ## What the pipeline is made of -/

inductive Extractor (F : Type) where
  | tract (path : Text) (scale : PixelScale F)
  | pooled (dim : ℕ)

/-- What a face is verified with; without a detector the whole frame is embedded. -/
structure Pipeline (F : Type) where
  extractor : Extractor F
  detector : Option Text

/-- The SET_CUR control of an emitter. -/
structure BrioEmitter where
  node : Mug.Sys.OsPath
  unit : UInt8
  selector : UInt8
  onPayload : List UInt8
  offPayload : List UInt8
  deriving DecidableEq

/-- A path without links: its names, from the root. -/
abbrev Resolved := List Pam.OsString

inductive Op (F : Type) where
  | eprintln (text : String)
  | openConfig (path : Text)
  | configIsFile
  | readConfig (limit : ℕ)
  | sys (o : Mug.Sys.Op)
  | canonicalize (path : Mug.Sys.OsPath)
  | isCharDevice (path : Resolved)
  | openEmitter (emitter : BrioEmitter)
  | loadExtractor (path : Text) (scale : PixelScale F)
  | loadDetector (path : Text)
  | face (pipeline : Pipeline F) (o : Mug.Op)

@[reducible] def Op.Res : Op F → Type
  | .eprintln _ => Unit
  | .openConfig _ => Except String Unit
  | .configIsFile => Except String Bool
  | .readConfig _ => Except String Text
  | .sys o => o.Res
  | .canonicalize _ => Except String Resolved
  | .isCharDevice _ => Except String Bool
  | .openEmitter _ => Except String Unit
  | .loadExtractor .. | .loadDetector _ => Except (Mug.MugError F) Unit
  | .face _ o => o.Res F

abbrev Event (F : Type) := Answer (Op.Res (F := F))

abbrev Io (F : Type) := ExceptT (Stop Error) (Prog (Op.Res (F := F)))

def sysPart (F : Type) : Part Mug.Sys.Op.Res (Op.Res (F := F)) where
  op := .sys
  res _ := Equiv.refl _

def facePart (pipeline : Pipeline F) : Part (Mug.Op.Res F) (Op.Res (F := F)) where
  op := .face pipeline
  res _ := Equiv.refl _

def eprintln (text : String) : Io F Unit := ask (.eprintln text) .ok

/-- An error with one message. -/
def anyhow {α : Type} (what : String) : Io F α := throw (.failed [what])

/-- An error of the system, in a context. -/
def osContext {α : Type} (what : String) (x : Except String α) : Except (Stop Error) α :=
  x.mapError fun e => .failed [what, e]

/-! ## Choosing a camera -/

inductive CaptureBackend where
  | virtual
  | hardware (node : Option Mug.Sys.OsPath)

def virtualSubstrate (env : Pam.Env) : Bool := (env envVirtualDir).isSome

section Build

variable (fmt : Formatter F) (env : Pam.Env)

def probeError : Mug.MugError F → String
  | .noIrNode => "no face capture backend available: set " ++ envVirtualDir ++
      " for the virtual IR substrate, or attach a Logitech Brio (GREY IR node) — auto-detected " ++
      "when present. The face factor is unavailable and the caller degrades to the PIN"
  | e => "the Brio IR probe failed (" ++ display fmt e ++ "); fix it or set " ++ envVirtualDir ++
      " for the virtual IR substrate. The face factor is unavailable and the caller degrades to " ++
      "the PIN"

/-- The substrate if there is one, and else the camera that is found. -/
def autoBackend (virtualSet : Bool)
    (probeBrio : ExceptT (Stop (Mug.MugError F)) (Prog (Op.Res (F := F))) Mug.Sys.OsPath) :
    Io F CaptureBackend :=
  if virtualSet then pure .virtual
  else do
    let node ← rethrow (fun e => [probeError fmt e]) probeBrio
    pure (.hardware (some node))

def resolveBackend (requested : Option Text) (virtualSet : Bool)
    (probeBrio : ExceptT (Stop (Mug.MugError F)) (Prog (Op.Res (F := F))) Mug.Sys.OsPath) :
    Io F CaptureBackend :=
  match requested.map trim with
  | none => autoBackend fmt virtualSet probeBrio
  | some choice =>
    if choice = "hardware".toList then pure (.hardware none)
    else if choice = "virtual".toList then
      if virtualSet then pure .virtual
      else anyhow (envBackend ++ "=virtual but " ++ envVirtualDir ++
        " is not set (point it at a directory of synthetic GREY frames)")
    else if choice = "auto".toList ∨ choice = [] then autoBackend fmt virtualSet probeBrio
    else anyhow ("unknown " ++ envBackend ++ "=" ++ fmt.debug choice ++
      " (expected auto, virtual, or hardware)")

def selectBackend (rounds : ℕ) : Io F CaptureBackend :=
  let resolve := fun requested => resolveBackend fmt requested (virtualSubstrate env)
    ((sysPart F).liftT (Mug.Sys.findBrioIrNode rounds))
  match envVar env envBackend with
  | .ok value => resolve (some value)
  | .error .notPresent => resolve none
  | .error .notUnicode => anyhow (envBackend ++
      " is set but is not valid UTF-8 (expected auto, virtual, or hardware)")

end Build

/-! ## The control of the emitter -/

/-- What of a payload is digits, before a prefix is taken off. -/
def cleaned (raw : Text) : Text := raw.filter fun c => !isWhitespace c && c != ':' && c != ','

/-- Without the prefix `0x` or `0X`. -/
def stripHexPrefix : Text → Text
  | '0' :: 'x' :: rest => rest
  | '0' :: 'X' :: rest => rest
  | s => s

/-- The byte that two digits spell. -/
def hexByte (digits : Text) : Option UInt8 :=
  match digits.mapM Hex.value with
  | some [hi, lo] => some (UInt8.ofNat (16 * hi + lo))
  | _ => none

def parseHexByte (debug : Text → String) (digits : Text) : Except String UInt8 :=
  match hexByte digits with
  | some b => .ok b
  | none => .error ("invalid hex byte " ++ debug digits ++ ": invalid digit found in string")

def maxInputLen : ℕ := 256

/-- Digits that are checked before bytes are cut out of them, so that every cut is one. -/
def parseHexPayload (debug : Text → String) (raw : Text) : Except String (List UInt8) :=
  if maxInputLen < byteLen raw then
    .error ("payload too long (" ++ toString (byteLen raw) ++ " bytes; max " ++
      toString maxInputLen ++ ")")
  else
    let hex := stripHexPrefix (cleaned raw)
    if hex = [] then .error "empty payload"
    else if byteLen hex % 2 ≠ 0 then .error ("odd hex length " ++ toString (byteLen hex))
    else if hex.any fun c => (Hex.value c).isNone then
      .error ("non-hex characters in payload " ++ debug raw)
    else
      (Hex.chunks 2 hex).mapM (parseHexByte debug)

/-- The digits of a number that fits into a byte, after those that make `n`. -/
def fromDigits : ℕ → Text → Except String ℕ
  | n, [] => .ok n
  | n, c :: digits =>
    match Hex.value c with
    | none => .error "invalid digit found in string"
    | some d =>
      if 256 ≤ 16 * n + d then .error "number too large to fit in target type"
      else fromDigits (16 * n + d) digits

/-- `u8::from_str_radix`, which takes a sign in front of the digits. -/
def fromStrRadix : Text → Except String ℕ
  | [] => .error "cannot parse integer from empty string"
  | ['+'] => .error "invalid digit found in string"
  | '+' :: digits => fromDigits 0 digits
  | digits => fromDigits 0 digits

def parseByte (debug : Text → String) (digits : Text) : Except String UInt8 :=
  match fromStrRadix digits with
  | .ok n => .ok (UInt8.ofNat n)
  | .error e => .error ("invalid hex u8 " ++ debug digits ++ ": " ++ e)

def parseHexU8 (debug : Text → String) (raw : Text) : Except String UInt8 :=
  let s := trim raw
  if 64 < byteLen s then .error "value too long for a hex u8"
  else
    let digits := stripHexPrefix s
    if digits = [] then .error "empty value" else parseByte debug digits

section Emitter

variable (fmt : Formatter F) (env : Pam.Env)

/-- A value for the emitter from a variable, or its default. -/
def emitterVar {α : Type} (parse : Text → Except String α) (expected var : String) (default : α) :
    Io F α :=
  match envVar env var with
  | .ok value => ofResult ((parse value).mapError fun e => .failed [var ++ ": " ++ e])
  | .error .notPresent => pure default
  | .error .notUnicode => anyhow (var ++ " is set but is not valid UTF-8; expected " ++ expected)

def emitterPayload (var : String) (default : List UInt8) : Io F (List UInt8) :=
  emitterVar env (parseHexPayload fmt.debug) "hex bytes (e.g. 01ff) or unset it for the default" var
    default

def emitterCoord (var : String) (default : UInt8) : Io F UInt8 :=
  emitterVar env (parseHexU8 fmt.debug) "a hex u8 (e.g. 0x04)" var default

def isV4l2VideoName (name : Text) : Bool :=
  match name with
  | 'v' :: 'i' :: 'd' :: 'e' :: 'o' :: n => !n.isEmpty && n.all Char.isDigit
  | _ => false

def showResolved (path : Resolved) : String :=
  String.ofList (path.flatMap fun name => '/' :: fromUtf8Lossy name)

/-- The resolved path has to be a character device `/dev/.../videoN`. -/
def validateDeviceNode (var : String) (path : Mug.Sys.OsPath) : Io F Unit := do
  let resolved ← ask (.canonicalize path)
    (osContext ("resolve " ++ var ++ " " ++ Mug.Sys.display path))
  ensure (resolved.head? = some (utf8 "dev".toList))
    (.failed [var ++ " must resolve to a path under /dev, got " ++ showResolved resolved])
  ensure (isV4l2VideoName ((resolved.getLast?.bind ofUtf8).getD []) = true)
    (.failed [var ++ " must resolve to a V4L2 video node (/dev/videoN), got " ++
      showResolved resolved])
  let isDevice ← ask (.isCharDevice resolved)
    (osContext ("stat " ++ var ++ " " ++ showResolved resolved))
  ensure (isDevice = true)
    (.failed [var ++ " " ++ showResolved resolved ++ " is not a character device"])

/-- The variables that opt into controlling the emitter. -/
def emitterVars : List String :=
  [envEmitterOn, envEmitterOff, envEmitterUnit, envEmitterSelector, envEmitterNode]

def emitterEnvConfigured : Bool := emitterVars.any fun var => (env var).isSome

def brioEmitterUnit : UInt8 := 0x04

def brioEmitterSelector : UInt8 := 0x06

def emitterNode (node : Mug.Sys.OsPath) : Io F Mug.Sys.OsPath :=
  match env envEmitterNode with
  | some path =>
    if path = [] then
      anyhow (envEmitterNode ++ " is set but empty; unset it to use the capture node")
    else do
      validateDeviceNode envEmitterNode path
      pure path
  | none => pure node

def buildEmitter (node : Mug.Sys.OsPath) : Io F (Option BrioEmitter) :=
  if emitterEnvConfigured env then do
    let onPayload ← emitterPayload fmt env envEmitterOn [0x01]
    let offPayload ← emitterPayload fmt env envEmitterOff [0x00]
    let unit ← emitterCoord fmt env envEmitterUnit brioEmitterUnit
    let selector ← emitterCoord fmt env envEmitterSelector brioEmitterSelector
    let emitterNode ← emitterNode env node
    let emitter : BrioEmitter := ⟨emitterNode, unit, selector, onPayload, offPayload⟩
    ask (.openEmitter emitter) fun x => x.mapError fun e => .failed
      ["open the Brio IR emitter control " ++ Mug.Sys.display emitterNode ++
        ": IR emitter enable failed: open " ++ Mug.Sys.display emitterNode ++ ": " ++ e]
    pure (some emitter)
  else pure none

/-- The hardware: the camera, and the emitter if it is to be controlled. -/
structure Hardware where
  source : Mug.Sys.V4l2IrDevice
  emitter : Option BrioEmitter

/-- The node that was found when the backend was chosen, or one that is found now. -/
def captureNode (node : Option Mug.Sys.OsPath) (rounds : ℕ) : Io F Mug.Sys.OsPath :=
  match node with
  | some node => pure node
  | none => rethrow (fun e => ["discover the Brio IR node: " ++ display fmt e])
      ((sysPart F).liftT (Mug.Sys.findBrioIrNode rounds))

/-- The camera is dropped if there is an error with the emitter. -/
def buildHardwareBackend (node : Option Mug.Sys.OsPath) (rounds : ℕ) : Io F Hardware := do
  let node ← captureNode fmt node rounds
  let source ← rethrow (fun e => ["open the Brio IR capture node " ++ Mug.Sys.display node ++ ": " ++
      display fmt e])
    ((sysPart F).liftT (Mug.Sys.V4l2IrDevice.openDevice node Mug.Sys.brioIrWidth
      Mug.Sys.brioIrHeight))
  match ← settle (buildEmitter fmt env node) with
  | .ok emitter => pure ⟨source, emitter⟩
  | .error e => do
    rethrow (fun e => [display fmt e]) ((sysPart F).liftT source.drop)
    throw (.failed e)

end Emitter

/-! ## Loading -/

def maxConfigBytes : ℕ := 64 * 1024

section Verify

variable [Field F] [LinearOrder F] (fmt : Formatter F) (env : Pam.Env)
  (fromStr : Text → Except String (FaceConfig F)) (faceModel : Bool)

/-- A configuration that is named has to be read; there are defaults only when none is. -/
def loadConfig : Io F (FaceConfig F) :=
  match envVar env envConfig with
  | .ok path => do
    let config := "mug config " ++ String.ofList path
    ask (.openConfig path) (osContext ("open " ++ config))
    let isFile ← ask .configIsFile (osContext ("stat " ++ config))
    ensure (isFile = true) (.failed [config ++ " is not a regular file"])
    let data ← ask (.readConfig (maxConfigBytes + 1)) (osContext ("read " ++ config))
    ensure (byteLen data ≤ maxConfigBytes)
      (.failed [config ++ " exceeds the " ++ toString maxConfigBytes ++ "-byte cap"])
    ofResult (osContext ("parse " ++ config) (fromStr data))
  | .error .notPresent => pure .default
  | .error .notUnicode => anyhow (envConfig ++ " is set but is not valid UTF-8")

def mockFaceAllowed : Bool :=
  match envVar env envAllowMockFace with
  | .ok value => value = ['1']
  | .error _ => false

def mockDim : ℕ := 64

/-- The path of a model: the configured one, or that of a variable. -/
def modelPath (configured : Option Text) (var : String) : Io F (Option Text) :=
  match configured with
  | some path => pure (some path)
  | none =>
    match envVar env var with
    | .ok path => pure (some path)
    | .error .notPresent => pure none
    | .error .notUnicode => anyhow (var ++ " is set but is not valid UTF-8")

/-- Why there is no model. -/
def noModel (path : Option Text) (kind : String) : String :=
  match path with
  | some _ => "a " ++ kind ++ " path is configured but this build lacks the `face-model` feature"
  | none => "no " ++ kind ++ " is configured"

/-- A model is loaded if there is one. Without it something else takes its place, which the mock has
to be allowed for. -/
def loadModel {α : Type} (path : Option Text) (allowMock : Bool) (load : Text → Io F α)
    (refusal : Option Text → String) (note : Option Text → Bool → String) (instead : α) : Io F α :=
  match path, faceModel with
  | some path, true => load path
  | path, _ =>
    if !allowMock && !mockFaceAllowed env then anyhow (refusal path)
    else do
      eprintln (note path allowMock)
      pure instead

def matcherRefusal (path : Option Text) : String :=
  "face identity matching requires a model (" ++ noModel path "model" ++ "). Build with " ++
    "`cargo build -p tess-cli --features face-model` and point " ++ envModelPath ++ " at a " ++
    "fixed-shape NCHW ONNX face model (see the README for where to download one). Refusing to " ++
    "use the model-free mock, which would accept any live face."

def matcherNote (path : Option Text) (allowMock : Bool) : String :=
  if allowMock then
    match path with
    | some _ => "tess: note — a model path is configured but this build lacks the `face-model` " ++
        "feature, so identity matching uses the model-free mock and is meaningless (liveness is " ++
        "still real). Rebuild with `cargo build -p tess-cli --features face-model` for real " ++
        "identity."
    | none => "tess: note — no model configured; identity matching uses the model-free mock and " ++
        "is meaningless (liveness is still real). Set " ++ envModelPath ++ " to a real model for " ++
        "identity discrimination."
  else
    "tess: WARNING — " ++ envAllowMockFace ++ " is set; using the model-free mock matcher. " ++
      "Identity matching is DISABLED (accepts essentially any live face) — unset it for " ++
      "fail-closed behavior. For testing only."

def loadExtractor (scale : PixelScale F) (path : Text) : Io F (Extractor F) := do
  ask (.loadExtractor path scale) fun x => x.mapError fun e => .failed [display fmt e]
  pure (.tract path scale)

def buildMatcher (cfg : FaceConfig F) (allowMock : Bool) : Io F (Extractor F) := do
  let path ← modelPath env cfg.modelPath envModelPath
  loadModel env faceModel path allowMock (loadExtractor fmt cfg.pixelScale) matcherRefusal
    matcherNote (.pooled mockDim)

def detectorRefusal (path : Option Text) : String :=
  "face identity matching requires a face detector (" ++ noModel path "detector" ++ "). Build " ++
    "with `cargo build -p tess-cli --features face-model` and point " ++ envDetectorModel ++
    " at a fixed-shape YuNet ONNX model (see the README). Refusing to embed the whole frame, " ++
    "which does not discriminate a face."

def detectorNote (path : Option Text) (allowMock : Bool) : String :=
  if allowMock then
    "tess: note — " ++ noModel path "detector" ++ "; identity matching embeds the WHOLE frame " ++
      "and does not discriminate a face (liveness is still real). Set " ++ envDetectorModel ++
      " to a YuNet model (built with `--features face-model`) for real recognition."
  else
    "tess: WARNING — " ++ envAllowMockFace ++ " is set and " ++ noModel path "detector" ++
      "; running WITHOUT a face detector. Identity matching embeds the whole frame and does NOT " ++
      "discriminate a face — unset it for fail-closed behavior. For testing only."

def loadDetector (path : Text) : Io F (Option Text) := do
  ask (.loadDetector path) fun x => x.mapError fun e => .failed [display fmt e]
  pure (some path)

/-- Without a detector the whole frame is embedded. -/
def buildDetector (cfg : FaceConfig F) (allowMock : Bool) : Io F (Option Text) := do
  let path ← modelPath env cfg.detectorModelPath envDetectorModel
  loadModel env faceModel path allowMock (loadDetector fmt) detectorRefusal detectorNote none

/-! ## Verifying -/

variable (K : Mug.Kernels F) (enrolled : Mug.FaceEnrollment F) (rounds : ℕ)

def runVerify (cfg : FaceConfig F) : Io F Unit := do
  let extractor ← buildMatcher fmt env faceModel cfg false
  let detector ← buildDetector fmt env faceModel cfg false
  rethrow (fun e => ["face verification failed: " ++ display fmt e])
    ((facePart ⟨extractor, detector⟩).liftT
      (Mug.runVerify K detector.isSome enrolled cfg.toMugConfig rounds))

def verifyFromEnv : Io F Unit := do
  let cfg ← loadConfig env fromStr
  let backend ← selectBackend fmt env rounds
  match backend with
  | .virtual =>
    if virtualSubstrate env then runVerify fmt env faceModel K enrolled rounds cfg
    else anyhow ("open the virtual IR device: camera error: " ++ envVirtualDir ++ " is not set")
  | .hardware node => do
    let hardware ← buildHardwareBackend fmt env node rounds
    let outcome ← settle (runVerify fmt env faceModel K enrolled rounds cfg)
    rethrow (fun e => [display fmt e]) ((sysPart F).liftT hardware.source.drop)
    ofResult (outcome.mapError .failed)

end Verify

end Login

end Tess

import Tess.Fprint.Client
import Tess.Lifecycle.SessionUnlock
import Tess.Login.EmitterControl
import Tess.Mug.Directory

/-!
# The helper of a session

What `tess-pam-helper` does with its flags: the face, which can release the key by itself, then the
PIN, with a fingerprint in front of it that decides nothing. This module follows
`tess-cli/src/session.rs`, the lookups of `face.rs`, and where the files are, as `enroll/mod.rs` and
`mug/src/store.rs` say.

Opening the TPM is a program of its own. The helper is that of a release build, which has no
variables for the bus of the fingerprint reader and for its deadline.
-/

namespace Tess

namespace Session

open Text Effects Files Pam

variable {F : Type}

/-! ## Where the files are -/

def isAbsolute (path : OsString) : Bool := path.head? = some 47

/-- A directory, and a relative path from there. -/
def joinOs (dir : OsString) (path : String) : OsString :=
  if dir = [] ∨ dir.getLast? = some 47 then dir ++ utf8 path.toList
  else dir ++ 47 :: utf8 path.toList

/-- `Paths::resolve_base`. A relative `XDG_DATA_HOME` counts as none, and an empty `HOME`. -/
def resolveBase (xdg home : Option OsString) : Except Error OsString :=
  match xdg.filter isAbsolute, home.filter (· ≠ []) with
  | some dir, _ => .ok dir
  | none, some home => .ok (joinOs home ".local/share")
  | none, none => .error ["neither XDG_DATA_HOME nor HOME is set to a usable path"]

/-- `Paths::for_user`, the directory of the files. -/
def forUser (env : Env) : Except Error OsString :=
  (resolveBase (env "XDG_DATA_HOME") (env "HOME")).map (joinOs · "tess")

/-- `EnrollStore::default_location`. -/
def defaultLocation (env : Env) : Except String OsString :=
  match (env "MUG_STORE_DIR").filter isAbsolute, (env "XDG_DATA_HOME").filter isAbsolute,
    (env "HOME").filter isAbsolute with
  | some dir, _, _ => .ok dir
  | none, some xdg, _ => .ok (joinOs xdg "mug")
  | none, none, some home => .ok (joinOs (joinOs (joinOs home ".local") "share") "mug")
  | none, none, none => .error
      "cannot resolve store dir: set MUG_STORE_DIR or an absolute XDG_DATA_HOME/HOME"

/-! ## Calls -/

inductive Op (F : Type) where
  | connectKeyring
  | host (o : Tess.Op)
  | store (o : Mug.EnrollStore.Op)
  | face (o : Login.Op F)
  | connectFprint (user : Text)
  | fprint (o : Fprint.CappedOp)
  | readStdin (limit : ℕ)
  | eprintln (text : String)

@[reducible] def Op.Res : Op F → Type
  | .connectKeyring => Except String Unit
  | .host o => o.Res
  | .store o => o.Res
  | .face o => o.Res
  | .connectFprint _ => Except String Unit
  | .fprint o => o.Res
  | .readStdin _ => Except String Bytes
  | .eprintln _ => Unit

abbrev Event (F : Type) := Answer (Op.Res (F := F))

abbrev Io (F : Type) := ExceptT (Stop Error) (Prog (Op.Res (F := F)))

def hostPart (F : Type) : Part Tess.Op.Res (Op.Res (F := F)) where
  op := .host
  res _ := Equiv.refl _

def storePart (F : Type) : Part Mug.EnrollStore.Op.Res (Op.Res (F := F)) where
  op := .store
  res _ := Equiv.refl _

def facePart (F : Type) : Part (Login.Op.Res (F := F)) (Op.Res (F := F)) where
  op := .face
  res _ := Equiv.refl _

def fprintPart (F : Type) : Part Fprint.CappedOp.Res (Op.Res (F := F)) where
  op := .fprint
  res _ := Equiv.refl _

/-- A program of the host. -/
def host {α : Type} (x : Tess.Io α) : Io F α := ExceptT.adapt .failed ((hostPart F).liftT x)

def eprintln (text : String) : Io F Unit := ask (.eprintln text) .ok

/-! ## The PIN -/

def maxPinBytes : ℕ := 1024

/-- One byte more than the limit is read, so that a PIN that is too long is not cut. -/
def readPinFromStdin : Io F SecretBytes := do
  let buf ← ask (.readStdin (maxPinBytes + 1)) fun x => x.mapError fun e =>
    .failed ["read PIN from stdin", e]
  ensure (buf ≠ []) (.failed ["no PIN supplied on stdin"])
  ensure (buf.length ≤ maxPinBytes)
    (.failed ["PIN on stdin exceeds the " ++ toString maxPinBytes ++ "-byte maximum"])
  pure buf

/-! ## The fingerprint -/

inductive FingerprintGate where
  | matched
  | noMatch
  | timedOut
  | unavailable (reason : String)

def fingerprintVerifyDeadlineMs : ℕ := 8000

def FingerprintGate.of : Except Fprint.Error Unit → FingerprintGate
  | .ok () => .matched
  | .error (.timeout _) => .timedOut
  | .error (.auth reason) =>
    if reason = Fprint.noMatchReason then .noMatch else .unavailable reason

def fingerprintFrontGate (env : Env) (rounds : ℕ) : Io F FingerprintGate := do
  let user := fingerprintUser env
  match ← ask (.connectFprint user) .ok with
  | .error e => pure (.unavailable ("io error: connect to system bus: " ++ e))
  | .ok () => do
    let outcome ← settle ((fprintPart F).liftT
      (Fprint.verify (String.ofList user) fingerprintVerifyDeadlineMs rounds))
    pure (.of outcome)

def FingerprintGate.report : FingerprintGate → String
  | .matched => "tess-pam-helper: fingerprint verified (host-trusted convenience); the PIN still " ++
      "unseals the key"
  | .noMatch => "tess-pam-helper: fingerprint did not match — falling back to the PIN"
  | .timedOut => "tess-pam-helper: fingerprint verify timed out — falling back to the PIN"
  | .unavailable reason => "tess-pam-helper: fingerprint unavailable (" ++ reason ++
      ") — falling back to the PIN"

/-- The gate, if it is enabled. What it says is written to the journal only. -/
def fingerprintLeg (enabled : Bool) (env : Env) (rounds : ℕ) : Io F Unit :=
  if enabled then do
    let gate ← fingerprintFrontGate env rounds
    eprintln gate.report
  else pure ()

/-! ## The face -/

inductive FaceRelease where
  | unlocked
  | fallback (reason : String)

/-- What the journal is told. -/
def FaceRelease.report : FaceRelease → String
  | .unlocked => "tess-pam-helper: face verified (host-trusted convenience); keyring unlocked via " ++
      "the face authValue"
  | .fallback reason => "tess-pam-helper: face unavailable (" ++ reason ++
      ") — falling back to the PIN"

section Face

variable [Field F] [LinearOrder F] (E : Primitives) (J : Mug.EnrollmentJson F)
  (fmt : Login.Formatter F) (env : Env) (fromStr : Text → Except String (Login.FaceConfig F))
  (faceModel : Bool) (K : Mug.Kernels F) (openTpm : Tess.Io Unit) (rounds : ℕ)

def enrollStore : Except Error PathBuf :=
  match defaultLocation env with
  | .ok dir => .ok (components (String.ofList (fromUtf8Lossy dir)))
  | .error e => .error ["resolve the mug enroll store: enroll store error: " ++ e]

/-- A store that cannot be looked at has no template. -/
def templatePresent : Io F Bool :=
  match enrollStore env, currentUsername env with
  | .ok dir, .ok username => do
    match ← settle (ExceptT.adapt Stop.failed ((storePart F).liftT
        (Mug.EnrollStore.isEnrolled (F := F) dir (String.ofList username)))) with
    | .ok there => pure there
    | .error _ => pure false
  | _, _ => pure false

def faceEnrolled : Io F Bool := do
  let there ← host (liftM faceFilesExist)
  if there then templatePresent env else pure false

def loadEnrollment : Io F (Option (Mug.FaceEnrollment F)) := do
  let dir ← ofResult ((enrollStore env).mapError .failed)
  let username ← ofResult ((currentUsername env).mapError .failed)
  ExceptT.adapt (fun e => .failed ["load the face enrollment for " ++ String.ofList username ++
      ": " ++ Login.display fmt e])
    ((storePart F).liftT (Mug.EnrollStore.load J dir (String.ofList username)))

/-- The release of the key, once a face was verified. -/
def releaseWithFace (proc : Process) : Io F FaceRelease := do
  match ← settle (host openTpm) with
  | .error e => pure (.fallback ("open the TPM: " ++ Error.render e))
  | .ok () => do
    match ← settle (host (unlockWithFace E proc)) with
    | .ok () => pure .unlocked
    | .error e => pure (.fallback ("face unseal/unlock: " ++ Error.render e))

def faceFrontUnlock (proc : Process) : Io F FaceRelease := do
  let enrolled ← faceEnrolled env
  if enrolled then do
    match ← settle (loadEnrollment J fmt env) with
    | .error e => pure (.fallback ("load face enrollment: " ++ Error.render e))
    | .ok none => pure (.fallback "no face enrollment on disk")
    | .ok (some enrollment) => do
      match ← settle ((facePart F).liftT
          (Login.verifyFromEnv fmt env fromStr faceModel K enrollment rounds)) with
      | .error e => pure (.fallback ("face verify: " ++ Error.render e))
      | .ok () => releaseWithFace E openTpm proc
  else pure (.fallback "face not enrolled")

/-- The release by face, if it is enabled; whether the keyring is open. -/
def faceLeg (enabled : Bool) (proc : Process) : Io F Bool :=
  if enabled then do
    match ← faceFrontUnlock E J fmt env fromStr faceModel K openTpm rounds proc with
    | .unlocked => do
      eprintln FaceRelease.unlocked.report
      pure true
    | .fallback reason => do
      eprintln (FaceRelease.fallback reason).report
      pure false
  else pure false

/-! ## The whole -/

/-- The PIN is what the key is unsealed with. -/
def pinLeg (fingerprint : Bool) (proc : Process) : Io F Unit := do
  let pin ← readPinFromStdin
  fingerprintLeg fingerprint env rounds
  host (unsealAndUnlock E proc openTpm pin)

/-- `run_pam_helper`, in the process `pid`. -/
def runPamHelper (fingerprint face : Bool) (pid : ℕ) : Io F Unit := do
  let dir ← ofResult ((forUser env).mapError fun e =>
    .failed ("resolve the tess data directory" :: e))
  ask .connectKeyring fun x => x.mapError fun e =>
    .failed ["connect to the Secret Service", "keyring error: " ++ e]
  let proc : Process := ⟨⟨String.ofList (fromUtf8Lossy dir), ""⟩, pid⟩
  let unlocked ← faceLeg E J fmt env fromStr faceModel K openTpm rounds face proc
  if unlocked then pure ()
  else pinLeg E env openTpm rounds fingerprint proc

end Face

end Session

end Tess

import Tess.Effects.Transactions
import Tess.Enroll.Recovery
import Tess.Mug.Store
import Tess.Tpm.Persist

/-!
# The enrollment transaction

`enroll` refuses to touch an existing enrollment, proves the old credential, and runs `commit`,
which writes the recovery blob, the sealed metadata and the optional face credential, binds the
TPM's lockout hierarchy and finally rekeys the keyring. Each completed step is recorded in `Tx`,
also when a later one fails, and `Tx.rollback` undoes what was recorded, the credential first.
This module follows `enroll/mod.rs`.
-/

namespace Tess

open Files Effects Recovery

/-- The optional face leg: the user, and what the camera captures. -/
structure FaceEnroll where
  username : String
  template : FaceEnrollment

/-- The arguments of an enrollment, with what it will draw at random. -/
structure EnrollArgs where
  old : SecretBytes
  pin : SecretBytes
  face : Option FaceEnroll
  draws : Draws

/-- The steps performed so far, for a rollback to undo. -/
structure Tx where
  recoveryWritten : Bool := false
  metadataWritten : Bool := false
  faceMetadataWritten : Bool := false
  faceKeyWritten : Bool := false
  faceStoreEnrolled : Bool := false
  /-- The derived authValue, once the lockout hierarchy carries it. -/
  lockoutAuth : Option SecretBytes := none
  /-- The new credential, once the keyring has it. -/
  newKey : Option SecretBytes := none
  deriving DecidableEq

/-- How a rollback ended. -/
inductive Rollback where
  | restored
  | cleanupFailed (e : Error)
  | restoreFailed (e : Error)

/-- Programs that also record their progress. -/
abbrev TxIo := ExceptT Error (StateT Tx (Prog Op.Res))

variable (E : Primitives) (proc : Process)

/-! ## Sealing and saving -/

/-- The messages of the steps of `sealAndSave`. -/
structure SealTexts where
  sealing : String
  verifying : String
  mismatch : String
  encoding : String
  persisting : String

/-- Seal a key under an authValue, prove that it unseals, and save the sealed object. -/
def sealAndSave (texts : SealTexts) (entropy : Bytes) (auth key : SecretBytes) (a : Artifact) :
    Io Unit := do
  let sealed ← context texts.sealing (sealKey entropy auth key)
  let unsealed ← context texts.verifying (unsealKey sealed auth)
  ensure (unsealed = key) [texts.mismatch]
  let metadata ← context texts.encoding (ofExcept (Persist.toMetadata E sealed))
  context texts.persisting (Persist.save E proc metadata a)

/-! ## Removing files -/

/-- Remove a file, treating one that is already absent as removed. -/
def removeFile (a : Artifact) : FileIo Unit := ExceptT.mk do
  match ← (fsRemoveFile (.main a)).run with
  | .ok () => pure (.ok ())
  | .error .notFound => pure (.ok ())
  | .error e => pure (.error e)

/-- Chain a later cleanup error onto the first. -/
def foldCleanup (cleanup : Except Error Unit) (err : Error) : Except Error Unit :=
  match cleanup with
  | .ok () => .error err
  | .error prev => .error (err.outer :: prev)

/-- A cleanup step, made only when the transaction recorded its file. -/
def cleanupStep (written : Bool) (x : Io Unit) (cleanup : Except Error Unit) :
    Prog Op.Res (Except Error Unit) :=
  if written then do
    match ← x.run with
    | .ok () => pure cleanup
    | .error e => pure (foldCleanup cleanup e)
  else pure cleanup

namespace Tx

/-- Put the original credential back, if it was changed. -/
def restoreCredential (tx : Tx) (old : SecretBytes) : Io Unit :=
  match tx.newKey with
  | some newKey =>
    context "could not restore the original keyring credential after a failed enrollment"
      (keyringRekey newKey old false)
  | none => pure ()

/-- Put the lockout authValue back to empty, if it was bound, and then remove the marker. A failure
is only a warning. -/
def restoreLockoutAuth (tx : Tx) : Prog Op.Res Unit :=
  match tx.lockoutAuth with
  | none => pure ()
  | some derived => do
    match ← (setLockoutAuth derived []).run with
    | .error e =>
      warn ("could not restore the TPM lockout authValue to empty during rollback (" ++
        e.render ++ "); it remains bound to the recovery secret")
    | .ok () => do
      match ← (removeFile .lockoutOwned).run with
      | .error e =>
        warn ("could not remove the lockout-ownership marker during rollback (" ++
          e.display ++ ")")
      | .ok () => pure ()

/-- Remove the template of the user from the store. -/
def removeTemplate (username : String) : Io Unit := do
  let _ ← ExceptT.adapt
    (fun e => ["remove face enrollment for " ++ username ++ " during rollback: " ++ e.outer])
    (EnrollStore.remove E proc username)
  pure ()

/-- Remove a file that the transaction wrote, with a name for it in the error. -/
def removeWritten (what : String) (a : Artifact) : Io Unit :=
  ioContext ("remove " ++ what ++ " " ++ proc.display (.main a) ++ " during rollback")
    (removeFile a)

/-- Remove the template, if the transaction enrolled it. -/
def removeEnrolledTemplate (tx : Tx) (face : Option String) : Prog Op.Res (Except Error Unit) :=
  match face with
  | some username => cleanupStep tx.faceStoreEnrolled (removeTemplate E proc username) (.ok ())
  | none => pure (.ok ())

/-- Remove the recorded files, in the reverse order, going on after a failure. -/
def removeArtifacts (tx : Tx) (face : Option String) : Prog Op.Res (Except Error Unit) := do
  let cleanup ← tx.removeEnrolledTemplate E proc face
  let cleanup ← cleanupStep tx.faceKeyWritten (removeWritten proc "face-unlock key" .faceKey)
    cleanup
  let cleanup ← cleanupStep tx.faceMetadataWritten
    (removeWritten proc "face sealed metadata" .metadataFace) cleanup
  let cleanup ← cleanupStep tx.metadataWritten (removeWritten proc "sealed metadata" .metadata)
    cleanup
  cleanupStep tx.recoveryWritten (removeWritten proc "recovery blob" .recovery) cleanup

/-- Undo what was recorded. The files are removed only once the credential is back. -/
def rollback (tx : Tx) (old : SecretBytes) (face : Option String) : Prog Op.Res Rollback := do
  match ← (tx.restoreCredential old).run with
  | .error e => pure (.restoreFailed e)
  | .ok () => do
    tx.restoreLockoutAuth
    match ← tx.removeArtifacts E proc face with
    | .ok () => pure .restored
    | .error e => pure (.cleanupFailed e)

end Tx

/-! ## The steps of the transaction -/

section Steps

variable (args : EnrollArgs) (key recoverySecret : SecretBytes)

/-- Step 3: the recovery backup, proved to unwrap before it is saved. -/
def backUp : Io Unit := do
  let blob ← context "wrap the keyring key for recovery" (wrapKey E args.draws key recoverySecret)
  let roundTrip ← context "verify the recovery blob decrypts"
    (ofExcept (unwrapKey E blob recoverySecret))
  ensure (roundTrip = key) ["recovery blob did not round-trip the keyring key"]
  context "persist the recovery blob" (saveBlob E proc blob)

/-- The messages of step 4. -/
def pinTexts : SealTexts where
  sealing := "seal the keyring key under the PIN"
  verifying := "verify the sealed key unseals with the PIN before rekeying"
  mismatch := "sealed key did not unseal to the generated key"
  encoding := "encode the sealed metadata"
  persisting := "persist the sealed metadata"

/-- The messages of the face leg. -/
def faceTexts : SealTexts where
  sealing := "seal the keyring key under the face authValue"
  verifying := "verify the face-sealed key unseals before persisting"
  mismatch := "face-sealed key did not unseal to the keyring key"
  encoding := "encode the face-sealed metadata"
  persisting := "persist the face-sealed metadata"

/-- The face-unlock steps. The template is captured before any of them writes a file. -/
def commitFace (face : FaceEnroll) : TxIo Unit := do
  let template ← liftM (context "capture the face enrollment template"
    (ExceptT.mk (call (Op.captureTemplate face.template)) : Io FaceEnrollment))
  let aFace ← liftM (context "generate the independent face authValue"
    (generateKey args.draws.aFace))
  recorded (sealAndSave E proc faceTexts args.draws.faceEntropy aFace key .metadataFace)
    fun tx => { tx with faceMetadataWritten := true }
  recorded (context "store the face-unlock authValue" (writeSecretFile proc .faceKey aFace))
    fun tx => { tx with faceKeyWritten := true }
  recorded (ExceptT.adapt
      (fun e => ["save the face enrollment for " ++ face.username ++ ": " ++ e.outer])
      (EnrollStore.save E proc face.username template))
    fun tx => { tx with faceStoreEnrolled := true }

/-- Step 4.5, when a face is enrolled. -/
def commitFaceLeg : TxIo Unit :=
  match args.face with
  | some face =>
    ExceptT.adapt ("enroll the face-unlock credential" :: ·) (commitFace E proc args key face)
  | none => pure ()

/-- Step 4.6: bind the lockout hierarchy to the recovery secret, unless it has an owner. -/
def bindLockout : TxIo Unit := do
  let taken ← liftM (context "read the TPM lockout-auth state before binding it" lockoutAuthIsSet)
  if taken then
    liftM (liftM (warn ("the TPM lockout hierarchy already has an authValue tess did not set; " ++
      "not binding it. Privileged dictionary-attack reset via the recovery secret is " ++
      "unavailable on this machine.")) : Io Unit)
  else do
    let lockoutAuth ← liftM (context "derive the lockout authValue from the recovery secret"
      (ofExcept (deriveLockoutAuth E recoverySecret)))
    recorded (context "bind the TPM lockout hierarchy to the recovery secret"
        (setLockoutAuth [] lockoutAuth))
      fun tx => { tx with lockoutAuth := some lockoutAuth }
    liftM (context "write the lockout-ownership marker" (writeDurableMarker proc))

/-- Step 6: the keyring opens with the new key, and a known item still decrypts. -/
def verifyRekeyed : Io Unit := do
  context "verify the keyring unlocks with the new TPM-sealed key" (keyringUnlock key)
  let locked ← context "re-read keyring lock state after unlocking" keyringIsLocked
  ensure (locked = false) ["keyring is still locked after unlocking with the new key"]
  context "verify a pre-existing keyring item still decrypts after the rekey"
    (ExceptT.mk (call Op.verifyItem))

def commit : TxIo Unit := do
  recorded (backUp E proc args key recoverySecret) fun tx => { tx with recoveryWritten := true }
  recorded (sealAndSave E proc pinTexts args.draws.pinEntropy args.pin key .metadata)
    fun tx => { tx with metadataWritten := true }
  commitFaceLeg E proc args key
  bindLockout E proc recoverySecret
  recorded (context "rekey the login keyring to the TPM-sealed key"
      (keyringRekey args.old key true))
    fun tx => { tx with newKey := some key }
  liftM (verifyRekeyed key)

end Steps

/-! ## Enrollment -/

/-- The files that make an enrollment exist. -/
def enrollmentFiles : List Artifact := [.metadata, .recovery, .metadataFace, .faceKey]

/-- Whether one of the files exists, tested in turn until one does. -/
def anyExists : List Artifact → Prog Op.Res Bool
  | [] => pure false
  | a :: as => do
    if ← pathExists (.main a) then pure true else anyExists as

def alreadyEnrolledText : String :=
  "already " ++ "enrolled: one of " ++ ", ".intercalate
    (enrollmentFiles.map fun a => proc.display (.main a)) ++
  " already exists. Run `tess unenroll`, or remove the stale blob(s) to re-enroll from scratch."

def failedPrefix : String := "enrollment failed and "

def restoredText : String := failedPrefix ++ ("was " ++ "rolled back to the original keyring")

def cleanupFailedText (e : Error) : String :=
  restoredText ++ (", but " ++ "removing the orphaned enrollment blobs failed (" ++ e.render ++
    "); delete them manually")

def restoreFailedText (e : Error) : String :=
  failedPrefix ++ ("the " ++ "original keyring credential could not be restored (" ++ e.render ++
    "); the recovery secret was printed to stderr — run `tess recover`")

def criticalPrefix : String :=
  "CRITICAL: " ++ "enrollment failed and the original keyring credential could not be restored. " ++
    "Save this recovery secret and run `tess recover`:\n\n    "

/-- The message that discloses the recovery secret when the keyring is stranded. -/
def criticalText (display : String) : String := criticalPrefix ++ display ++ "\n"

variable (args : EnrollArgs)

/-- What an enrollment does after `commit` has failed. -/
def afterFailure (display : String) (tx : Tx) (err : Error) : Io String := do
  match ← liftM (tx.rollback E proc args.old (args.face.map FaceEnroll.username)) with
  | .restored => throw (restoredText :: err)
  | .cleanupFailed e => throw (cleanupFailedText e :: err)
  | .restoreFailed e => do
    liftM (eprintln (criticalText display))
    throw (restoreFailedText e :: err)

/-- Enroll, and return the recovery secret for the user to save. -/
def enroll : Io String := do
  ensure (args.pin ≠ []) ["PIN must not be empty"]
  let taken ← liftM (anyExists enrollmentFiles)
  ensure (taken = false) [alreadyEnrolledText proc]
  context "verify the current keyring credential before enrolling" (keyringUnlock args.old)
  let key ← context "generate the random keyring key" (generateKey args.draws.key)
  let recoverySecret ← context "generate the recovery secret"
    (generateRecoverySecret args.draws)
  let (result, tx) ← liftM ((commit E proc args key recoverySecret).run.run {})
  match result with
  | .ok () => pure (encode recoverySecret)
  | .error err => afterFailure E proc args (encode recoverySecret) tx err

end Tess

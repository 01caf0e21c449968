import Tess.Enroll.Transaction

/-!
# Life after enrollment

Unlocking with the PIN, the face or the recovery secret, resetting a hard lockout, sealing again
after a TPM clear, and going back to a password. This module follows `lifecycle/mod.rs`,
`lifecycle/cli.rs` for the order of `tess recover`, and `unseal_with_face` of `face.rs`.
-/

namespace Tess

open Files Effects Recovery

variable (E : Primitives) (proc : Process)

/-! ## Getting at the key -/

def ensureEnrolled : Io Unit := do
  let there ← liftM (pathExists (.main .metadata))
  ensure (there = true) ["not enrolled: " ++ proc.display (.main .metadata) ++
    " does not exist (run `tess enroll` first)"]

def ensureRecoverable : Io Unit := do
  let there ← liftM (pathExists (.main .recovery))
  ensure (there = true) ["no recovery blob at " ++ proc.display (.main .recovery) ++
    " (nothing to recover)"]

/-- Reload a sealed object and unseal it. -/
def unsealFrom (a : Artifact) (loading rebuilding unsealing : String) (auth : SecretBytes) :
    Io SecretBytes := do
  let metadata ← context (loading ++ " " ++ proc.display (.main a)) (Persist.load E proc a)
  let sealed ← context rebuilding (ofExcept (Persist.fromMetadata E metadata))
  context unsealing (unsealKey sealed auth)

def unsealWithPin (pin : SecretBytes) : Io SecretBytes := do
  ensureEnrolled proc
  unsealFrom E proc .metadata "load sealed metadata" "reconstruct the sealed object from metadata"
    "unseal the keyring key with the PIN" pin

def unsealWithFace : Io SecretBytes := do
  let aFace ← context ("read the face authValue " ++ proc.display (.main .faceKey))
    (readSecretFile proc .faceKey)
  unsealFrom E proc .metadataFace "load the face metadata"
    "reconstruct the face-sealed object from metadata"
    "unseal the keyring key with the face authValue" aFace

def recoveredKey (recoverySecret : SecretBytes) : Io SecretBytes := do
  ensureRecoverable proc
  let blob ← context "load the recovery blob" (loadBlob E proc)
  context "unwrap the keyring key with the recovery secret"
    (ofExcept (unwrapKey E blob recoverySecret))

/-! ## Unlocking -/

def unlockAndVerify (secret : SecretBytes) (what : String) : Io Unit := do
  context ("unlock the login keyring with the " ++ what) (keyringUnlock secret)
  let locked ← context "re-read keyring lock state after unlocking" keyringIsLocked
  ensure (locked = false) ["keyring still locked after unlocking with the " ++ what]

def unlock (pin : SecretBytes) : Io Unit := do
  let key ← unsealWithPin E proc pin
  unlockAndVerify key "unsealed key"

/-- Whether both files of the face credential are there; the second is tested after the first. -/
def faceFilesExist : Prog Op.Res Bool := do
  if ← pathExists (.main .metadataFace) then pathExists (.main .faceKey) else pure false

def unlockWithFace : Io Unit := do
  let there ← liftM faceFilesExist
  ensure (there = true) ["face-unlock is not enrolled (" ++ proc.display (.main .metadataFace) ++
    " or " ++ proc.display (.main .faceKey) ++ " is missing)"]
  let key ← unsealWithFace E proc
  unlockAndVerify key "face-unsealed key"

def recover (recoverySecret : SecretBytes) : Io Unit := do
  let key ← recoveredKey E proc recoverySecret
  unlockAndVerify key "recovered key"

/-! ## Hard lockout and sealing again -/

/-- Reset a hard lockout with the authValue derived from the recovery secret, and say whether one
was reset. -/
def resetHardLockout (recoverySecret : SecretBytes) : Io Bool := do
  let lockout ← (ExceptT.mk do
    let r ← call Op.readCaps
    pure (r.mapError fun e => ["read TPM lockout state before reset: " ++ e]) : Io LockoutState)
  if lockout.isLockedOut then do
    let lockoutAuth ← context "derive the lockout authValue from the recovery secret"
      (ofExcept (deriveLockoutAuth E recoverySecret))
    context "run the privileged TPM dictionary-attack lockout reset"
      (ExceptT.mk (call (Op.resetLockout lockoutAuth)) : Io Unit)
    pure true
  else pure false

/-- The messages of a reseal. -/
def resealTexts : SealTexts where
  sealing := "seal the recovered key under the new PIN"
  verifying := "verify the re-sealed key unseals with the new PIN before persisting"
  mismatch := "re-sealed key did not unseal to the recovered key"
  encoding := "encode the re-sealed metadata"
  persisting := "persist the re-sealed metadata"

/-- Seal the recovered key under a new PIN and rewrite the sealed metadata. -/
def reseal (recoverySecret newPin : SecretBytes) (entropy : Bytes) : Io Unit := do
  ensure (newPin ≠ []) ["PIN must not be empty"]
  let key ← recoveredKey E proc recoverySecret
  sealAndSave E proc resealTexts entropy newPin key .metadata

/-- Run the hard-lockout reset. A failure is only a warning. -/
def tryReset (recoverySecret : SecretBytes) : Prog Op.Res Unit := do
  match ← (resetHardLockout E recoverySecret).run with
  | .ok _ => pure ()
  | .error e =>
    warn ("could not check or reset the TPM lockout (" ++ e.render ++ "); continuing with recovery")

/-- `tess recover`: try the hard-lockout reset, recover, and reseal when asked to. -/
def runRecover (recoverySecret : SecretBytes) (resealing : Option (SecretBytes × Bytes)) :
    Io Unit := do
  ensureRecoverable proc
  liftM (tryReset E recoverySecret)
  recover E proc recoverySecret
  match resealing with
  | some (newPin, entropy) => reseal E proc recoverySecret newPin entropy
  | none => pure ()

/-! ## Back to a password -/

/-- Put the lockout authValue back to empty, when the marker says that tess set it. -/
def releaseLockoutAuth (recoverySecret : SecretBytes) : Io Unit := do
  let owned ← liftM (pathExists (.main .lockoutOwned))
  if owned then do
    let lockoutAuth ← context "derive the lockout authValue from the recovery secret"
      (ofExcept (deriveLockoutAuth E recoverySecret))
    context "reset the TPM lockout-hierarchy authValue to empty" (setLockoutAuth lockoutAuth [])
    ioContext ("remove " ++ proc.display (.main .lockoutOwned)) (removeFile .lockoutOwned)
  else pure ()

/-- Remove one file of the enrollment. -/
def removeBlob (a : Artifact) : Io Unit :=
  ioContext ("remove " ++ proc.display (.main a)) (removeFile a)

/-- Remove the files of the enrollment in this order, stopping at the first failure. The marker of
the lockout hierarchy is not one of them. -/
def removeBlobs (face : Option String) : Io Unit := do
  removeBlob proc .metadata
  removeBlob proc .recovery
  removeBlob proc .metadataFace
  removeBlob proc .faceKey
  match face with
  | some username => do
    let _ ← ExceptT.adapt
      (fun e => ["remove the face enrollment for " ++ username ++ ": " ++ e.outer])
      (EnrollStore.remove E proc username)
    pure ()
  | none => pure ()

/-- The arguments of an unenroll. -/
structure UnenrollArgs where
  pin : SecretBytes
  newPassword : SecretBytes
  recoverySecret : Option SecretBytes
  face : Option String

/-- Confirm that the restored password opens the keyring; if it does not, rekey back and fail. -/
def confirmPassword (key newPassword : SecretBytes) : Io Unit := do
  match ← liftM (unlockAndVerify newPassword "restored password").run with
  | .ok () => pure ()
  | .error err => do
    context "restore the keyring to the TPM-sealed key after a failed unenroll verification"
      (keyringRekey newPassword key true)
    throw ("unenroll failed after rekey and was rolled back to the TPM-sealed keyring" :: err)

/-- Release the lockout hierarchy if there is a secret to do it with. A failure is only a warning. -/
def tryRelease (recoverySecret : Option SecretBytes) : Prog Op.Res Unit :=
  match recoverySecret with
  | none => pure ()
  | some recoverySecret => do
    match ← (releaseLockoutAuth E proc recoverySecret).run with
    | .ok () => pure ()
    | .error e =>
      warn ("could not reset the TPM lockout-hierarchy authValue to empty (" ++
        e.render ++ "); it remains bound to the recovery secret")

/-- Rekey back to a password, and remove what the enrollment left on disk. -/
def unenroll (args : UnenrollArgs) : Io Unit := do
  ensure (args.newPassword ≠ []) ["the new keyring password must not be empty"]
  let key ← unsealWithPin E proc args.pin
  unlockAndVerify key "TPM-sealed key before unenrolling"
  context "rekey the login keyring back to the password" (keyringRekey key args.newPassword false)
  confirmPassword key args.newPassword
  liftM (tryRelease E proc args.recoverySecret)
  context "remove the sealed metadata and recovery blob after a successful unenroll"
    (removeBlobs E proc args.face)

end Tess

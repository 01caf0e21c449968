import Tess.Effects.Program
import Tess.Enroll.Primitives

/-!
# The host: keyring, TPM, disk and terminal

The world a tess process acts on, the operations it makes, and what each does under a fault.

* The keyring opens for its credential only. A rekey with a wrong old credential changes nothing;
  under `late` it takes effect and the reply is lost.
* The TPM seals under a seed that a clear replaces, counts wrong PINs, and holds the authValue of
  its lockout hierarchy. Every authorization against that hierarchy is recorded in `attempts`, as
  the value presented and the value held.
* Of the files, those under their final names (`Artifact`) are what later runs read; a temporary
  sibling carries the process id and a number that is drawn once.

`events` records what the environment did that the program is not told: what a rename replaced,
that a directory was not synced, that a call reported as failed had taken effect.
-/

namespace Tess

open Files Effects

/-! ## Names -/

/-- The files of an enrollment. -/
inductive Artifact where
  | metadata
  | recovery
  | lockoutOwned
  | metadataFace
  | faceKey
  | template (username : String)
  deriving DecidableEq

inductive Path where
  | main (a : Artifact)
  | temp (a : Artifact) (pid tag : ℕ)
  | dataDir
  | storeDir
  deriving DecidableEq

/-- Where the data directory and the template store are. -/
structure Paths where
  dataDir : String
  storeDir : String

namespace Path

def parent : Path → Path
  | main (.template _) | temp (.template _) _ _ => storeDir
  | _ => dataDir

def fileName : Artifact → String
  | .metadata => "metadata.json"
  | .recovery => "recovery.json"
  | .lockoutOwned => "lockout-owned"
  | .metadataFace => "metadata-face.json"
  | .faceKey => "face-unlock.key"
  | .template username => username ++ ".json"

def display (paths : Paths) : Path → String
  | dataDir => paths.dataDir
  | storeDir => paths.storeDir
  | main (.template u) => paths.storeDir ++ "/" ++ fileName (.template u)
  | main a => paths.dataDir ++ "/" ++ fileName a
  | temp (.template u) pid tag =>
    paths.storeDir ++ "/" ++ fileName (.template u) ++ ".tmp." ++ toString pid ++ "." ++ toString tag
  | temp a pid tag =>
    paths.dataDir ++ "/" ++ fileName a ++ ".tmp." ++ toString pid ++ "." ++ toString tag

end Path

/-- A tess process: where its files are, and its process id. -/
structure Process where
  paths : Paths
  pid : ℕ

namespace Process

def display (proc : Process) (p : Path) : String := p.display proc.paths

end Process

/-! ## The parts of the host -/

structure Keyring where
  credential : SecretBytes
  /-- Whether the credential is a key that an enrollment generated. -/
  generated : Bool
  locked : Bool
  deriving DecidableEq

structure LockoutState where
  counter : ℕ
  maxAuthFail : ℕ
  interval : ℕ
  deriving DecidableEq

def LockoutState.isLockedOut (s : LockoutState) : Bool :=
  s.maxAuthFail ≠ 0 ∧ s.maxAuthFail ≤ s.counter

structure Tpm where
  seed : ℕ
  lockoutAuth : Bytes
  lockout : LockoutState
  deriving DecidableEq

/-- What the environment did behind the program's back. -/
inductive Event where
  /-- A rename put `now` under the final name of `a`, where `was` had been. -/
  | placed (a : Artifact) (was now : Option (Node Path))
  /-- The directory of `a` was not synced. -/
  | unsynced (a : Artifact)
  /-- A rekey took effect and was reported as failed. -/
  | rekeyLate (old new : SecretBytes)
  /-- A change of the lockout authValue took effect and was reported as failed. -/
  | authLate (current new : SecretBytes)
  /-- A change of the lockout authValue was refused. -/
  | authRefused (current new : SecretBytes)
  deriving DecidableEq

structure Host where
  keyring : Keyring
  tpm : Tpm
  disk : Disk Path
  /-- What was written to standard error, the latest first. -/
  printed : List String
  /-- The authorizations against the lockout hierarchy: presented and held, the latest first. -/
  attempts : List (SecretBytes × SecretBytes)
  events : List Event

/-! ## The TPM -/

def maxPinLen : ℕ := 32

def maxLockoutAuthLen : ℕ := 32

/-- The checks made on a PIN before it becomes an authValue. -/
def pinToAuth (pin : SecretBytes) : Except String Bytes :=
  if pin = [] then .error "PIN must not be empty"
  else if pin.length > maxPinLen then
    .error ("PIN is " ++ toString pin.length ++ " bytes, exceeds the " ++ toString maxPinLen ++
      "-byte authValue limit")
  else .ok pin

namespace Tpm

variable (E : Primitives)

def sealKey (t : Tpm) (entropy : Bytes) (pin key : SecretBytes) : Except Error SealedObject :=
  match pinToAuth pin with
  | .error e => .error ["seal key under PIN", e]
  | .ok auth =>
    let created := E.create t.seed entropy auth key
    .ok { pub := created.1, priv := created.2, primaryName := E.primaryName t.seed }

/-- Unsealing: the Name of the primary is checked first, and a wrong PIN counts towards lockout. -/
def unsealKey (t : Tpm) (sealed : SealedObject) (pin : SecretBytes) :
    Except Error SecretBytes × Tpm :=
  match pinToAuth pin with
  | .error e => (.error ["unseal key with PIN", e], t)
  | .ok auth =>
    if sealed.primaryName = [] ∨ E.primaryName t.seed ≠ sealed.primaryName then
      (.error ["unseal key with PIN", "storage primary Name does not match the value pinned at " ++
        "enrollment (a different TPM, or a bus interposer substituting the session salt key): the " ++
        "key is intentionally NOT unsealed — fall back to the password, and re-enroll only if " ++
        "this machine's TPM was legitimately changed"], t)
    else if t.lockout.isLockedOut then
      (.error ["unseal key with PIN", "TPM is in dictionary-attack lockout"], t)
    else
      match E.unsealData t.seed sealed.pub sealed.priv auth with
      | some key => (.ok key, t)
      | none =>
        (.error ["unseal key with PIN", "wrong PIN"],
          { t with lockout := { t.lockout with counter := t.lockout.counter + 1 } })

end Tpm

/-! ## Operations -/

/-- The operations of a tess process. Random bytes are named by the operation that draws them, and
`entropy` is what the TPM draws. A rekey says, for the record, whether the new credential is a key
that an enrollment generated. -/
inductive Op where
  | file (o : FileOp Path)
  | getrandom (bytes : Bytes)
  | generateKey (key : SecretBytes)
  | tpmSeal (entropy : Bytes) (pin key : SecretBytes)
  | tpmUnseal (sealed : SealedObject) (pin : SecretBytes)
  | lockoutAuthIsSet
  | setLockoutAuth (current new : SecretBytes)
  | readCaps
  | resetLockout (auth : SecretBytes)
  | unlock (secret : SecretBytes)
  | isLocked
  | rekey (old new : SecretBytes) (generated : Bool)
  | captureTemplate (template : FaceEnrollment)
  | verifyItem
  | eprintln (text : String)

@[reducible] def Op.Res : Op → Type
  | .file o => o.Res
  | .getrandom _ => Except String Bytes
  | .generateKey _ => Except Error SecretBytes
  | .tpmSeal .. => Except Error SealedObject
  | .tpmUnseal .. => Except Error SecretBytes
  | .lockoutAuthIsSet => Except Error Bool
  | .setLockoutAuth .. => Except Error Unit
  | .readCaps => Except String LockoutState
  | .resetLockout _ => Except Error Unit
  | .unlock _ | .rekey .. => Except Error Unit
  | .isLocked => Except Error Bool
  | .captureTemplate _ => Except Error FaceEnrollment
  | .verifyItem => Except Error Unit
  | .eprintln _ => Unit

/-- The events of a file operation: a rename onto a final name, a directory not synced. -/
def fileEvents (d : Disk Path) : FileOp Path → Fault → List Event
  | .rename p (.main a), .ok =>
    match d.node p, d.node (.main a) with
    | none, _ | _, some (.dir _) => []
    | some n, was => [.placed a was (some n)]
  | .syncParentDir (.main a), f => if f = .ok then [] else [.unsynced a]
  | _, _ => []

namespace Host

def setDisk (h : Host) (d : Disk Path) (es : List Event) : Host :=
  { h with disk := d, events := es ++ h.events }

def setTpm (h : Host) (t : Tpm) : Host := { h with tpm := t }

def setLockoutAuth (h : Host) (auth : SecretBytes) : Host :=
  { h with tpm := { h.tpm with lockoutAuth := auth } }

def setCredential (h : Host) (credential : SecretBytes) (generated : Bool) : Host :=
  { h with keyring := { h.keyring with credential := credential, generated := generated } }

def setLocked (h : Host) (locked : Bool) : Host :=
  { h with keyring := { h.keyring with locked := locked } }

def record (h : Host) (e : Event) : Host := { h with events := e :: h.events }

/-- An authorization against the lockout hierarchy with `presented`. -/
def attempt (h : Host) (presented : SecretBytes) : Host :=
  { h with attempts := (presented, h.tpm.lockoutAuth) :: h.attempts }

end Host

/-- The error of a keyring call that the daemon refuses or does not answer. -/
def keyringError (what : String) : Error := ["keyring error: " ++ what]

/-- What an operation returns and what it does to the host, under a fault. -/
def exec (E : Primitives) : (o : Op) → Fault → Host → o.Res × Host
  | .file o, f, h =>
    ((o.exec f h.disk).1, h.setDisk (o.exec f h.disk).2 (fileEvents h.disk o f))
  | .getrandom bytes, .ok, h => (.ok bytes, h)
  | .getrandom _, _, h => (.error "getrandom failed", h)
  | .generateKey key, .ok, h => (.ok key, h)
  | .generateKey _, _, h =>
    (.error ["generate sealing key", "failed to generate the sealing key: TPM error"], h)
  | .tpmSeal entropy pin key, .ok, h => (h.tpm.sealKey E entropy pin key, h)
  | .tpmSeal .., _, h => (.error ["seal key under PIN", "failed to seal the key: TPM error"], h)
  | .tpmUnseal sealed pin, .ok, h =>
    ((h.tpm.unsealKey E sealed pin).1, h.setTpm (h.tpm.unsealKey E sealed pin).2)
  | .tpmUnseal .., _, h => (.error ["unseal key with PIN", "failed to unseal the key: TPM error"], h)
  | .lockoutAuthIsSet, .ok, h => (.ok (h.tpm.lockoutAuth ≠ []), h)
  | .lockoutAuthIsSet, _, h =>
    (.error ["read TPM lockout-auth state", "failed to read a TPM capability: TPM error"], h)
  | .setLockoutAuth current new, f, h =>
    let failed : Except Error Unit := .error ["set TPM lockout-hierarchy authValue",
      "failed to set the TPM lockout-hierarchy authValue: TPM error"]
    if current.length > maxLockoutAuthLen ∨ new.length > maxLockoutAuthLen then
      (.error ["set TPM lockout-hierarchy authValue",
        "failed to set the TPM lockout-hierarchy authValue: exceeds the 32-byte limit"], h)
    else if h.tpm.lockoutAuth ≠ current then
      (failed, h.attempt current)
    else
      match f with
      | .ok => (.ok (), (h.attempt current).setLockoutAuth new)
      | .late =>
        (failed, ((h.attempt current).setLockoutAuth new).record (.authLate current new))
      | _ => (failed, (h.attempt current).record (.authRefused current new))
  | .readCaps, .ok, h => (.ok h.tpm.lockout, h)
  | .readCaps, _, h => (.error "failed to read a TPM capability: TPM error", h)
  | .resetLockout auth, f, h =>
    if h.tpm.lockoutAuth = auth ∧ f = .ok then
      (.ok (), (h.attempt auth).setTpm
        { h.tpm with lockout := { h.tpm.lockout with counter := 0 } })
    else
      (.error ["failed to reset the TPM dictionary-attack lockout: tpm2_dictionarylockout failed"],
        h.attempt auth)
  | .unlock secret, f, h =>
    if secret = h.keyring.credential ∧ f = .ok then (.ok (), h.setLocked false)
    else (.error (keyringError "unlock collection: refused"), h)
  | .isLocked, .ok, h => (.ok h.keyring.locked, h)
  | .isLocked, .late, h => (.ok true, h.setLocked true)
  | .isLocked, _, h => (.error (keyringError "read Locked property: no reply"), h)
  | .rekey old new generated, f, h =>
    let failed : Except Error Unit :=
      .error (keyringError "rekey collection master password: refused")
    if old = h.keyring.credential then
      match f with
      | .ok => (.ok (), h.setCredential new generated)
      | .late => (failed, (h.setCredential new generated).record (.rekeyLate old new))
      | _ => (failed, h)
    else (failed, h)
  | .captureTemplate t, .ok, h => (.ok t, h)
  | .captureTemplate _, _, h => (.error ["camera error: capture failed"], h)
  | .verifyItem, .ok, h => (.ok (), h)
  | .verifyItem, _, h => (.error ["item did not decrypt"], h)
  | .eprintln text, _, h => ((), { h with printed := text :: h.printed })

/-- The host as a machine, with the faults that `may` lets happen. -/
def machine (E : Primitives) (may : Host → Op → Fault → Prop) : Machine Op.Res Host Fault where
  exec := exec E
  may := may

/-- Every fault at every operation. -/
def anyFault : Host → Op → Fault → Prop := fun _ _ _ => True

/-! ## What an operation leaves alone -/

/-- File operations do not concern the TPM. -/
def FileOnly : Op → Prop
  | .file _ => True
  | _ => False

/-- Operations that have nothing to do with the keyring. -/
def Keyringless : Op → Prop
  | .unlock _ | .isLocked | .rekey .. => False
  | _ => True

section Frame

variable {E : Primitives} {o : Op} {f : Fault} {h : Host}

theorem disk_exec (ho : ¬ FileOnly o) : (exec E o f h).2.disk = h.disk := by
  cases o with
  | file => exact absurd trivial ho
  | setLockoutAuth current new =>
    simp only [exec]
    split
    · rfl
    · split
      · rfl
      · cases f <;> rfl
  | resetLockout auth =>
    simp only [exec]
    split <;> rfl
  | unlock secret =>
    simp only [exec]
    split <;> rfl
  | rekey old new generated =>
    simp only [exec]
    split
    · cases f <;> rfl
    · rfl
  | _ => cases f <;> rfl

theorem keyring_exec (ho : Keyringless o) : (exec E o f h).2.keyring = h.keyring := by
  cases o with
  | unlock | isLocked | rekey => exact ho.elim
  | setLockoutAuth current new =>
    simp only [exec]
    split
    · rfl
    · split
      · rfl
      · cases f <;> rfl
  | resetLockout auth =>
    simp only [exec]
    split <;> rfl
  | file | eprintln => rfl
  | _ => cases f <;> rfl

theorem fileOnly_keyringless : FileOnly o → Keyringless o := by
  cases o with
  | file => exact fun _ => trivial
  | _ => exact fun h => h.elim

end Frame

end Tess

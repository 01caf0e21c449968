import Tess.Tpm.Esapi

/-!
# Sealing, unsealing and the lockout authValue

The functions of `seal.rs`, and those of `esapi.rs` and `lockout.rs` that open sessions: each is a
program over the calls of the ESAPI. A closure that the source calls on the spot is a program whose
result is looked at before the flush (`thenFlush`).
-/

namespace Tess

open Files Effects

namespace Esapi

/-- The conversions and builders of `tss-esapi`, with what they promise for short values. -/
structure Conversions where
  auth : Bytes → Except EsapiError Bytes
  auth_ok {b : Bytes} (h : b.length ≤ 32) : auth b = .ok b
  sensitiveData : Bytes → Except EsapiError Bytes
  sensitiveData_ok {b : Bytes} (h : b.length ≤ 32) : sensitiveData b = .ok b
  objectAttributes : ObjectAttributes → Except EsapiError ObjectAttributes
  objectAttributes_ok (a : ObjectAttributes) : objectAttributes a = .ok a
  build : Template → Except EsapiError Template
  build_ok (digest : Digest) : build (.sealedData digest) = .ok (.sealedData digest)

abbrev EsapiIo := ExceptT EsapiError (Prog Call.Res)

abbrev Io := ExceptT Error (Prog Call.Res)

variable {α : Type}

def esapi (o : Call) : EsapiIo o.Val := ExceptT.mk (call o)

def mapErr (f : EsapiError → Error) (x : EsapiIo α) : Io α := ExceptT.adapt f x

def okOr (o : Option α) (e : Error) : Io α := ofResult (o.elim (.error e) .ok)

/-! ## Sessions -/

def flush (handle : ObjectHandle) : Io Unit :=
  mapErr (fun e => .flush e.display) (esapi (.flushContext handle))

/-- Make a call, flush a handle whatever came of it, and then look at the result: the error of the
call comes before that of the flush. -/
def thenFlush (x : EsapiIo α) (f : EsapiError → Error) (handle : ObjectHandle) : Io α := do
  let result ← attempt x
  let flushed ← attempt (flush handle)
  let a ← ofResult (result.mapError f)
  ofResult flushed
  pure a

def encryptedSessionAttributes : SessionAttributes × SessionAttributes :=
  (⟨true, true, true⟩, ⟨true, true, true⟩)

/-- Start a session, and then set its attributes. -/
def startEncryptedSession (type : SessionType) (f : String → Error) (primary : Handle) :
    Io AuthSession := do
  let session ← mapErr (fun e => f e.display) (esapi (.startAuthSession (some primary) type))
  let session ← okOr session .noSession
  let (attributes, mask) := encryptedSessionAttributes
  mapErr (fun e => f e.display) (esapi (.trSessSetAttributes session attributes mask))
  pure session

def startSaltedHmacSession : Handle → Io AuthSession := startEncryptedSession .hmac .session

def startPolicySession : Handle → Io AuthSession := startEncryptedSession .policy .policy

def primaryName (primary : Handle) : Io Bytes :=
  mapErr (fun e => .primaryName e.display) (esapi (.trGetName primary))

/-! ## Sealing -/

variable (X : Conversions)

def pinToAuth (pin : SecretBytes) : Except Error Bytes :=
  if pin = [] then .error .pinEmpty
  else if pin.length > maxPinLen then .error (.pinTooLong pin.length maxPinLen)
  else (X.auth pin).mapError fun e => .seal e.display

/-- The digest of the policy, by a trial session. -/
def policyAuthValueDigest : Io Digest := do
  let trial ← mapErr (fun e => .policy e.display) (esapi (.startAuthSession none .trial))
  let trial ← okOr trial .noSession
  thenFlush (do
      let session ← ofResult (PolicySession.tryFrom trial)
      esapi (.policyAuthValue session)
      esapi (.policyGetDigest session))
    (fun e => .policy e.display) (.session trial.handle)

def sealedObjectTemplate (policyDigest : Digest) : Except Error Template := do
  let objectAttributes ← (X.objectAttributes
    { fixedTpm := true, fixedParent := true, userWithAuth := true }).mapError
      fun e => .template e.display
  (X.build { publicAlgorithm := .keyedHash, nameHashingAlgorithm := .sha256,
             objectAttributes := objectAttributes, authPolicy := policyDigest }).mapError
    fun e => .template e.display

/-- `seal`. The TPM draws `entropy` to create the object. -/
def sealSecret (primary : Handle) (pin secret : SecretBytes) (entropy : Bytes) :
    Io SealedObject := do
  let auth ← ofResult (pinToAuth X pin)
  let policyDigest ← policyAuthValueDigest
  let template ← ofResult (sealedObjectTemplate X policyDigest)
  let sensitive ← ofResult ((X.sensitiveData secret).mapError fun e => .seal e.display)
  let primaryName ← primaryName primary
  let session ← startSaltedHmacSession primary
  let created ← thenFlush (esapi (.create session primary template auth sensitive entropy))
    (fun e => .seal e.display) (.session session.handle)
  pure { pub := created.1, priv := created.2, primaryName := primaryName }

/-! ## Unsealing -/

def isLockout : EsapiError → Bool
  | .tss2 kind _ => kind = some .lockout
  | .wrapper _ => false

def isAuthFailure : EsapiError → Bool
  | .tss2 kind _ => kind = some .authFail ∨ kind = some .badAuth
  | .wrapper _ => false

def mapUnsealError (e : EsapiError) : Error :=
  if isLockout e then .lockout else if isAuthFailure e then .wrongPin else .unseal e.display

def mapLoadError (e : EsapiError) : Error := if isLockout e then .lockout else .load e.display

def primaryNameMatches (actual expected : Bytes) : Bool := expected ≠ [] ∧ actual = expected

def verifyPrimaryName (primary : Handle) (expected : Bytes) : Io Unit := do
  let actual ← primaryName primary
  if primaryNameMatches actual expected then pure () else throw .primaryNameMismatch

def unsealWithPolicy (primary object : Handle) (auth : Bytes) : Io SecretBytes := do
  mapErr (fun e => .unseal e.display) (esapi (.trSetAuth (.transient object) auth))
  let policy ← startPolicySession primary
  thenFlush (do
      let session ← ofResult (PolicySession.tryFrom policy)
      esapi (.policyAuthValue session)
      esapi (.tpm2Unseal policy object))
    mapUnsealError (.session policy.handle)

/-- `unseal`. Once the object is loaded it is flushed on every path. -/
def unsealSealed (primary : Handle) (sealed : SealedObject) (pin : SecretBytes) :
    Io SecretBytes := do
  let auth ← ofResult (pinToAuth X pin)
  verifyPrimaryName primary sealed.primaryName
  let loadSession ← startSaltedHmacSession primary
  let loaded ← attempt (esapi (.load loadSession primary sealed.priv sealed.pub))
  let loadSessionFlushed ← attempt (flush (.session loadSession.handle))
  let object ← ofResult (loaded.mapError mapLoadError)
  let result ← match loadSessionFlushed with
    | .error e => pure (.error e)
    | .ok () => attempt (unsealWithPolicy primary object auth)
  let objectFlushed ← attempt (flush (.transient object))
  let secret ← ofResult result
  ofResult objectFlushed
  pure secret

/-! ## The lockout authValue -/

def lockoutAuthValue (secret : SecretBytes) : Except Error Bytes :=
  if secret.length > maxLockoutAuthLen then
    .error (.lockoutAuth ("lockout authValue is " ++ toString secret.length ++
      " bytes, exceeds the " ++ toString maxLockoutAuthLen ++ "-byte limit"))
  else (X.auth secret).mapError fun e => .lockoutAuth e.display

def setLockoutAuth (primary : Handle) (current new : SecretBytes) : Io Unit := do
  let currentAuth ← ofResult (lockoutAuthValue X current)
  let newAuth ← ofResult (lockoutAuthValue X new)
  mapErr (fun e => .lockoutAuth e.display) (esapi (.trSetAuth .lockout currentAuth))
  let session ← startSaltedHmacSession primary
  thenFlush (esapi (.hierarchyChangeAuth session newAuth)) (fun e => .lockoutAuth e.display)
    (.session session.handle)
  mapErr (fun e => .lockoutAuth e.display) (esapi (.trSetAuth .lockout newAuth))

end Esapi

end Tess

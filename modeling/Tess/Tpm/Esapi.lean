import Tess.Effects.Watch
import Tess.Enroll.Host

/-!
# The calls of a sealing, and the TPM behind them

The ESAPI calls that `tess-tpm` makes to seal, to unseal and to change the lockout authValue, and
the context they act on: the TPM, its open sessions, the objects loaded into it, and the authValues
that the ESAPI keeps for the caller.

* What a call opens gets a handle that is not in use; which one, is for the TPM to say.
* A call may fail with any error, and then it has done nothing. `TPM2_StartAuthSession` may also
  succeed without a session.
* A session stays open after a command only if its attributes say so.
* A policy digest is the list of the commands that were asserted, and the only objects the TPM makes
  are sealed data of the template of this program.

All sessions are AES-128-CFB with SHA-256, and no call passes a nonce.
-/

namespace Tess

open Files Effects

namespace Esapi

/-! ## Errors -/

inductive ResponseCodeKind where
  | lockout
  | authFail
  | badAuth
  | policyFail
  | other
  deriving DecidableEq

/-- An error of the ESAPI: a response code of the TPM, or an error of the wrapper around it. -/
inductive EsapiError where
  | tss2 (kind : Option ResponseCodeKind) (text : String)
  | wrapper (text : String)
  deriving DecidableEq

def EsapiError.display : EsapiError → String
  | tss2 _ text | wrapper text => text

/-- The errors of `tess-tpm`. -/
inductive Error where
  | template (e : String)
  | primaryName (e : String)
  | primaryNameMismatch
  | session (e : String)
  | noSession
  | policy (e : String)
  | rng (e : String)
  | pinTooLong (len max : ℕ)
  | pinEmpty
  | seal (e : String)
  | load (e : String)
  | unseal (e : String)
  | lockout
  | lockoutAuth (e : String)
  | flush (e : String)
  | wrongPin
  deriving DecidableEq

/-! ## Handles, sessions and objects -/

abbrev Handle := ℕ

inductive SessionType where
  | hmac
  | policy
  | trial
  deriving DecidableEq

structure AuthSession where
  handle : Handle
  type : SessionType
  deriving DecidableEq

/-- A session that policy commands can be played in. -/
abbrev PolicySession := { s : AuthSession // s.type ≠ .hmac }

def PolicySession.tryFrom (s : AuthSession) : Except EsapiError PolicySession :=
  if h : s.type ≠ .hmac then .ok ⟨s, h⟩ else .error (.wrapper "parameter provided is of wrong type")

/-- The handles that can be flushed or given an authValue. -/
inductive ObjectHandle where
  | lockout
  | transient (h : Handle)
  | session (h : Handle)
  deriving DecidableEq

structure SessionAttributes where
  continueSession : Bool
  decrypt : Bool
  encrypt : Bool
  deriving DecidableEq

/-- The bits under the mask are replaced. -/
def SessionAttributes.update (old new mask : SessionAttributes) : SessionAttributes where
  continueSession := if mask.continueSession then new.continueSession else old.continueSession
  decrypt := if mask.decrypt then new.decrypt else old.decrypt
  encrypt := if mask.encrypt then new.encrypt else old.encrypt

inductive PolicyCommand where
  | authValue
  deriving DecidableEq

abbrev Digest := List PolicyCommand

structure OpenSession where
  type : SessionType
  tpmKey : Option Handle
  attributes : SessionAttributes
  policy : Digest
  deriving DecidableEq

structure ObjectAttributes where
  fixedTpm : Bool := false
  fixedParent : Bool := false
  userWithAuth : Bool := false
  noDa : Bool := false
  deriving DecidableEq

inductive PublicAlgorithm where
  | keyedHash
  deriving DecidableEq

inductive HashingAlgorithm where
  | sha256
  deriving DecidableEq

/-- The public area that an object is created from. -/
structure Template where
  publicAlgorithm : PublicAlgorithm
  nameHashingAlgorithm : HashingAlgorithm
  objectAttributes : ObjectAttributes
  authPolicy : Digest
  deriving DecidableEq

/-- Sealed data under a policy: gated by its authValue, and not exempt from lockout. -/
def Template.sealedData (authPolicy : Digest) : Template where
  publicAlgorithm := .keyedHash
  nameHashingAlgorithm := .sha256
  objectAttributes := { fixedTpm := true, fixedParent := true, userWithAuth := true }
  authPolicy := authPolicy

/-- A loaded object: its Name, the blobs of sealed data, and the authValue the ESAPI has for it. -/
structure LoadedObject where
  name : Bytes
  blobs : Option (Public × Bytes)
  auth : Bytes
  deriving DecidableEq

structure Context where
  tpm : Tpm
  sessions : Handle → Option OpenSession
  objects : Handle → Option LoadedObject
  /-- The authValue the ESAPI has for the lockout hierarchy. -/
  lockoutAuth : Bytes

namespace Context

variable (w : Context)

def setSession (h : Handle) (s : Option OpenSession) : Context :=
  { w with sessions := Function.update w.sessions h s }

def setObject (h : Handle) (x : Option LoadedObject) : Context :=
  { w with objects := Function.update w.objects h x }

/-- A session after it has authorized a command. -/
def used (h : Handle) (s : OpenSession) : Context :=
  w.setSession h (if s.attributes.continueSession then some { s with policy := [] } else none)

@[simp] theorem sessions_setSession_same (h : Handle) (s : Option OpenSession) :
    (w.setSession h s).sessions h = s := Function.update_self ..

theorem sessions_setSession_of_ne {h h' : Handle} (hne : h' ≠ h) (s : Option OpenSession) :
    (w.setSession h s).sessions h' = w.sessions h' := Function.update_of_ne hne ..

@[simp] theorem objects_setSession (h : Handle) (s : Option OpenSession) :
    (w.setSession h s).objects = w.objects := rfl

@[simp] theorem objects_setObject_same (h : Handle) (x : Option LoadedObject) :
    (w.setObject h x).objects h = x := Function.update_self ..

@[simp] theorem sessions_setObject (h : Handle) (x : Option LoadedObject) :
    (w.setObject h x).sessions = w.sessions := rfl

def openSessions : Set Handle := {h | w.sessions h ≠ none}

def loadedObjects : Set Handle := {h | w.objects h ≠ none}

end Context

/-! ## Calls -/

/-- The calls. What the TPM draws to create an object is named by the call. -/
inductive Call where
  | trGetName (object : Handle)
  | startAuthSession (tpmKey : Option Handle) (type : SessionType)
  | trSessSetAttributes (session : AuthSession) (attributes mask : SessionAttributes)
  | policyAuthValue (session : PolicySession)
  | policyGetDigest (session : PolicySession)
  | create (session : AuthSession) (parent : Handle) (template : Template) (auth sensitive : Bytes)
      (entropy : Bytes)
  | load (session : AuthSession) (parent : Handle) (priv : Bytes) (pub : Public)
  | trSetAuth (object : ObjectHandle) (auth : Bytes)
  | tpm2Unseal (session : AuthSession) (object : Handle)
  | hierarchyChangeAuth (session : AuthSession) (auth : Bytes)
  | flushContext (handle : ObjectHandle)
  deriving DecidableEq

namespace Call

@[reducible] def Val : Call → Type
  | trGetName _ => Bytes
  | startAuthSession .. => Option AuthSession
  | policyGetDigest _ => Digest
  | create .. => Public × Bytes
  | load .. => Handle
  | tpm2Unseal .. => Bytes
  | _ => Unit

@[reducible] def Res (o : Call) : Type := Except EsapiError o.Val

end Call

def badHandle : EsapiError := .wrapper "the handle is not open"

/-- Something done with an open session. -/
def withSession {α : Type} (w : Context) (s : AuthSession)
    (f : OpenSession → Except EsapiError α × Context) : Except EsapiError α × Context :=
  match w.sessions s.handle with
  | some x => f x
  | none => (.error badHandle, w)

/-- Something done with a loaded object. -/
def withObject {α : Type} (w : Context) (h : Handle)
    (f : LoadedObject → Except EsapiError α × Context) : Except EsapiError α × Context :=
  match w.objects h with
  | some x => f x
  | none => (.error badHandle, w)

/-- Unsealing, in a session and for an object: the policy, the lockout, and then the authValue,
which counts towards lockout when it is wrong. -/
def unsealData (E : Primitives) (w : Context) (s : AuthSession) (x : OpenSession)
    (object : LoadedObject) : Except EsapiError Bytes × Context :=
  if x.type ≠ .policy ∨ x.policy ≠ [.authValue] then (.error (.tss2 (some .policyFail) "policy"), w)
  else if w.tpm.lockout.isLockedOut then (.error (.tss2 (some .lockout) "lockout"), w)
  else
    match object.blobs.bind fun b => E.unsealData w.tpm.seed b.1 b.2 object.auth with
    | some data => (.ok data, w.used s.handle x)
    | none => (.error (.tss2 (some .authFail) "authorization failure"),
        { w with tpm := { w.tpm with lockout :=
          { w.tpm.lockout with counter := w.tpm.lockout.counter + 1 } } })

/-- What a call returns and does. What it opens gets the handle `h`. -/
def perform (E : Primitives) (h : Handle) (w : Context) : (o : Call) → o.Res × Context
  | .trGetName object => withObject w object fun x => (.ok x.name, w)
  | .startAuthSession tpmKey type =>
    (.ok (some ⟨h, type⟩), w.setSession h (some ⟨type, tpmKey, ⟨false, false, false⟩, []⟩))
  | .trSessSetAttributes s attributes mask => withSession w s fun x =>
    (.ok (), w.setSession s.handle
      (some { x with attributes := x.attributes.update attributes mask }))
  | .policyAuthValue s => withSession w s.1 fun x =>
    (.ok (), w.setSession s.1.handle (some { x with policy := x.policy ++ [.authValue] }))
  | .policyGetDigest s => withSession w s.1 fun x => (.ok x.policy, w)
  | .create s parent template auth sensitive entropy => withSession w s fun x =>
    withObject w parent fun _ =>
      if template = Template.sealedData [.authValue] then
        (.ok (E.create w.tpm.seed entropy auth sensitive), w.used s.handle x)
      else (.error (.tss2 (some .other) "template"), w)
  | .load s parent priv pub => withSession w s fun x =>
    withObject w parent fun _ =>
      if w.tpm.lockout.isLockedOut then (.error (.tss2 (some .lockout) "lockout"), w)
      else (.ok h, (w.used s.handle x).setObject h (some ⟨pub.contents, some (pub, priv), []⟩))
  | .trSetAuth (.transient object) auth => withObject w object fun x =>
    (.ok (), w.setObject object (some { x with auth := auth }))
  | .trSetAuth .lockout auth => (.ok (), { w with lockoutAuth := auth })
  | .trSetAuth (.session _) _ => (.error badHandle, w)
  | .tpm2Unseal s object => withSession w s fun x => withObject w object (unsealData E w s x)
  | .hierarchyChangeAuth s auth => withSession w s fun x =>
    if w.tpm.lockoutAuth = w.lockoutAuth then
      (.ok (), { w.used s.handle x with tpm := { w.tpm with lockoutAuth := auth } })
    else (.error (.tss2 (some .badAuth) "authorization failure"), w)
  | .flushContext (.transient object) => withObject w object fun _ =>
    (.ok (), w.setObject object none)
  | .flushContext (.session session) => withSession w ⟨session, .hmac⟩ fun _ =>
    (.ok (), w.setSession session none)
  | .flushContext .lockout => (.error badHandle, w)

/-- How a call goes: it is performed, with a handle for what it opens; it succeeds without a
session; or it fails and does nothing. -/
inductive Reply where
  | ok (h : Handle)
  | noHandle
  | failed (e : EsapiError)

def exec (E : Primitives) (o : Call) : Reply → Context → o.Res × Context
  | .ok h, w => perform E h w o
  | .noHandle, w =>
    match o with
    | .startAuthSession .. => (.ok none, w)
    | _ => (.error badHandle, w)
  | .failed e, w => (.error e, w)

/-- A handle for something new is not in use. -/
def Possible (w : Context) : Call → Reply → Prop
  | .startAuthSession .., .ok h | .load .., .ok h => w.sessions h = none ∧ w.objects h = none
  | _, _ => True

/-- The context as a machine, with the replies that `may` lets happen. -/
def machine (E : Primitives) (may : Call → Reply → Prop) : Machine Call.Res Context Reply where
  exec := exec E
  may w o r := Possible w o r ∧ may o r

def anyReply : Call → Reply → Prop := fun _ _ => True

/-- Every flush is performed. -/
def flushesSucceed : Call → Reply → Prop
  | .flushContext _, r => ∃ h, r = .ok h
  | _, _ => True

/-- The calls made so far and whether they succeeded, the latest first. -/
abbrev Trail := List (Call × Bool)

def record (E : Primitives) (o : Call) (r : Reply) (w : Context) (t : Trail) : Trail :=
  (o, (exec E o r w).1.isOk) :: t

/-- The machine with a trail beside it. -/
def trailed (E : Primitives) (may : Call → Reply → Prop) :
    Machine Call.Res (Context × Trail) Reply := (machine E may).watch (record E)

end Esapi

end Tess

import Tess.Tpm.Handles

/-!
# The TPM of the host

The host has one operation for each of sealing, unsealing and changing the lockout authValue, and
its TPM does each in one step. The functions of `tess-tpm` make a series of calls. When every call
is performed, the series comes to the step: the same result, the same TPM, and the sessions and
objects that were there before.
-/

namespace Tess

open Files Effects

/-! ## The steps -/

namespace Tpm

variable {E : Primitives} {t : Tpm} {sealed : SealedObject} {pin auth : SecretBytes}

theorem unsealKey_refused {e : String} (h : pinToAuth pin = .error e) :
    t.unsealKey E sealed pin = (.error ["unseal key with PIN", e], t) := by
  rw [unsealKey, h]

theorem unsealKey_mismatch (h : pinToAuth pin = .ok auth)
    (hname : sealed.primaryName = [] ∨ E.primaryName t.seed ≠ sealed.primaryName) :
    ∃ e, t.unsealKey E sealed pin = (.error e, t) := by
  rw [unsealKey, h]
  exact ⟨_, if_pos hname⟩

theorem unsealKey_lockedOut (h : pinToAuth pin = .ok auth)
    (hname : ¬ (sealed.primaryName = [] ∨ E.primaryName t.seed ≠ sealed.primaryName))
    (hl : t.lockout.isLockedOut = true) : ∃ e, t.unsealKey E sealed pin = (.error e, t) := by
  rw [unsealKey, h]
  exact ⟨_, (if_neg hname).trans (if_pos hl)⟩

theorem unsealKey_tried (h : pinToAuth pin = .ok auth)
    (hname : ¬ (sealed.primaryName = [] ∨ E.primaryName t.seed ≠ sealed.primaryName))
    (hl : t.lockout.isLockedOut = false) :
    t.unsealKey E sealed pin =
      (E.unsealData t.seed sealed.pub sealed.priv auth).elim
        (.error ["unseal key with PIN", "wrong PIN"],
          { t with lockout := { t.lockout with counter := t.lockout.counter + 1 } })
        fun key => (.ok key, t) := by
  rw [unsealKey, h]
  refine (if_neg hname).trans ((if_neg (by rw [hl]; decide)).trans ?_)
  cases E.unsealData t.seed sealed.pub sealed.priv auth <;> rfl

end Tpm

namespace Esapi

/-- Every call is performed. -/
def performed (_ : Call) (r : Reply) : Prop := ∃ h, r = .ok h

/-- What a program comes to when every call is performed. -/
abbrev Performs (E : Primitives) {ε α : Type} (x : ExceptT ε (Prog Call.Res) α)
    (Q : α → Context → Prop) (F : ε → Context → Prop) (w : Context) : Prop :=
  wpe (machine E performed) Eq (fun _ _ => True) x Q F w

/-- The storage primary is there, under its Name. -/
def HasPrimary (E : Primitives) (w : Context) (primary : Handle) : Prop :=
  ∃ x, w.objects primary = some x ∧ x.name = E.primaryName w.tpm.seed

/-! ## Contexts -/

namespace Context

variable {w : Context} {h : Handle}

@[simp] theorem setSession_setSession (s s' : Option OpenSession) :
    (w.setSession h s).setSession h s' = w.setSession h s' := by
  simp [setSession]

@[simp] theorem setObject_setObject (x x' : Option LoadedObject) :
    (w.setObject h x).setObject h x' = w.setObject h x' := by
  simp [setObject]

theorem setSession_self {s : Option OpenSession} (hs : w.sessions h = s) :
    w.setSession h s = w := by
  subst hs
  simp [setSession]

theorem setObject_self {x : Option LoadedObject} (hx : w.objects h = x) : w.setObject h x = w := by
  subst hx
  simp [setObject]

/-- After an authorization failure that counts towards lockout. -/
def counted (w : Context) : Context :=
  { w with tpm := { w.tpm with lockout :=
    { w.tpm.lockout with counter := w.tpm.lockout.counter + 1 } } }

theorem used_continues {s : OpenSession} (hc : s.attributes.continueSession = true) :
    w.used h s = w.setSession h (some { s with policy := [] }) := by
  rw [used, if_pos hc]

/-- A session that continues is what it was, when no policy was asserted in it. -/
theorem used_fresh {s : OpenSession} (hs : w.sessions h = some s)
    (hc : s.attributes.continueSession = true) (hp : s.policy = []) : w.used h s = w := by
  rw [used_continues hc]
  apply setSession_self
  rw [hs, ← hp]

end Context

/-! ## Calls -/

section Calls

variable {E : Primitives} {w : Context} {primary : Handle}

theorem esapi_performs {o : Call} {Q : o.Val → Context → Prop} {F : EsapiError → Context → Prop}
    (h : ∀ a, Possible w o (.ok a) → outcome Q F (perform E a w o).1 (perform E a w o).2) :
    Performs E (esapi o) Q F w := by
  refine (wp_call_alone ..).2 fun r hr => ⟨trivial, ?_⟩
  obtain ⟨hpossible, a, rfl⟩ := hr
  exact h a hpossible

/-- What cannot fail is looked at as a success. -/
theorem attempt_performs {α : Type} {x : Io α} {Q : α → Context → Prop} {F : Error → Context → Prop}
    (h : Performs E x Q (fun _ _ => False) w) :
    Performs E (attempt x : Io _) (fun r w' => ∃ a, r = .ok a ∧ Q a w') F w :=
  (wpe_attempt ..).2 (wpe_mono h (fun a _ hQ => ⟨a, rfl, hQ⟩) fun _ _ => False.elim)

/-- A session of the given type, as it is after its attributes were set. -/
def encryptedSession (type : SessionType) (primary : Handle) : OpenSession where
  type := type
  tpmKey := some primary
  attributes := ⟨true, true, true⟩
  policy := []

/-- A started session has a new handle. -/
theorem startEncryptedSession_performs (type : SessionType) (f : String → Error) :
    Performs E (startEncryptedSession type f primary)
      (fun a w' => a.type = type ∧ w.sessions a.handle = none ∧
        w' = w.setSession a.handle (some (encryptedSession type primary)))
      (fun _ _ => False) w := by
  refine wpe_seq (P := fun session w' => ∃ a : AuthSession, session = some a ∧ a.type = type ∧
      w.sessions a.handle = none ∧
      w' = w.setSession a.handle (some ⟨type, some primary, ⟨false, false, false⟩, []⟩))
    ((wpe_adapt ..).2 (esapi_performs fun a ha => ⟨⟨a, type⟩, rfl, rfl, ha.1, rfl⟩)) ?_
  rintro _ _ ⟨a, rfl, htype, hfree, rfl⟩
  refine wpe_seq (P := fun b w' => b = a ∧ w' = w.setSession a.handle
    (some ⟨type, some primary, ⟨false, false, false⟩, []⟩)) ⟨rfl, rfl⟩ ?_
  rintro b _ ⟨rfl, rfl⟩
  refine wpe_seq
    (P := fun _ w' => w' = w.setSession b.handle (some (encryptedSession type primary)))
    ((wpe_adapt ..).2 (esapi_performs fun h _ => ?_)) ?_
  · rw [perform, withSession_some (w.sessions_setSession_same ..)]
    exact Context.setSession_setSession ..
  · rintro _ _ rfl
    exact ⟨htype, hfree, rfl⟩

theorem flushSession_performs {h : Handle} {s : OpenSession} (hs : w.sessions h = some s) :
    Performs E (flush (.session h)) (fun _ w' => w' = w.setSession h none)
      (fun _ _ => False) w := by
  refine (wpe_adapt ..).2 (esapi_performs fun _ _ => ?_)
  rw [perform, withSession_some (s := ⟨h, .hmac⟩) hs]
  rfl

theorem flushObject_performs {h : Handle} {x : LoadedObject} (hx : w.objects h = some x) :
    Performs E (flush (.transient h)) (fun _ w' => w' = w.setObject h none)
      (fun _ _ => False) w := by
  refine (wpe_adapt ..).2 (esapi_performs fun _ _ => ?_)
  rw [perform, withObject_some hx]
  rfl

/-- A program under a session, which is closed then. -/
theorem thenFlush_performs {α : Type} {x : EsapiIo α} {f : EsapiError → Error} {h : Handle}
    {Q : α → Context → Prop} {F : Context → Prop}
    (hx : Performs E x (fun a w' => w'.sessions h ≠ none ∧ Q a (w'.setSession h none))
      (fun _ w' => w'.sessions h ≠ none ∧ F (w'.setSession h none)) w) :
    Performs E (thenFlush x f (.session h)) Q (fun _ => F) w := by
  refine wpe_seq (P := fun r w' => w'.sessions h ≠ none ∧
    outcome Q (fun _ => F) r (w'.setSession h none)) ((wpe_attempt ..).2 hx) ?_
  rintro r w₁ ⟨hopen, hr⟩
  obtain ⟨s, hs⟩ := Option.ne_none_iff_exists'.1 hopen
  refine wpe_seq (attempt_performs (flushSession_performs hs)) ?_
  rintro _ _ ⟨-, rfl, rfl⟩
  cases r with
  | error e => exact wpe_seq (P := fun _ _ => False) hr fun _ _ => False.elim
  | ok a => exact hr

theorem primaryName_performs (hp : HasPrimary E w primary) :
    Performs E (primaryName primary) (fun name w' => name = E.primaryName w.tpm.seed ∧ w' = w)
      (fun _ _ => False) w := by
  obtain ⟨x, hx, hname⟩ := hp
  refine (wpe_adapt ..).2 (esapi_performs fun _ _ => ?_)
  rw [perform, withObject_some hx]
  exact ⟨hname, rfl⟩

theorem tryFrom_ok {a : AuthSession} (ha : a.type ≠ .hmac) :
    PolicySession.tryFrom a = .ok ⟨a, ha⟩ := dif_pos ha

/-- Asserting the policy in a session in which nothing was asserted. -/
theorem policyAuthValue_performs {session : PolicySession} {s s' : OpenSession}
    (hs : s.policy = []) (hs' : s' = { s with policy := [.authValue] }) :
    Performs E (esapi (.policyAuthValue session))
      (fun _ w' => w' = w.setSession session.1.handle (some s')) (fun _ _ => False)
      (w.setSession session.1.handle (some s)) := by
  refine esapi_performs fun _ _ => ?_
  rw [perform, withSession_some (w.sessions_setSession_same ..), hs, hs']
  exact Context.setSession_setSession ..

end Calls

/-! ## Conversions -/

section Conversions

variable (X : Conversions)

/-- The checks on a PIN are those of the host. -/
theorem pinToAuth_cases (pin : SecretBytes) :
    pinToAuth X pin = .ok pin ∧ Tess.pinToAuth pin = .ok pin ∨
      (∃ e, pinToAuth X pin = .error e) ∧ ∃ e, Tess.pinToAuth pin = .error e := by
  unfold pinToAuth Tess.pinToAuth
  split_ifs with hempty hlong
  · exact .inr ⟨⟨_, rfl⟩, _, rfl⟩
  · exact .inr ⟨⟨_, rfl⟩, _, rfl⟩
  · rw [X.auth_ok (not_lt.1 hlong)]
    exact .inl ⟨rfl, rfl⟩

theorem lockoutAuthValue_cases (secret : SecretBytes) :
    lockoutAuthValue X secret = .ok secret ∧ secret.length ≤ maxLockoutAuthLen ∨
      (∃ e, lockoutAuthValue X secret = .error e) ∧ maxLockoutAuthLen < secret.length := by
  unfold lockoutAuthValue
  split_ifs with hlong
  · exact .inr ⟨⟨_, rfl⟩, hlong⟩
  · rw [X.auth_ok (not_lt.1 hlong)]
    exact .inl ⟨rfl, not_lt.1 hlong⟩

theorem sealedObjectTemplate_ok (digest : Digest) :
    sealedObjectTemplate X digest = .ok (.sealedData digest) := by
  unfold sealedObjectTemplate
  rw [X.objectAttributes_ok]
  exact congrArg (Except.mapError _) (X.build_ok digest)

end Conversions

/-! ## The functions -/

section Functions

variable {E : Primitives} {X : Conversions} {w : Context} {primary : Handle}

theorem HasPrimary.setSession (hp : HasPrimary E w primary) (h : Handle) (s : Option OpenSession) :
    HasPrimary E (w.setSession h s) primary := hp

/-- The digest is that of the one command of the policy. -/
theorem policyAuthValueDigest_performs :
    Performs E policyAuthValueDigest (fun digest w' => digest = [.authValue] ∧ w' = w)
      (fun _ _ => False) w := by
  refine wpe_seq (P := fun session w' => ∃ a : AuthSession, session = some a ∧ a.type = .trial ∧
      w.sessions a.handle = none ∧
      w' = w.setSession a.handle (some ⟨.trial, none, ⟨false, false, false⟩, []⟩))
    ((wpe_adapt ..).2 (esapi_performs fun a ha => ⟨⟨a, .trial⟩, rfl, rfl, ha.1, rfl⟩)) ?_
  rintro _ _ ⟨a, rfl, htype, hfree, rfl⟩
  refine wpe_seq (P := fun b w' => b = a ∧ w' = w.setSession a.handle
    (some ⟨.trial, none, ⟨false, false, false⟩, []⟩)) ⟨rfl, rfl⟩ ?_
  rintro b _ ⟨rfl, rfl⟩
  have hne : b.type ≠ .hmac := by
    rw [htype]
    decide
  refine wpe_mono (Q := fun digest w' => digest = [.authValue] ∧ w' = w) (E := fun _ _ => False)
    (thenFlush_performs ?_) (fun _ _ h => h) fun _ _ => id
  rw [tryFrom_ok hne]
  refine wpe_seq (P := fun s w' => s = ⟨b, hne⟩ ∧ w' = w.setSession b.handle
    (some ⟨.trial, none, ⟨false, false, false⟩, []⟩)) ⟨rfl, rfl⟩ ?_
  rintro _ _ ⟨rfl, rfl⟩
  refine wpe_step (policyAuthValue_performs rfl rfl) (fun _ _ => False.elim) ?_
  rintro _ _ rfl
  refine esapi_performs fun _ _ => ?_
  rw [perform, withSession_some (w.sessions_setSession_same ..)]
  refine ⟨by simp, rfl, ?_⟩
  rw [Context.setSession_setSession, Context.setSession_self hfree]

/-- **Sealing** comes to the step of the TPM. -/
theorem sealSecret_performs (hp : HasPrimary E w primary) {pin secret : SecretBytes}
    (hs : secret.length ≤ 32) (entropy : Bytes) :
    Performs E (sealSecret X primary pin secret entropy)
      (fun sealed w' => w.tpm.sealKey E entropy pin secret = .ok sealed ∧ w' = w)
      (fun _ w' => (∃ e, w.tpm.sealKey E entropy pin secret = .error e) ∧ w' = w) w := by
  rcases pinToAuth_cases X pin with ⟨hpin, hauth⟩ | ⟨⟨e, hpin⟩, e', hauth⟩
  · have hkey : w.tpm.sealKey E entropy pin secret = .ok
        { pub := (E.create w.tpm.seed entropy pin secret).1
          priv := (E.create w.tpm.seed entropy pin secret).2
          primaryName := E.primaryName w.tpm.seed } := by
      rw [Tpm.sealKey, hauth]
    unfold sealSecret
    rw [hpin, X.sensitiveData_ok hs]
    refine wpe_seq (P := fun auth w' => auth = pin ∧ w' = w) ⟨rfl, rfl⟩ ?_
    rintro auth _ ⟨rfl, rfl⟩
    refine wpe_step policyAuthValueDigest_performs (fun _ _ => False.elim) ?_
    rintro _ w' ⟨rfl, rfl⟩
    rw [sealedObjectTemplate_ok]
    refine wpe_seq (P := fun template u => template = .sealedData [.authValue] ∧ u = w')
      ⟨rfl, rfl⟩ ?_
    rintro _ w ⟨rfl, rfl⟩
    refine wpe_seq (P := fun sensitive u => sensitive = secret ∧ u = w) ⟨rfl, rfl⟩ ?_
    rintro secret w' ⟨rfl, rfl⟩
    refine wpe_step (primaryName_performs hp) (fun _ _ => False.elim) ?_
    rintro _ w ⟨rfl, rfl⟩
    refine wpe_step (startEncryptedSession_performs .hmac .session) (fun _ _ => False.elim) ?_
    rintro a _ ⟨htype, hfree, rfl⟩
    refine wpe_step
      (P := fun created u => created = E.create w.tpm.seed entropy auth secret ∧ u = w)
      (thenFlush_performs (F := fun _ => False) ?_) (fun _ _ => False.elim) ?_
    · obtain ⟨x, hx, -⟩ := hp.setSession a.handle (some (encryptedSession .hmac primary))
      have hopen := w.sessions_setSession_same a.handle (some (encryptedSession .hmac primary))
      refine esapi_performs fun _ _ => ?_
      rw [perform, withSession_some hopen, withObject_some hx, if_pos rfl,
        Context.used_fresh hopen rfl rfl]
      refine ⟨by simp, rfl, ?_⟩
      rw [Context.setSession_setSession, Context.setSession_self hfree]
    · rintro _ _ ⟨rfl, rfl⟩
      exact ⟨hkey, rfl⟩
  · unfold sealSecret
    rw [hpin]
    refine wpe_seq (P := fun _ _ => False) ⟨⟨["seal key under PIN", e'], ?_⟩, rfl⟩
      fun _ _ => False.elim
    rw [Tpm.sealKey, hauth]

/-- The Name is read and compared. -/
theorem verifyPrimaryName_performs (hp : HasPrimary E w primary) (expected : Bytes) :
    Performs E (verifyPrimaryName primary expected)
      (fun _ w' => ¬ (expected = [] ∨ E.primaryName w.tpm.seed ≠ expected) ∧ w' = w)
      (fun _ w' => (expected = [] ∨ E.primaryName w.tpm.seed ≠ expected) ∧ w' = w) w := by
  refine wpe_step (primaryName_performs hp) (fun _ _ => False.elim) ?_
  rintro _ w' ⟨rfl, rfl⟩
  by_cases h : expected = [] ∨ E.primaryName w'.tpm.seed ≠ expected
  · rw [if_neg (by simpa [primaryNameMatches, imp_iff_not_or] using h)]
    exact ⟨h, rfl⟩
  · rw [if_pos (by simpa [primaryNameMatches] using h)]
    exact ⟨h, rfl⟩

/-- The object is loaded, unless the TPM is locked out. -/
theorem load_performs (hp : HasPrimary E w primary) {a : AuthSession} {pub : Public}
    {priv : Bytes} :
    Performs E (esapi (.load a primary priv pub))
      (fun h w' => w.tpm.lockout.isLockedOut = false ∧ w.objects h = none ∧
        w' = (w.setSession a.handle (some (encryptedSession .hmac primary))).setObject h
          (some ⟨pub.contents, some (pub, priv), []⟩))
      (fun _ w' => w.tpm.lockout.isLockedOut = true ∧
        w' = w.setSession a.handle (some (encryptedSession .hmac primary)))
      (w.setSession a.handle (some (encryptedSession .hmac primary))) := by
  obtain ⟨x, hx, -⟩ := hp.setSession a.handle (some (encryptedSession .hmac primary))
  have hopen := w.sessions_setSession_same a.handle (some (encryptedSession .hmac primary))
  refine esapi_performs fun h hfree => ?_
  rw [perform, withSession_some hopen, withObject_some hx]
  split
  · rename_i hl
    exact ⟨hl, rfl⟩
  · rename_i hl
    rw [Context.used_fresh hopen rfl rfl]
    exact ⟨Bool.eq_false_iff.2 hl, hfree.2, rfl⟩

/-- Unsealing in a session in which the policy was asserted. A wrong authValue is counted. -/
theorem tpm2Unseal_performs {a : AuthSession} {s : OpenSession} {object : Handle}
    {x : LoadedObject} {b : Public × Bytes} (hs : w.sessions a.handle = some s)
    (hx : w.objects object = some x) (htype : s.type = .policy) (hpolicy : s.policy = [.authValue])
    (hl : w.tpm.lockout.isLockedOut = false) (hb : x.blobs = some b) :
    Performs E (esapi (.tpm2Unseal a object))
      (fun data w' => E.unsealData w.tpm.seed b.1 b.2 x.auth = some data ∧ w' = w.used a.handle s)
      (fun _ w' => E.unsealData w.tpm.seed b.1 b.2 x.auth = none ∧ w' = w.counted) w := by
  refine esapi_performs fun _ _ => ?_
  rw [perform, withSession_some hs, withObject_some hx]
  cases hd : E.unsealData w.tpm.seed b.1 b.2 x.auth with
  | some data =>
    have hdata : unsealData E w a s x = (.ok data, w.used a.handle s) := by
      simp [unsealData, htype, hpolicy, hl, hb, hd]
    rw [hdata]
    exact ⟨rfl, rfl⟩
  | none =>
    have hfail : unsealData E w a s x =
        (.error (.tss2 (some .authFail) "authorization failure"), w.counted) := by
      simp [unsealData, htype, hpolicy, hl, hb, hd, Context.counted]
    rw [hfail]
    exact ⟨rfl, rfl⟩

/-- The object is given the authValue, and unsealed with it. -/
theorem unsealWithPolicy_performs {object : Handle} {x : LoadedObject} {b : Public × Bytes}
    (hx : w.objects object = some x) (hb : x.blobs = some b)
    (hl : w.tpm.lockout.isLockedOut = false) (auth : Bytes) :
    Performs E (unsealWithPolicy primary object auth)
      (fun key w' => E.unsealData w.tpm.seed b.1 b.2 auth = some key ∧
        w' = w.setObject object (some { x with auth := auth }))
      (fun _ w' => E.unsealData w.tpm.seed b.1 b.2 auth = none ∧
        w' = (w.setObject object (some { x with auth := auth })).counted) w := by
  refine wpe_step (P := fun _ w' => w' = w.setObject object (some { x with auth := auth }))
    ((wpe_adapt ..).2 (esapi_performs fun _ _ => ?_)) (fun _ _ => False.elim) ?_
  · rw [perform, withObject_some hx]
    rfl
  rintro _ _ rfl
  have hobject := w.objects_setObject_same object (some { x with auth := auth })
  have hseed : (w.setObject object (some { x with auth := auth })).tpm = w.tpm := rfl
  generalize w.setObject object (some { x with auth := auth }) = w₁ at hobject hseed ⊢
  rw [← hseed] at hl ⊢
  refine wpe_step (startEncryptedSession_performs .policy .policy) (fun _ _ => False.elim) ?_
  rintro a _ ⟨htype, hfree, rfl⟩
  have hne : a.type ≠ .hmac := by
    rw [htype]
    decide
  refine thenFlush_performs (F := fun w' => _ ∧ w' = w₁.counted) ?_
  rw [tryFrom_ok hne]
  refine wpe_seq (P := fun s w' => s = ⟨a, hne⟩ ∧
    w' = w₁.setSession a.handle (some (encryptedSession .policy primary))) ⟨rfl, rfl⟩ ?_
  rintro _ _ ⟨rfl, rfl⟩
  refine wpe_step (policyAuthValue_performs rfl rfl) (fun _ _ => False.elim) ?_
  rintro _ _ rfl
  have hclose : ∀ s : OpenSession,
      (w₁.setSession a.handle (some s)).setSession a.handle none = w₁ := by
    intro s
    rw [Context.setSession_setSession, Context.setSession_self hfree]
  have hloaded : ∀ s, (w₁.setSession a.handle s).objects object =
      some { x with auth := auth } := fun _ => hobject
  refine wpe_mono (tpm2Unseal_performs (w₁.sessions_setSession_same ..) (hloaded _) rfl rfl hl hb)
    ?_ ?_
  · rintro key _ ⟨hkey, rfl⟩
    refine ⟨by simp [Context.used, encryptedSession], hkey, ?_⟩
    rw [Context.used_continues rfl, Context.setSession_setSession]
    exact hclose _
  · rintro e _ ⟨hkey, rfl⟩
    exact ⟨by simp [Context.counted], hkey, congrArg Context.counted (hclose _)⟩

/-- The object is unsealed, and flushed whatever came of it. -/
theorem unsealLoaded_performs {h : Handle} {contents : Bytes} {b : Public × Bytes}
    (hl : w.tpm.lockout.isLockedOut = false) (hnew : w.objects h = none) (auth : Bytes)
    {Q : SecretBytes → Context → Prop} {F : Error → Context → Prop}
    (hok : ∀ key, E.unsealData w.tpm.seed b.1 b.2 auth = some key → Q key w)
    (hfail : E.unsealData w.tpm.seed b.1 b.2 auth = none → ∀ e, F e w.counted) :
    Performs E (do
        let result ← (attempt (unsealWithPolicy primary h auth) : Io _)
        let objectFlushed ← attempt (flush (.transient h))
        let secret ← ofResult result
        ofResult objectFlushed
        pure secret) Q F (w.setObject h (some ⟨contents, some b, []⟩)) := by
  have hclose : ∀ x : LoadedObject, (w.setObject h (some x)).setObject h none = w := by
    intro x
    rw [Context.setObject_setObject, Context.setObject_self hnew]
  refine wpe_seq (P := fun result w' => w'.objects h ≠ none ∧
      outcome Q F result (w'.setObject h none))
    ((wpe_attempt ..).2 (wpe_mono (unsealWithPolicy_performs
      (w.objects_setObject_same ..) rfl hl auth) ?_ ?_)) ?_
  · rintro key _ ⟨hkey, rfl⟩
    refine ⟨by simp, ?_⟩
    rw [Context.setObject_setObject, hclose]
    exact hok key hkey
  · rintro e _ ⟨hkey, rfl⟩
    refine ⟨by simp [Context.counted], ?_⟩
    rw [Context.setObject_setObject]
    exact (congrArg (F e) (congrArg Context.counted (hclose _))).mpr (hfail hkey e)
  rintro result w₁ ⟨hloaded, hresult⟩
  obtain ⟨x, hx⟩ := Option.ne_none_iff_exists'.1 hloaded
  refine wpe_seq (attempt_performs (flushObject_performs hx)) ?_
  rintro _ _ ⟨-, rfl, rfl⟩
  cases result with
  | error e => exact wpe_seq (P := fun _ _ => False) hresult fun _ _ => False.elim
  | ok key => exact hresult

/-- **Unsealing** comes to the step of the TPM. -/
theorem unsealSealed_performs (hp : HasPrimary E w primary) (sealed : SealedObject)
    (pin : SecretBytes) :
    Performs E (unsealSealed X primary sealed pin)
      (fun key w' => w.tpm.unsealKey E sealed pin = (.ok key, w.tpm) ∧ w' = w)
      (fun _ w' => (∃ e, w.tpm.unsealKey E sealed pin = (.error e, w'.tpm)) ∧
        w' = { w with tpm := w'.tpm }) w := by
  rcases pinToAuth_cases X pin with ⟨hpin, hauth⟩ | ⟨⟨e, hpin⟩, e', hauth⟩
  swap
  · unfold unsealSealed
    rw [hpin]
    exact wpe_seq (P := fun _ _ => False) ⟨⟨_, Tpm.unsealKey_refused hauth⟩, rfl⟩
      fun _ _ => False.elim
  unfold unsealSealed
  rw [hpin]
  refine wpe_seq (P := fun auth w' => auth = pin ∧ w' = w) ⟨rfl, rfl⟩ ?_
  rintro auth w' ⟨rfl, rfl⟩
  refine wpe_step (verifyPrimaryName_performs hp _) ?_ ?_
  · rintro e _ ⟨hname, rfl⟩
    exact ⟨Tpm.unsealKey_mismatch hauth hname, rfl⟩
  rintro _ w ⟨hname, rfl⟩
  refine wpe_step (startEncryptedSession_performs .hmac .session) (fun _ _ => False.elim) ?_
  rintro a _ ⟨-, hfree, rfl⟩
  -- the session is closed before anything is said about the object
  refine wpe_seq (P := fun loaded w' => w'.sessions a.handle ≠ none ∧
      outcome
        (fun h u => w.tpm.lockout.isLockedOut = false ∧ w.objects h = none ∧
          u = w.setObject h (some ⟨sealed.pub.contents, some (sealed.pub, sealed.priv), []⟩))
        (fun _ u => w.tpm.lockout.isLockedOut = true ∧ u = w)
        loaded (w'.setSession a.handle none))
    ((wpe_attempt ..).2 (wpe_mono (load_performs hp) ?_ ?_)) ?_
  · rintro h _ ⟨hl, hnew, rfl⟩
    refine ⟨by simp, hl, hnew, ?_⟩
    exact congrArg (Context.setObject · h _)
      ((Context.setSession_setSession ..).trans (Context.setSession_self hfree))
  · rintro e _ ⟨hl, rfl⟩
    refine ⟨by simp, hl, ?_⟩
    rw [Context.setSession_setSession, Context.setSession_self hfree]
  rintro loaded w₁ ⟨hopen, hloaded⟩
  obtain ⟨s, hs⟩ := Option.ne_none_iff_exists'.1 hopen
  refine wpe_seq (attempt_performs (flushSession_performs hs)) ?_
  rintro _ _ ⟨-, rfl, rfl⟩
  generalize w₁.setSession a.handle none = w₂ at hloaded ⊢
  cases loaded with
  | error e =>
    obtain ⟨hl, rfl⟩ := hloaded
    exact wpe_seq (P := fun _ _ => False) ⟨Tpm.unsealKey_lockedOut hauth hname hl, rfl⟩
      fun _ _ => False.elim
  | ok h =>
    obtain ⟨hl, hnew, rfl⟩ := hloaded
    refine wpe_seq (P := fun object w' => object = h ∧ w' = w.setObject h
      (some ⟨sealed.pub.contents, some (sealed.pub, sealed.priv), []⟩)) ⟨rfl, rfl⟩ ?_
    rintro h _ ⟨rfl, rfl⟩
    have htried := Tpm.unsealKey_tried hauth hname hl
    refine unsealLoaded_performs hl hnew auth (fun key hkey => ⟨?_, rfl⟩)
      fun hkey _ => ⟨⟨["unseal key with PIN", "wrong PIN"], ?_⟩, rfl⟩
    · rw [htried, hkey]
      rfl
    · rw [htried, hkey]
      rfl

/-- **Changing the lockout authValue** comes to the step of the TPM: the current value has to be
the right one. -/
theorem setLockoutAuth_performs (current new : SecretBytes) :
    Performs E (setLockoutAuth X primary current new)
      (fun _ w' => (current.length ≤ maxLockoutAuthLen ∧ new.length ≤ maxLockoutAuthLen) ∧
        w.tpm.lockoutAuth = current ∧
        w' = { w with tpm := { w.tpm with lockoutAuth := new }, lockoutAuth := new })
      (fun _ w' => (current.length ≤ maxLockoutAuthLen ∧ new.length ≤ maxLockoutAuthLen →
        w.tpm.lockoutAuth ≠ current) ∧ ∃ auth, w' = { w with lockoutAuth := auth }) w := by
  rcases lockoutAuthValue_cases X current with ⟨hcurrent, hlen⟩ | ⟨⟨e, hcurrent⟩, hlong⟩
  swap
  · unfold setLockoutAuth
    rw [hcurrent]
    exact wpe_seq (P := fun _ _ => False) ⟨fun h => absurd h.1 (not_le.2 hlong), _, rfl⟩
      fun _ _ => False.elim
  rcases lockoutAuthValue_cases X new with ⟨hnew, hlen'⟩ | ⟨⟨e, hnew⟩, hlong⟩
  swap
  · unfold setLockoutAuth
    rw [hcurrent, hnew]
    refine wpe_seq (P := fun _ w' => w' = w) rfl ?_
    rintro _ _ rfl
    exact wpe_seq (P := fun _ _ => False) ⟨fun h => absurd h.2 (not_le.2 hlong), _, rfl⟩
      fun _ _ => False.elim
  unfold setLockoutAuth
  rw [hcurrent, hnew]
  refine wpe_seq (P := fun auth w' => auth = current ∧ w' = w) ⟨rfl, rfl⟩ ?_
  rintro current w' ⟨rfl, rfl⟩
  refine wpe_seq (P := fun auth u => auth = new ∧ u = w') ⟨rfl, rfl⟩ ?_
  rintro new w ⟨rfl, rfl⟩
  refine wpe_step (P := fun _ u => u = { w with lockoutAuth := current })
    ((wpe_adapt ..).2 (esapi_performs fun _ _ => ?_)) (fun _ _ => False.elim) ?_
  · rfl
  rintro _ _ rfl
  refine wpe_step (startEncryptedSession_performs .hmac .session) (fun _ _ => False.elim) ?_
  rintro a _ ⟨-, hfree, rfl⟩
  have hclose : ∀ s : OpenSession, (({ w with lockoutAuth := current } : Context).setSession
      a.handle (some s)).setSession a.handle none = { w with lockoutAuth := current } := by
    intro s
    rw [Context.setSession_setSession, Context.setSession_self hfree]
  refine wpe_step (P := fun _ u => w.tpm.lockoutAuth = current ∧
      u = { w with tpm := { w.tpm with lockoutAuth := new }, lockoutAuth := current })
    (thenFlush_performs
      (F := fun u => w.tpm.lockoutAuth ≠ current ∧ u = { w with lockoutAuth := current })
      (esapi_performs fun _ _ => ?_)) ?_ ?_
  · have hopen := ({ w with lockoutAuth := current } : Context).sessions_setSession_same a.handle
      (some (encryptedSession .hmac primary))
    rw [perform, withSession_some hopen]
    split
    · rename_i hauth
      rw [Context.used_fresh hopen rfl rfl]
      refine ⟨by simp [Context.setSession], hauth, ?_⟩
      exact congrArg (fun u : Context => { u with tpm := { w.tpm with lockoutAuth := new } })
        (hclose _)
    · rename_i hauth
      exact ⟨by simp, hauth, hclose _⟩
  · rintro e _ ⟨hauth, rfl⟩
    exact ⟨fun _ => hauth, _, rfl⟩
  · rintro _ _ ⟨hauth, rfl⟩
    exact (wpe_adapt ..).2 (esapi_performs fun _ _ => ⟨⟨hlen, hlen'⟩, hauth, rfl⟩)

/-! ## The operations of the host -/

/-- What a run did is what an operation of the host did to its TPM, and nothing was left open. -/
structure RunsAs (w : Context) {ε α : Type} (r : Except ε α) (w' : Context)
    (host : Except Tess.Error α × Host) : Prop where
  result : r.toOption = host.1.toOption
  tpm : w'.tpm = host.2.tpm
  sessions : w'.sessions = w.sessions
  objects : w'.objects = w.objects

variable {h : Host} {w' : Context}

/-- A run of `seal` in which every call is performed is the operation of the host. -/
theorem sealSecret_refines (hp : HasPrimary E w primary) (htpm : w.tpm = h.tpm)
    {pin secret : SecretBytes} (hs : secret.length ≤ 32) {entropy : Bytes}
    {r : Except Error SealedObject}
    (hr : Returns (machine E performed) (sealSecret X primary pin secret entropy).run w r w') :
    RunsAs w r w' (Tess.exec E (.tpmSeal entropy pin secret) .ok h) := by
  have hspec : Performs E (sealSecret X primary pin secret entropy) _ _ w :=
    sealSecret_performs hp hs entropy
  rw [htpm] at hspec
  cases r with
  | ok sealed =>
    obtain ⟨hseal, rfl⟩ := returns_ok hspec hr
    exact ⟨congrArg Except.toOption hseal.symm, htpm, rfl, rfl⟩
  | error e =>
    obtain ⟨⟨e', hseal⟩, rfl⟩ := returns_error hspec hr
    exact ⟨congrArg Except.toOption hseal.symm, htpm, rfl, rfl⟩

/-- A run of `unseal` in which every call is performed is the operation of the host. -/
theorem unsealSealed_refines (hp : HasPrimary E w primary) (htpm : w.tpm = h.tpm)
    {sealed : SealedObject} {pin : SecretBytes} {r : Except Error SecretBytes}
    (hr : Returns (machine E performed) (unsealSealed X primary sealed pin).run w r w') :
    RunsAs w r w' (Tess.exec E (.tpmUnseal sealed pin) .ok h) := by
  have hspec : Performs E (unsealSealed X primary sealed pin) _ _ w :=
    unsealSealed_performs hp sealed pin
  rw [htpm] at hspec
  cases r with
  | ok key =>
    obtain ⟨hkey, rfl⟩ := returns_ok hspec hr
    refine ⟨congrArg (·.1.toOption) hkey.symm, ?_, rfl, rfl⟩
    rw [Tess.exec, hkey]
    exact htpm
  | error e =>
    obtain ⟨⟨e', hkey⟩, hw⟩ := returns_error hspec hr
    refine ⟨congrArg (·.1.toOption) hkey.symm, ?_, congrArg (·.sessions) hw,
      congrArg (·.objects) hw⟩
    rw [Tess.exec, hkey]
    rfl

/-- A run of `set_lockout_auth` in which every call is performed is the operation of the host. -/
theorem setLockoutAuth_refines (htpm : w.tpm = h.tpm) {current new : SecretBytes}
    {r : Except Error Unit}
    (hr : Returns (machine E performed) (setLockoutAuth X primary current new).run w r w') :
    RunsAs w r w' (Tess.exec E (.setLockoutAuth current new) .ok h) := by
  have hspec : Performs E (setLockoutAuth X primary current new) _ _ w :=
    setLockoutAuth_performs current new
  rw [htpm] at hspec
  cases r with
  | ok =>
    obtain ⟨⟨hlen, hlen'⟩, hauth, rfl⟩ := returns_ok hspec hr
    have hexec : Tess.exec E (.setLockoutAuth current new) .ok h =
        (.ok (), (h.attempt current).setLockoutAuth new) := by
      rw [Tess.exec, if_neg (by omega), if_neg (not_not.2 hauth)]
    rw [hexec]
    exact ⟨rfl, rfl, rfl, rfl⟩
  | error e =>
    obtain ⟨hfail, auth, rfl⟩ := returns_error hspec hr
    have hexec : (Tess.exec E (.setLockoutAuth current new) .ok h).1.toOption = none ∧
        (Tess.exec E (.setLockoutAuth current new) .ok h).2.tpm = h.tpm := by
      simp only [Tess.exec]
      split_ifs with hlong hauth
      · exact ⟨rfl, rfl⟩
      · exact ⟨rfl, rfl⟩
      · exact absurd (not_not.1 hauth) (hfail (by omega))
    exact ⟨hexec.1.symm, hexec.2.symm, rfl, rfl⟩

end Functions

end Esapi

end Tess

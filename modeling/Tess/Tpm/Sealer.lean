import Tess.Tpm.Refinement

/-!
# The sealer

A `TpmSealer` keeps one context with one storage primary, and serves requests with them. Any call of
a request may fail. Whatever fails, a request does to the TPM what the operation of the host does
under some fault, and leaves the primary where it is: a series of requests to the context is a series
of operations of the host.
-/

namespace Tess

open Files Effects

namespace Esapi

/-! ## Requests -/

/-- A request to a sealer. What the TPM draws to create an object is named by the request. -/
inductive Request where
  | seal (entropy : Bytes) (pin key : SecretBytes)
  | unseal (sealed : SealedObject) (pin : SecretBytes)
  | setLockoutAuth (current new : SecretBytes)

namespace Request

@[reducible] def Val : Request → Type
  | .seal .. => SealedObject
  | .unseal .. => SecretBytes
  | .setLockoutAuth .. => Unit

def serve (X : Conversions) (primary : Handle) : (q : Request) → Io q.Val
  | .seal entropy pin key => sealSecret X primary pin key entropy
  | .unseal sealed pin => unsealSealed X primary sealed pin
  | .setLockoutAuth current new => Esapi.setLockoutAuth X primary current new

/-- The operation of the host. -/
def onHost (E : Primitives) : (q : Request) → Fault → Host → Except Tess.Error q.Val × Host
  | .seal entropy pin key => Tess.exec E (.tpmSeal entropy pin key)
  | .unseal sealed pin => Tess.exec E (.tpmUnseal sealed pin)
  | .setLockoutAuth current new => Tess.exec E (.setLockoutAuth current new)

/-- What is to be sealed is not longer than a generated key. -/
def Fits : Request → Prop
  | .seal _ _ key => key.length ≤ 32
  | _ => True

end Request

/-- Requests with their answers, in order. -/
abbrev Exchange := List ((q : Request) × Option q.Val)

/-- A series of requests to one context. Any call may fail. -/
inductive Serves (E : Primitives) (X : Conversions) (primary : Handle) :
    Context → Exchange → Context → Prop
  | nil (w : Context) : Serves E X primary w [] w
  | cons {w w₁ w' : Context} {q : Request} {r : Except Error q.Val} {l : Exchange}
      (hr : Returns (machine E anyReply) (q.serve X primary).run w r w₁)
      (hl : Serves E X primary w₁ l w') : Serves E X primary w (⟨q, r.toOption⟩ :: l) w'

/-- The same series as operations of the host. Each comes with a fault. -/
inductive HostServes (E : Primitives) : Host → Exchange → Host → Prop
  | nil (h : Host) : HostServes E h [] h
  | cons {h h' : Host} {q : Request} {l : Exchange} (f : Fault)
      (hl : HostServes E (q.onHost E f h).2 l h') :
      HostServes E h (⟨q, (q.onHost E f h).1.toOption⟩ :: l) h'

/-! ## Calls that leave the TPM alone -/

/-- What a program comes to whichever calls fail. -/
abbrev Faulty (E : Primitives) {ε α : Type} (x : ExceptT ε (Prog Call.Res) α)
    (Q : α → Context → Prop) (F : ε → Context → Prop) (w : Context) : Prop :=
  wpe (machine E anyReply) Eq (fun _ _ => True) x Q F w

/-- The TPM is as it was, and so are the loaded objects and the authValue of the lockout
hierarchy. -/
structure Same (w w' : Context) : Prop where
  tpm : w'.tpm = w.tpm
  objects : w'.objects = w.objects
  lockoutAuth : w'.lockoutAuth = w.lockoutAuth

/-- Calls that change no more than sessions. -/
def SessionOnly : Call → Prop
  | .load .. | .tpm2Unseal .. | .hierarchyChangeAuth .. | .trSetAuth .. => False
  | .flushContext (.transient _) => False
  | _ => True

section Calls

variable {E : Primitives} {w w₁ w₂ : Context}

theorem Same.refl (w : Context) : Same w w := ⟨rfl, rfl, rfl⟩

theorem Same.trans (h : Same w w₁) (h' : Same w₁ w₂) : Same w w₂ :=
  ⟨h'.tpm.trans h.tpm, h'.objects.trans h.objects, h'.lockoutAuth.trans h.lockoutAuth⟩

theorem same_setSession (h : Handle) (s : Option OpenSession) : Same w (w.setSession h s) :=
  ⟨rfl, rfl, rfl⟩

theorem same_used (h : Handle) (s : OpenSession) : Same w (w.used h s) := same_setSession ..

theorem same_withSession {α : Type} {s : AuthSession}
    {f : OpenSession → Except EsapiError α × Context} (hf : ∀ x, Same w (f x).2) :
    Same w (withSession w s f).2 := by
  cases hx : w.sessions s.handle with
  | none =>
    rw [withSession_none hx]
    exact .refl w
  | some x =>
    rw [withSession_some hx]
    exact hf x

theorem same_withObject {α : Type} {h : Handle}
    {f : LoadedObject → Except EsapiError α × Context} (hf : ∀ x, Same w (f x).2) :
    Same w (withObject w h f).2 := by
  cases hx : w.objects h with
  | none =>
    rw [withObject_none hx]
    exact .refl w
  | some x =>
    rw [withObject_some hx]
    exact hf x

theorem same_exec {o : Call} (ho : SessionOnly o) (r : Reply) : Same w (exec E o r w).2 := by
  cases r with
  | failed e => exact .refl w
  | noHandle => cases o <;> exact .refl w
  | ok h =>
    cases o with
    | load | tpm2Unseal | hierarchyChangeAuth | trSetAuth => exact ho.elim
    | trGetName object => exact same_withObject fun _ => .refl w
    | startAuthSession => exact same_setSession ..
    | trSessSetAttributes => exact same_withSession fun _ => same_setSession ..
    | policyAuthValue => exact same_withSession fun _ => same_setSession ..
    | policyGetDigest => exact same_withSession fun _ => .refl w
    | create =>
      refine same_withSession fun _ => same_withObject fun _ => ?_
      split
      · exact same_used ..
      · exact .refl w
    | flushContext handle =>
      cases handle with
      | lockout => exact .refl w
      | transient => exact ho.elim
      | session => exact same_withSession fun _ => same_setSession ..

/-- A program of such calls. -/
theorem same_faulty {ε α : Type} {x : ExceptT ε (Prog Call.Res) α} (hx : AllOps SessionOnly x) :
    Faulty E x (fun _ => Same w) (fun _ => Same w) w :=
  wpe_all hx (fun _ _ => Eq.subst) (fun _ _ c ho _ h => ⟨trivial, h.trans (same_exec ho c)⟩)
    (.refl w)

theorem esapi_faulty {o : Call} {Q : o.Val → Context → Prop} {F : EsapiError → Context → Prop}
    (h : ∀ r, Possible w o r → outcome Q F (exec E o r w).1 (exec E o r w).2) :
    Faulty E (esapi o) Q F w :=
  (wp_call_alone ..).2 fun r hr => ⟨trivial, h r hr.1⟩

theorem sessionOnly_esapi {o : Call} (ho : SessionOnly o) : AllOps SessionOnly (esapi o) :=
  ⟨ho, fun _ => trivial⟩

theorem AllOps.mapErr {α : Type} {x : EsapiIo α} (hx : AllOps SessionOnly x)
    (f : EsapiError → Error) : AllOps SessionOnly (mapErr f x) := hx.adapt f

theorem sessionOnly_ofResult {ε α : Type} (r : Except ε α) :
    AllOps SessionOnly (ofResult r : ExceptT ε (Prog Call.Res) α) := trivial

theorem sessionOnly_flush (h : Handle) : AllOps SessionOnly (flush (.session h)) :=
  AllOps.mapErr (sessionOnly_esapi (o := .flushContext (.session h)) trivial) _

theorem sessionOnly_attempt {ε ε' α : Type} {x : ExceptT ε (Prog Call.Res) α}
    (hx : AllOps SessionOnly x) :
    AllOps SessionOnly (attempt x : ExceptT ε' (Prog Call.Res) (Except ε α)) := allOps_lift hx

theorem sessionOnly_thenFlush {α : Type} {x : EsapiIo α} (hx : AllOps SessionOnly x)
    (f : EsapiError → Error) (h : Handle) : AllOps SessionOnly (thenFlush x f (.session h)) :=
  (sessionOnly_attempt hx).bind fun _ => (sessionOnly_attempt (sessionOnly_flush h)).bind fun _ =>
    (sessionOnly_ofResult _).bind fun _ => (sessionOnly_ofResult _).bind fun _ => trivial

theorem sessionOnly_startEncryptedSession (type : SessionType) (f : String → Error)
    (primary : Handle) : AllOps SessionOnly (startEncryptedSession type f primary) :=
  (AllOps.mapErr (sessionOnly_esapi (o := .startAuthSession (some primary) type) trivial) _).bind
    fun _ => (sessionOnly_ofResult _).bind fun session =>
      (AllOps.mapErr (sessionOnly_esapi (o := .trSessSetAttributes session _ _) trivial) _).bind
        fun _ => trivial

theorem sessionOnly_policyAuthValueDigest : AllOps SessionOnly policyAuthValueDigest :=
  (AllOps.mapErr (sessionOnly_esapi (o := .startAuthSession none .trial) trivial) _).bind
    fun _ => (sessionOnly_ofResult _).bind fun _ =>
      sessionOnly_thenFlush ((sessionOnly_ofResult _).bind fun session =>
        (sessionOnly_esapi (o := .policyAuthValue session) trivial).bind fun _ =>
          sessionOnly_esapi (o := .policyGetDigest session) trivial) _ _

end Calls

/-! ## What the functions do -/

section Functions

variable {E : Primitives} {X : Conversions} {w : Context} {primary : Handle}

/-- A program under a session, which is then flushed or not. What it did when it succeeded is one of
the things it may have done when the whole fails. -/
theorem thenFlush_faulty {α : Type} {x : EsapiIo α} {f : EsapiError → Error} {h : Handle}
    {Q : α → Context → Prop} {F : Context → Prop} (hx : Faulty E x Q (fun _ => F) w)
    (hQ : ∀ {a w w'}, Same w w' → Q a w → Q a w') (hF : ∀ {w w'}, Same w w' → F w → F w')
    (hlate : ∀ {a w}, Q a w → F w) :
    Faulty E (thenFlush x f (.session h)) Q (fun _ => F) w := by
  refine wpe_seq (P := fun r => outcome Q (fun _ => F) r) ((wpe_attempt ..).2 hx) ?_
  intro r w₁ hr
  refine wpe_seq (P := fun _ => outcome Q (fun _ => F) r) ((wpe_attempt ..).2
    (wpe_mono (same_faulty (sessionOnly_flush h)) ?_ ?_)) ?_
  · intro _ w₂ hsame
    cases r with
    | ok a => exact hQ hsame hr
    | error e => exact hF hsame hr
  · intro _ w₂ hsame
    cases r with
    | ok a => exact hQ hsame hr
    | error e => exact hF hsame hr
  intro flushed w₂ hr
  cases r with
  | error e => exact wpe_seq (P := fun _ _ => False) hr fun _ _ => False.elim
  | ok a =>
    refine wpe_seq (P := fun b w' => b = a ∧ w' = w₂) ⟨rfl, rfl⟩ ?_
    rintro _ _ ⟨rfl, rfl⟩
    exact wpe_seq (P := fun _ => Q _) (wpe_ofResult (fun _ _ => hr) fun _ _ => hlate hr)
      fun _ _ => id

theorem primaryName_faulty (hp : HasPrimary E w primary) :
    Faulty E (primaryName primary) (fun name w' => name = E.primaryName w.tpm.seed ∧ Same w w')
      (fun _ => Same w) w := by
  refine (wpe_adapt ..).2 (esapi_faulty fun r _ => ?_)
  obtain ⟨x, hx, hname⟩ := hp
  cases r with
  | failed e => exact .refl w
  | noHandle => exact .refl w
  | ok h =>
    rw [exec, perform, withObject_some hx]
    exact ⟨hname, .refl w⟩

theorem HasPrimary.of_same {w' : Context} (hp : HasPrimary E w primary) (h : Same w w') :
    HasPrimary E w' primary := by
  obtain ⟨x, hx, hname⟩ := hp
  exact ⟨x, by rw [h.objects, hx], by rw [h.tpm, hname]⟩

/-- An object is created from what was asked for. -/
theorem create_faulty (primary : Handle) (s : AuthSession) (template : Template)
    (auth sensitive entropy : Bytes) :
    Faulty E (esapi (.create s primary template auth sensitive entropy))
      (fun created w' => created = E.create w.tpm.seed entropy auth sensitive ∧ Same w w')
      (fun _ => Same w) w := by
  refine esapi_faulty fun r _ => ?_
  cases r with
  | failed e => exact .refl w
  | noHandle => exact .refl w
  | ok h =>
    rw [exec, perform]
    cases hs : w.sessions s.handle with
    | none =>
      rw [withSession_none hs]
      exact .refl w
    | some x =>
      rw [withSession_some hs]
      cases hx : w.objects primary with
      | none =>
        rw [withObject_none hx]
        exact .refl w
      | some y =>
        rw [withObject_some hx]
        split
        · exact ⟨rfl, same_used ..⟩
        · exact .refl w

/-- **Sealing**: what it returns is what the TPM of the host returns. -/
theorem sealSecret_faulty (hp : HasPrimary E w primary) {pin secret : SecretBytes}
    (hs : secret.length ≤ 32) (entropy : Bytes) :
    Faulty E (sealSecret X primary pin secret entropy)
      (fun sealed w' => w.tpm.sealKey E entropy pin secret = .ok sealed ∧ Same w w')
      (fun _ => Same w) w := by
  unfold sealSecret
  rw [X.sensitiveData_ok hs]
  rcases pinToAuth_cases X pin with ⟨hpin, hauth⟩ | ⟨⟨e, hpin⟩, -⟩
  swap
  · rw [hpin]
    exact wpe_seq (P := fun _ _ => False) (Same.refl w) fun _ _ => False.elim
  rw [hpin]
  refine wpe_seq (P := fun auth w' => auth = pin ∧ w' = w) ⟨rfl, rfl⟩ ?_
  rintro auth w ⟨rfl, rfl⟩
  refine wpe_step (same_faulty sessionOnly_policyAuthValueDigest) (fun _ _ => id) ?_
  intro digest w₁ h₁
  refine wpe_seq (P := fun _ w' => w' = w₁) (wpe_ofResult (fun _ _ => rfl) fun _ _ => h₁) ?_
  rintro template w₁ rfl
  refine wpe_seq (P := fun sensitive w' => sensitive = secret ∧ w' = w₁) ⟨rfl, rfl⟩ ?_
  rintro _ w₁ ⟨rfl, rfl⟩
  refine wpe_step (primaryName_faulty (hp.of_same h₁)) (fun _ _ => h₁.trans) ?_
  rintro _ w₂ ⟨rfl, h₂⟩
  refine wpe_step (same_faulty (sessionOnly_startEncryptedSession .hmac .session primary))
    (fun _ _ h => (h₁.trans h₂).trans h) ?_
  intro session w₃ h₃
  have hsame := (h₁.trans h₂).trans h₃
  refine wpe_step (thenFlush_faulty (create_faulty _ _ _ _ _ _)
      (fun h hr => ⟨hr.1, hr.2.trans h⟩) (fun h h' => h'.trans h) fun h => h.2)
    (fun _ _ => hsame.trans) ?_
  rintro _ w₄ ⟨rfl, h₄⟩
  refine ⟨?_, hsame.trans h₄⟩
  rw [Tpm.sealKey, hauth, ← h₁.tpm, hsame.tpm, h₁.tpm]

/-- The TPM is `t`, and the primary is what it was. -/
structure Leaves (w : Context) (primary : Handle) (t : Tpm) (w' : Context) : Prop where
  tpm : w'.tpm = t
  primary : w'.objects primary = w.objects primary

theorem Same.leaves {w' : Context} (h : Same w w') : Leaves w primary w.tpm w' :=
  ⟨h.tpm, congrFun h.objects primary⟩

theorem Leaves.of_same {t : Tpm} {w₁ w₂ : Context} (h : Leaves w primary t w₁) (hs : Same w₁ w₂) :
    Leaves w primary t w₂ :=
  ⟨hs.tpm.trans h.tpm, (congrFun hs.objects primary).trans h.primary⟩

theorem Leaves.hasPrimary {t : Tpm} {w' : Context} (h : Leaves w primary t w')
    (hp : HasPrimary E w primary) (ht : t.seed = w.tpm.seed) : HasPrimary E w' primary := by
  obtain ⟨x, hx, hname⟩ := hp
  exact ⟨x, by rw [h.primary, hx], by rw [h.tpm, ht, hname]⟩

/-- Nothing was done, or the attempt failed and was counted. -/
def Refused (E : Primitives) (w : Context) (primary : Handle) (b : Public × Bytes) (auth : Bytes)
    (w' : Context) : Prop :=
  Leaves w primary w.tpm w' ∨
    w.tpm.lockout.isLockedOut = false ∧ E.unsealData w.tpm.seed b.1 b.2 auth = none ∧
      Leaves w primary w.counted.tpm w'

/-- The attempt succeeded. -/
def Released (E : Primitives) (w : Context) (primary : Handle) (b : Public × Bytes) (auth : Bytes)
    (key : SecretBytes) (w' : Context) : Prop :=
  w.tpm.lockout.isLockedOut = false ∧ E.unsealData w.tpm.seed b.1 b.2 auth = some key ∧
    Leaves w primary w.tpm w'

/-- The blobs are loaded under a handle of their own. -/
structure Loaded (w : Context) (primary h : Handle) (b : Public × Bytes) (auth : Bytes)
    (w' : Context) : Prop where
  leaves : Leaves w primary w.tpm w'
  ne : primary ≠ h
  object : ∃ name, w'.objects h = some ⟨name, some b, auth⟩

theorem Loaded.of_same {h : Handle} {b : Public × Bytes} {auth : Bytes} {w₁ w₂ : Context}
    (hl : Loaded w primary h b auth w₁) (hs : Same w₁ w₂) : Loaded w primary h b auth w₂ := by
  obtain ⟨name, hx⟩ := hl.object
  exact ⟨hl.leaves.of_same hs, hl.ne, name, by rw [hs.objects, hx]⟩

theorem load_faulty (hp : HasPrimary E w primary) {s : AuthSession} {priv : Bytes} {pub : Public} :
    Faulty E (esapi (.load s primary priv pub)) (fun h => Loaded w primary h (pub, priv) [])
      (fun _ => Leaves w primary w.tpm) w := by
  refine esapi_faulty fun r hr => ?_
  obtain ⟨y, hy, -⟩ := hp
  cases r with
  | failed e => exact (Same.refl w).leaves
  | noHandle => exact (Same.refl w).leaves
  | ok h =>
    have hne : primary ≠ h := by
      rintro rfl
      exact Option.some_ne_none y (hy.symm.trans hr.2)
    rw [exec, perform]
    cases hs : w.sessions s.handle with
    | none =>
      rw [withSession_none hs]
      exact (Same.refl w).leaves
    | some x =>
      rw [withSession_some hs, withObject_some hy]
      split
      · exact (Same.refl w).leaves
      · exact ⟨⟨rfl, Function.update_of_ne hne ..⟩, hne, pub.contents,
          Context.objects_setObject_same ..⟩

theorem trSetAuth_faulty {h : Handle} {b : Public × Bytes} {w₁ : Context}
    (hl : Loaded w primary h b [] w₁) (auth : Bytes) :
    Faulty E (esapi (.trSetAuth (.transient h) auth)) (fun _ => Loaded w primary h b auth)
      (fun _ => Leaves w primary w.tpm) w₁ := by
  refine esapi_faulty fun r _ => ?_
  obtain ⟨name, hx⟩ := hl.object
  cases r with
  | failed e => exact hl.leaves
  | noHandle => exact hl.leaves
  | ok _ =>
    rw [exec, perform, withObject_some hx]
    exact ⟨⟨hl.leaves.tpm, (Function.update_of_ne hl.ne ..).trans hl.leaves.primary⟩, hl.ne, name,
      Context.objects_setObject_same ..⟩

/-- Unsealing what is loaded: a failure is counted when it is one of the authValue. -/
theorem tpm2Unseal_faulty {a : AuthSession} {h : Handle} {b : Public × Bytes} {auth : Bytes}
    {w₁ : Context} (hl : Loaded w primary h b auth w₁) :
    Faulty E (esapi (.tpm2Unseal a h)) (Released E w primary b auth)
      (fun _ => Refused E w primary b auth) w₁ := by
  refine esapi_faulty fun r _ => ?_
  obtain ⟨name, hx⟩ := hl.object
  have htpm := hl.leaves.tpm
  cases r with
  | failed e => exact .inl hl.leaves
  | noHandle => exact .inl hl.leaves
  | ok _ =>
    rw [exec, perform]
    cases hs : w₁.sessions a.handle with
    | none =>
      rw [withSession_none hs]
      exact .inl hl.leaves
    | some s =>
      rw [withSession_some hs, withObject_some hx, unsealData]
      split_ifs with hpolicy hlocked
      · exact .inl hl.leaves
      · exact .inl hl.leaves
      have hfree : w.tpm.lockout.isLockedOut = false := by
        rw [← htpm]
        exact Bool.eq_false_iff.2 hlocked
      simp only [Option.bind_some]
      cases hd : E.unsealData w₁.tpm.seed b.1 b.2 auth with
      | some data => exact ⟨hfree, htpm ▸ hd, hl.leaves.of_same (same_used ..)⟩
      | none =>
        exact .inr ⟨hfree, htpm ▸ hd, by rw [Context.counted, ← htpm], hl.leaves.primary⟩

theorem Refused.of_same {b : Public × Bytes} {auth : Bytes} {w₁ w₂ : Context} (hs : Same w₁ w₂) :
    Refused E w primary b auth w₁ → Refused E w primary b auth w₂ :=
  Or.imp (·.of_same hs) (.imp_right (.imp_right (·.of_same hs)))

theorem Released.of_same {b : Public × Bytes} {auth : Bytes} {key : SecretBytes} {w₁ w₂ : Context}
    (hs : Same w₁ w₂) (h : Released E w primary b auth key w₁) :
    Released E w primary b auth key w₂ := ⟨h.1, h.2.1, h.2.2.of_same hs⟩

theorem unsealWithPolicy_faulty {h : Handle} {b : Public × Bytes} {w₁ : Context}
    (hl : Loaded w primary h b [] w₁) (auth : Bytes) :
    Faulty E (unsealWithPolicy primary h auth) (Released E w primary b auth)
      (fun _ => Refused E w primary b auth) w₁ := by
  refine wpe_step ((wpe_adapt ..).2 (trSetAuth_faulty hl auth)) (fun _ _ => .inl) ?_
  intro _ w₂ h₂
  refine wpe_step (same_faulty (sessionOnly_startEncryptedSession .policy .policy primary))
    (fun _ _ h => .inl (h₂.leaves.of_same h)) ?_
  intro policy w₃ h₃
  have h₃ := h₂.of_same h₃
  refine thenFlush_faulty ?_ Released.of_same Refused.of_same fun h => .inl h.2.2
  refine wpe_seq (P := fun _ w' => w' = w₃)
    (wpe_ofResult (fun _ _ => rfl) fun _ _ => .inl h₃.leaves) ?_
  rintro session w₃ rfl
  refine wpe_step (same_faulty (sessionOnly_esapi (o := .policyAuthValue session) trivial))
    (fun _ _ h => .inl (h₃.leaves.of_same h)) ?_
  intro _ w₄ h₄
  exact tpm2Unseal_faulty (h₃.of_same h₄)

/-- Flushing the object leaves the primary. -/
theorem flushObject_faulty {h : Handle} {t : Tpm} {w₁ : Context} (hne : primary ≠ h)
    (hl : Leaves w primary t w₁) :
    Faulty E (flush (.transient h)) (fun _ => Leaves w primary t)
      (fun _ => Leaves w primary t) w₁ := by
  refine (wpe_adapt ..).2 (esapi_faulty fun r _ => ?_)
  cases r with
  | failed e => exact hl
  | noHandle => exact hl
  | ok _ =>
    rw [exec, perform]
    cases hx : w₁.objects h with
    | none =>
      rw [withObject_none hx]
      exact hl
    | some x =>
      rw [withObject_some hx]
      exact ⟨hl.tpm, (Function.update_of_ne hne ..).trans hl.primary⟩

theorem verifyPrimaryName_faulty (hp : HasPrimary E w primary) (expected : Bytes) :
    Faulty E (verifyPrimaryName primary expected)
      (fun _ w' => ¬ (expected = [] ∨ E.primaryName w.tpm.seed ≠ expected) ∧ Same w w')
      (fun _ => Same w) w := by
  refine wpe_step (primaryName_faulty hp) (fun _ _ => id) ?_
  rintro _ w' ⟨rfl, hsame⟩
  by_cases h : expected = [] ∨ E.primaryName w.tpm.seed ≠ expected
  · rw [if_neg (by simpa [primaryNameMatches, imp_iff_not_or] using h)]
    exact hsame
  · rw [if_pos (by simpa [primaryNameMatches] using h)]
    exact ⟨h, hsame⟩

/-- The object is flushed, and then the result is looked at. -/
theorem flushThen_faulty {h : Handle} (hne : primary ≠ h) {b : Public × Bytes} {auth : Bytes}
    {result : Except Error SecretBytes} {w₁ : Context}
    (hr : outcome (Released E w primary b auth) (fun _ => Refused E w primary b auth) result w₁) :
    Faulty E (do
        let objectFlushed ← (attempt (flush (.transient h)) : Io _)
        let secret ← ofResult result
        ofResult objectFlushed
        pure secret) (Released E w primary b auth) (fun _ => Refused E w primary b auth) w₁ := by
  cases result with
  | error e =>
    refine wpe_seq (P := fun _ => Refused E w primary b auth) ((wpe_attempt ..).2 ?_) ?_
    · rcases hr with hr | ⟨hfree, hd, hr⟩
      · exact wpe_mono (flushObject_faulty hne hr) (fun _ _ => .inl) fun _ _ => .inl
      · exact wpe_mono (flushObject_faulty hne hr) (fun _ _ h => .inr ⟨hfree, hd, h⟩)
          fun _ _ h => .inr ⟨hfree, hd, h⟩
    · intro _ w₂ h₂
      exact wpe_seq (P := fun _ _ => False) h₂ fun _ _ => False.elim
  | ok key =>
    obtain ⟨hfree, hd, hr⟩ := hr
    have hflush := flushObject_faulty (E := E) hne hr
    refine wpe_seq (P := fun _ => Leaves w primary w.tpm)
      ((wpe_attempt ..).2 (wpe_mono hflush (fun _ _ => id) fun _ _ => id)) ?_
    intro objectFlushed w₂ h₂
    refine wpe_seq (P := fun k w' => k = key ∧ w' = w₂) ⟨rfl, rfl⟩ ?_
    rintro _ w₂ ⟨rfl, rfl⟩
    exact wpe_seq (P := fun _ w' => w' = w₂) (wpe_ofResult (fun _ _ => rfl) fun _ _ => .inl h₂)
      fun _ _ h => ⟨hfree, hd, h ▸ h₂⟩

/-- **Unsealing** does what the TPM of the host does, or nothing. -/
theorem unsealSealed_faulty (hp : HasPrimary E w primary) (sealed : SealedObject)
    (pin : SecretBytes) :
    Faulty E (unsealSealed X primary sealed pin)
      (fun key w' => w.tpm.unsealKey E sealed pin = (.ok key, w.tpm) ∧ Leaves w primary w.tpm w')
      (fun _ w' => Leaves w primary w.tpm w' ∨
        (∃ e, w.tpm.unsealKey E sealed pin = (.error e, w.counted.tpm)) ∧
          Leaves w primary w.counted.tpm w') w := by
  unfold unsealSealed
  rcases pinToAuth_cases X pin with ⟨hpin, hauth⟩ | ⟨⟨e, hpin⟩, -⟩
  swap
  · rw [hpin]
    exact wpe_seq (P := fun _ _ => False) (.inl (Same.refl w).leaves) fun _ _ => False.elim
  rw [hpin]
  refine wpe_seq (P := fun auth w' => auth = pin ∧ w' = w) ⟨rfl, rfl⟩ ?_
  rintro auth w ⟨rfl, rfl⟩
  refine wpe_step (verifyPrimaryName_faulty hp _) (fun _ _ h => .inl h.leaves) ?_
  rintro _ w₁ ⟨hname, h₁⟩
  refine wpe_step (same_faulty (sessionOnly_startEncryptedSession .hmac .session primary))
    (fun _ _ h => .inl (h₁.trans h).leaves) ?_
  intro session w₂ h₂
  have h₂ := h₁.trans h₂
  have htried := fun hl => Tpm.unsealKey_tried (t := w.tpm) hauth hname hl
  have hleaves : ∀ {t w'}, Leaves w₂ primary t w' → Leaves w primary t w' := fun h =>
    ⟨h.tpm, h.primary.trans (congrFun h₂.objects primary)⟩
  refine wpe_seq
    (P := outcome (fun h => Loaded w₂ primary h (sealed.pub, sealed.priv) [])
      fun _ => Leaves w₂ primary w₂.tpm)
    ((wpe_attempt ..).2 (load_faulty (hp.of_same h₂))) ?_
  intro loaded w₃ h₃
  refine wpe_seq
    (P := fun _ => outcome (fun h => Loaded w₂ primary h (sealed.pub, sealed.priv) [])
      (fun _ => Leaves w₂ primary w₂.tpm) loaded)
    ((wpe_attempt ..).2 (wpe_mono (same_faulty (sessionOnly_flush session.handle)) ?_ ?_)) ?_
  · intro _ w₄ h₄
    cases loaded with
    | ok h => exact h₃.of_same h₄
    | error e => exact h₃.of_same h₄
  · intro _ w₄ h₄
    cases loaded with
    | ok h => exact h₃.of_same h₄
    | error e => exact h₃.of_same h₄
  intro flushed w₄ h₄
  cases loaded with
  | error e =>
    refine wpe_seq (P := fun _ _ => False) (.inl ?_) fun _ _ => False.elim
    exact h₂.tpm ▸ hleaves h₄
  | ok h =>
    refine wpe_seq (P := fun object w' => object = h ∧ w' = w₄) ⟨rfl, rfl⟩ ?_
    rintro h w₄ ⟨rfl, rfl⟩
    refine wpe_mono (Q := Released E w₂ primary (sealed.pub, sealed.priv) auth)
      (E := fun _ => Refused E w₂ primary (sealed.pub, sealed.priv) auth) ?_ ?_ ?_
    · cases flushed with
      | error e => exact wpe_seq (.inl h₄.leaves) fun _ _ => flushThen_faulty h₄.ne
      | ok =>
        exact wpe_seq ((wpe_attempt ..).2 (unsealWithPolicy_faulty h₄ auth))
          fun _ _ => flushThen_faulty h₄.ne
    · rintro key w₅ ⟨hfree, hd, h₅⟩
      rw [h₂.tpm] at hfree hd
      refine ⟨?_, h₂.tpm ▸ hleaves h₅⟩
      rw [htried hfree, hd]
      rfl
    · rintro e w₅ (h₅ | ⟨hfree, hd, h₅⟩)
      · exact .inl (h₂.tpm ▸ hleaves h₅)
      · rw [h₂.tpm] at hfree hd
        have hcounted : w₂.counted.tpm = w.counted.tpm := by
          rw [Context.counted, Context.counted, h₂.tpm]
        refine .inr ⟨⟨["unseal key with PIN", "wrong PIN"], ?_⟩, hcounted ▸ hleaves h₅⟩
        rw [htried hfree, hd]
        rfl

/-- **Changing the lockout authValue** does what the TPM of the host does, or nothing. -/
theorem setLockoutAuth_faulty (current new : SecretBytes) :
    Faulty E (setLockoutAuth X primary current new)
      (fun _ w' => (current.length ≤ maxLockoutAuthLen ∧ new.length ≤ maxLockoutAuthLen) ∧
        w.tpm.lockoutAuth = current ∧
        Leaves w primary { w.tpm with lockoutAuth := new } w')
      (fun _ w' => Leaves w primary w.tpm w' ∨
        (current.length ≤ maxLockoutAuthLen ∧ new.length ≤ maxLockoutAuthLen) ∧
          w.tpm.lockoutAuth = current ∧
          Leaves w primary { w.tpm with lockoutAuth := new } w') w := by
  unfold setLockoutAuth
  rcases lockoutAuthValue_cases X current with ⟨hcurrent, hlen⟩ | ⟨⟨e, hcurrent⟩, -⟩
  swap
  · rw [hcurrent]
    exact wpe_seq (P := fun _ _ => False) (.inl (Same.refl w).leaves) fun _ _ => False.elim
  rcases lockoutAuthValue_cases X new with ⟨hnew, hlen'⟩ | ⟨⟨e, hnew⟩, -⟩
  swap
  · rw [hcurrent, hnew]
    refine wpe_seq (P := fun _ w' => w' = w) rfl ?_
    rintro _ w rfl
    exact wpe_seq (P := fun _ _ => False) (.inl (Same.refl w).leaves) fun _ _ => False.elim
  rw [hcurrent, hnew]
  refine wpe_seq (P := fun auth w' => auth = current ∧ w' = w) ⟨rfl, rfl⟩ ?_
  rintro current w ⟨rfl, rfl⟩
  refine wpe_seq (P := fun auth w' => auth = new ∧ w' = w) ⟨rfl, rfl⟩ ?_
  rintro new w ⟨rfl, rfl⟩
  have hset : Faulty E (esapi (.trSetAuth .lockout current))
      (fun _ w' => Leaves w primary w.tpm w' ∧ w'.lockoutAuth = current)
      (fun _ => Leaves w primary w.tpm) w := by
    refine esapi_faulty fun r _ => ?_
    cases r with
    | failed e => exact (Same.refl w).leaves
    | noHandle => exact (Same.refl w).leaves
    | ok _ => exact ⟨⟨rfl, rfl⟩, rfl⟩
  refine wpe_step ((wpe_adapt ..).2 hset) (fun _ _ => .inl) ?_
  rintro _ w₁ ⟨h₁, hauth⟩
  refine wpe_step (same_faulty (sessionOnly_startEncryptedSession .hmac .session primary))
    (fun _ _ h => .inl (h₁.of_same h)) ?_
  intro session w₂ h₂
  have hauth : w₂.lockoutAuth = current := h₂.lockoutAuth.trans hauth
  have h₂ := h₁.of_same h₂
  refine wpe_step (P := fun _ w' => w.tpm.lockoutAuth = current ∧
      Leaves w primary { w.tpm with lockoutAuth := new } w')
    (thenFlush_faulty (F := fun w' => Leaves w primary w.tpm w' ∨ w.tpm.lockoutAuth = current ∧
      Leaves w primary { w.tpm with lockoutAuth := new } w') (esapi_faulty fun r _ => ?_)
      (fun hs h => ⟨h.1, h.2.of_same hs⟩) (fun hs => Or.imp (·.of_same hs)
        (.imp_right (·.of_same hs))) .inr) (fun _ _ => Or.imp_right (⟨⟨hlen, hlen'⟩, ·⟩)) ?_
  · cases r with
    | failed e => exact .inl h₂
    | noHandle => exact .inl h₂
    | ok _ =>
      rw [exec, perform]
      cases hs : w₂.sessions session.handle with
      | none =>
        rw [withSession_none hs]
        exact .inl h₂
      | some x =>
        rw [withSession_some hs, h₂.tpm, hauth]
        split
        · rename_i hheld
          exact ⟨hheld, rfl, h₂.primary⟩
        · exact .inl h₂
  rintro _ w₃ ⟨hheld, h₃⟩
  refine (wpe_adapt ..).2 (esapi_faulty fun r _ => ?_)
  cases r with
  | failed e => exact .inr ⟨⟨hlen, hlen'⟩, hheld, h₃⟩
  | noHandle => exact .inr ⟨⟨hlen, hlen'⟩, hheld, h₃⟩
  | ok _ => exact ⟨⟨hlen, hlen'⟩, hheld, h₃.tpm, h₃.primary⟩

end Functions

/-! ## One request -/

section Request

variable {E : Primitives} {X : Conversions} {w w' : Context} {primary : Handle} {h : Host}

/-- The answer and the TPM after a request are those of the host under the fault `f`. -/
structure Agree (E : Primitives) (primary : Handle) {q : Request} (r : Except Error q.Val)
    (w' : Context) (host : Except Tess.Error q.Val × Host) : Prop where
  answer : r.toOption = host.1.toOption
  tpm : w'.tpm = host.2.tpm
  primary : HasPrimary E w' primary

theorem seal_agrees (hp : HasPrimary E w primary) (htpm : w.tpm = h.tpm) {entropy : Bytes}
    {pin key : SecretBytes} (hk : key.length ≤ 32) {r : Except Error SealedObject}
    (hr : Returns (machine E anyReply) (sealSecret X primary pin key entropy).run w r w') :
    ∃ f, Agree E primary (q := .seal entropy pin key) r w'
      (Tess.exec E (.tpmSeal entropy pin key) f h) := by
  have hspec : Faulty E (sealSecret X primary pin key entropy) _ _ w :=
    sealSecret_faulty hp hk entropy
  cases r with
  | ok sealed =>
    obtain ⟨hseal, hsame⟩ := returns_ok hspec hr
    rw [htpm] at hseal
    exact ⟨.ok, congrArg Except.toOption hseal.symm, hsame.tpm.trans htpm, hp.of_same hsame⟩
  | error e =>
    have hsame : Same w w' := returns_error (E := fun _ => Same w) hspec hr
    exact ⟨.fail, rfl, hsame.tpm.trans htpm, hp.of_same hsame⟩

theorem unseal_agrees (hp : HasPrimary E w primary) (htpm : w.tpm = h.tpm)
    {sealed : SealedObject} {pin : SecretBytes} {r : Except Error SecretBytes}
    (hr : Returns (machine E anyReply) (unsealSealed X primary sealed pin).run w r w') :
    ∃ f, Agree E primary (q := .unseal sealed pin) r w'
      (Tess.exec E (.tpmUnseal sealed pin) f h) := by
  have hspec : Faulty E (unsealSealed X primary sealed pin) _ _ w :=
    unsealSealed_faulty hp sealed pin
  have hexec : Tess.exec E (.tpmUnseal sealed pin) .ok h =
      ((w.tpm.unsealKey E sealed pin).1, h.setTpm (w.tpm.unsealKey E sealed pin).2) := by
    rw [Tess.exec, htpm]
  cases r with
  | ok key =>
    obtain ⟨hkey, hl⟩ := returns_ok hspec hr
    refine ⟨.ok, ?_, ?_, hl.hasPrimary hp rfl⟩
    · rw [hexec, hkey]
      rfl
    · rw [hexec, hkey]
      exact hl.tpm
  | error e =>
    rcases returns_error hspec hr with hl | ⟨⟨e', hkey⟩, hl⟩
    · exact ⟨.fail, rfl, hl.tpm.trans htpm, hl.hasPrimary hp rfl⟩
    · refine ⟨.ok, ?_, ?_, hl.hasPrimary hp rfl⟩
      · rw [hexec, hkey]
        rfl
      · rw [hexec, hkey]
        exact hl.tpm

theorem setLockoutAuth_agrees (hp : HasPrimary E w primary) (htpm : w.tpm = h.tpm)
    {current new : SecretBytes} {r : Except Error Unit}
    (hr : Returns (machine E anyReply) (setLockoutAuth X primary current new).run w r w') :
    ∃ f, Agree E primary (q := .setLockoutAuth current new) r w'
      (Tess.exec E (.setLockoutAuth current new) f h) := by
  have hspec : Faulty E (setLockoutAuth X primary current new) _ _ w :=
    setLockoutAuth_faulty current new
  have hchanged : ∀ {f : Fault},
      (current.length ≤ maxLockoutAuthLen ∧ new.length ≤ maxLockoutAuthLen) →
      w.tpm.lockoutAuth = current → f = .ok ∨ f = .late →
      (Tess.exec E (.setLockoutAuth current new) f h).2.tpm =
        { w.tpm with lockoutAuth := new } := by
    rintro f hlen hheld hf
    rw [htpm] at hheld ⊢
    rcases hf with rfl | rfl
    · rw [Tess.exec, if_neg (by omega), if_neg (not_not.2 hheld)]
      rfl
    · rw [Tess.exec, if_neg (by omega), if_neg (not_not.2 hheld)]
      rfl
  cases r with
  | ok =>
    obtain ⟨hlen, hheld, hl⟩ := returns_ok hspec hr
    refine ⟨.ok, ?_, hl.tpm.trans (hchanged hlen hheld (.inl rfl)).symm, hl.hasPrimary hp rfl⟩
    rw [htpm] at hheld
    rw [Tess.exec, if_neg (by omega), if_neg (not_not.2 hheld)]
    rfl
  | error e =>
    rcases returns_error hspec hr with hl | ⟨hlen, hheld, hl⟩
    · refine ⟨.fail, ?_, ?_, hl.hasPrimary hp rfl⟩
      · simp only [Tess.exec]
        split_ifs <;> rfl
      · refine (hl.tpm.trans htpm).trans ?_
        simp only [Tess.exec]
        split_ifs <;> rfl
    · refine ⟨.late, ?_, hl.tpm.trans (hchanged hlen hheld (.inr rfl)).symm,
        hl.hasPrimary hp rfl⟩
      rw [htpm] at hheld
      rw [Tess.exec, if_neg (by omega), if_neg (not_not.2 hheld)]
      rfl

/-- **A request.** Whichever calls fail, it is the operation of the host under some fault, and the
primary is there for the next one. -/
theorem Request.agrees (hp : HasPrimary E w primary) (htpm : w.tpm = h.tpm) {q : Request}
    (hq : q.Fits) {r : Except Error q.Val}
    (hr : Returns (machine E anyReply) (q.serve X primary).run w r w') :
    ∃ f, Agree E primary r w' (q.onHost E f h) := by
  rcases q with ⟨entropy, pin, key⟩ | ⟨sealed, pin⟩ | ⟨current, new⟩
  · exact seal_agrees hp htpm hq hr
  · exact unseal_agrees hp htpm hr
  · exact setLockoutAuth_agrees hp htpm hr

end Request

/-! ## A series of requests -/

section Series

variable {E : Primitives} {X : Conversions} {w w' : Context} {primary : Handle} {l : Exchange}

/-- **The sealer refines the TPM of the host.** A series of requests to one context, in which any
call may fail, is a series of operations of the host with the same answers and the same TPM at the
end. -/
theorem serves_host {h : Host} (hp : HasPrimary E w primary) (htpm : w.tpm = h.tpm)
    (hl : ∀ x ∈ l, x.1.Fits) (hs : Serves E X primary w l w') :
    ∃ h', HostServes E h l h' ∧ w'.tpm = h'.tpm ∧ HasPrimary E w' primary := by
  induction hs generalizing h with
  | nil w => exact ⟨h, .nil h, htpm, hp⟩
  | cons hr _ ih =>
    obtain ⟨f, hagree⟩ := Request.agrees hp htpm (hl _ List.mem_cons_self) hr
    obtain ⟨h', hserves, htpm', hp'⟩ :=
      ih hagree.primary hagree.tpm fun x hx => hl x (List.mem_cons_of_mem _ hx)
    exact ⟨h', hagree.answer ▸ .cons f hserves, htpm', hp'⟩

def Request.IsUnseal : Request → Bool
  | .unseal .. => true
  | _ => false

/-- The unseals that were not answered with a key. -/
def failedUnseals (l : Exchange) : ℕ := l.countP fun x => x.1.IsUnseal && x.2.isNone

/-- What one request may do to the lockout: nothing, or count one failed unseal. -/
def LockoutStep (t : Tpm) (q : Request) (answer : Option q.Val) (t' : Tpm) : Prop :=
  t'.seed = t.seed ∧
    (t'.lockout = t.lockout ∧ (q.IsUnseal = true → t.lockout.isLockedOut = true → answer = none) ∨
      t.lockout.isLockedOut = false ∧ q.IsUnseal = true ∧ answer = none ∧
        t'.lockout = { t.lockout with counter := t.lockout.counter + 1 })

theorem lockoutStep_onHost (E : Primitives) (q : Request) (f : Fault) (h : Host) :
    LockoutStep h.tpm q (q.onHost E f h).1.toOption (q.onHost E f h).2.tpm := by
  rcases q with ⟨entropy, pin, key⟩ | ⟨sealed, pin⟩ | ⟨current, new⟩
  · cases f <;> exact ⟨rfl, .inl ⟨rfl, nofun⟩⟩
  · cases f with
    | ok =>
      change LockoutStep h.tpm (.unseal sealed pin) (h.tpm.unsealKey E sealed pin).1.toOption
        (h.tpm.unsealKey E sealed pin).2
      unfold Tpm.unsealKey
      split
      · exact ⟨rfl, .inl ⟨rfl, fun _ _ => rfl⟩⟩
      · split_ifs with hname hlocked
        · exact ⟨rfl, .inl ⟨rfl, fun _ _ => rfl⟩⟩
        · exact ⟨rfl, .inl ⟨rfl, fun _ _ => rfl⟩⟩
        · split
          · exact ⟨rfl, .inl ⟨rfl, fun _ hl => absurd hl hlocked⟩⟩
          · exact ⟨rfl, .inr ⟨Bool.eq_false_iff.2 hlocked, rfl, rfl, rfl⟩⟩
    | _ => exact ⟨rfl, .inl ⟨rfl, fun _ _ => rfl⟩⟩
  · refine ⟨?_, .inl ⟨?_, nofun⟩⟩
    · simp only [Request.onHost, Tess.exec]
      split_ifs <;> cases f <;> rfl
    · simp only [Request.onHost, Tess.exec]
      split_ifs <;> cases f <;> rfl

/-- A host with the given TPM. -/
def hostWith (t : Tpm) : Host := ⟨⟨[], false, false⟩, t, ⟨fun _ => none, 0⟩, [], [], []⟩

theorem lockoutStep_serve (hp : HasPrimary E w primary) {q : Request} (hq : q.Fits)
    {r : Except Error q.Val}
    (hr : Returns (machine E anyReply) (q.serve X primary).run w r w') :
    LockoutStep w.tpm q r.toOption w'.tpm ∧ HasPrimary E w' primary := by
  obtain ⟨f, hagree⟩ := Request.agrees (h := hostWith w.tpm) hp rfl hq hr
  have hstep := lockoutStep_onHost E q f (hostWith w.tpm)
  rw [← hagree.answer, ← hagree.tpm] at hstep
  exact ⟨hstep, hagree.primary⟩

theorem failedUnseals_cons (q : Request) (answer : Option q.Val) (l : Exchange) :
    failedUnseals (⟨q, answer⟩ :: l) =
      failedUnseals l + if q.IsUnseal && answer.isNone then 1 else 0 := List.countP_cons

/-- **Dictionary attacks.** Over a series of requests the counter never falls, rises by no more than
one for each unseal that returned no key, and not beyond the limit of the TPM; the rest of the
lockout state stays as it is. A TPM that is locked out releases nothing. -/
theorem serves_lockout (hp : HasPrimary E w primary) (hl : ∀ x ∈ l, x.1.Fits)
    (hs : Serves E X primary w l w') :
    (w'.tpm.lockout.maxAuthFail = w.tpm.lockout.maxAuthFail ∧
      w'.tpm.lockout.interval = w.tpm.lockout.interval) ∧
    w.tpm.lockout.counter ≤ w'.tpm.lockout.counter ∧
    w'.tpm.lockout.counter ≤ w.tpm.lockout.counter + failedUnseals l ∧
    (w.tpm.lockout.maxAuthFail ≠ 0 →
      w'.tpm.lockout.counter ≤ max w.tpm.lockout.counter w.tpm.lockout.maxAuthFail) ∧
    (w.tpm.lockout.isLockedOut = true →
      w'.tpm.lockout = w.tpm.lockout ∧ ∀ x ∈ l, x.1.IsUnseal = true → x.2.isNone = true) := by
  induction hs with
  | nil w => simp [failedUnseals]
  | @cons w w₁ w' q r l hr _ ih =>
    obtain ⟨⟨-, hstep⟩, hp₁⟩ := lockoutStep_serve hp (hl _ List.mem_cons_self) hr
    obtain ⟨⟨hmax, hinterval⟩, hle, hcount, hlimit, hlocked⟩ :=
      ih hp₁ fun x hx => hl x (List.mem_cons_of_mem _ hx)
    rw [failedUnseals_cons]
    rcases hstep with ⟨hsame, hanswer⟩ | ⟨hfree, hq, hnone, hcounted⟩
    · rw [hsame] at hmax hinterval hle hcount hlimit hlocked
      refine ⟨⟨hmax, hinterval⟩, hle, by omega, hlimit, fun h => ⟨(hlocked h).1, ?_⟩⟩
      intro x hx hunseal
      rcases List.mem_cons.1 hx with rfl | hx
      · rw [Option.isNone_iff_eq_none]
        exact hanswer hunseal h
      · exact (hlocked h).2 x hx hunseal
    · rw [hcounted] at hmax hinterval hle hcount hlimit
      have hone : (if q.IsUnseal && r.toOption.isNone then 1 else 0) = 1 := by
        rw [hq, hnone]
        rfl
      rw [hone]
      dsimp only at hmax hinterval hle hcount hlimit
      refine ⟨⟨hmax, hinterval⟩, by omega, by omega, fun h0 => ?_, fun h => ?_⟩
      · have hbelow : w.tpm.lockout.counter < w.tpm.lockout.maxAuthFail := by
          simpa [LockoutState.isLockedOut, h0] using hfree
        have := hlimit h0
        omega
      · rw [hfree] at h
        cases h

/-- What an answer of a sealer tells: a sealed object is one that its TPM created, and a key is what
the TPM has under the PIN. -/
def Answered (E : Primitives) (seed : ℕ) : (q : Request) → Option q.Val → Prop
  | .seal entropy pin key, some sealed => Tess.pinToAuth pin = .ok pin ∧ sealed =
      ⟨(E.create seed entropy pin key).1, (E.create seed entropy pin key).2, E.primaryName seed⟩
  | .unseal sealed pin, some key =>
    E.primaryName seed = sealed.primaryName ∧
      E.unsealData seed sealed.pub sealed.priv pin = some key
  | _, _ => True

theorem pinToAuth_eq {pin auth : SecretBytes} (h : Tess.pinToAuth pin = .ok auth) :
    auth = pin := by
  unfold Tess.pinToAuth at h
  split_ifs at h
  exact (Except.ok.inj h).symm

theorem answered_onHost (E : Primitives) (q : Request) (f : Fault) (h : Host) :
    Answered E h.tpm.seed q (q.onHost E f h).1.toOption := by
  rcases q with ⟨entropy, pin, key⟩ | ⟨sealed, pin⟩ | ⟨current, new⟩
  · cases f with
    | ok =>
      change Answered E h.tpm.seed (.seal entropy pin key)
        (h.tpm.sealKey E entropy pin key).toOption
      unfold Tpm.sealKey
      split
      · trivial
      · rename_i auth hauth
        obtain rfl := pinToAuth_eq hauth
        exact ⟨hauth, rfl⟩
    | _ => trivial
  · cases f with
    | ok =>
      change Answered E h.tpm.seed (.unseal sealed pin)
        (h.tpm.unsealKey E sealed pin).1.toOption
      unfold Tpm.unsealKey
      split
      · trivial
      · rename_i auth hauth
        obtain rfl := pinToAuth_eq hauth
        split_ifs with hname hlocked
        · trivial
        · trivial
        · split
          · rename_i key hkey
            exact ⟨not_not.1 (not_or.1 hname).2, hkey⟩
          · trivial
    | _ => trivial
  · trivial

theorem serves_answered (hp : HasPrimary E w primary) (hl : ∀ x ∈ l, x.1.Fits)
    (hs : Serves E X primary w l w') :
    w'.tpm.seed = w.tpm.seed ∧ HasPrimary E w' primary ∧
      ∀ x ∈ l, Answered E w.tpm.seed x.1 x.2 := by
  induction hs with
  | nil w => exact ⟨rfl, hp, nofun⟩
  | @cons w w₁ w' q r l hr _ ih =>
    obtain ⟨⟨hseed, -⟩, hp₁⟩ := lockoutStep_serve hp (hl _ List.mem_cons_self) hr
    obtain ⟨hseed', hp', hall⟩ := ih hp₁ fun x hx => hl x (List.mem_cons_of_mem _ hx)
    obtain ⟨f, hagree⟩ := Request.agrees (h := hostWith w.tpm) hp rfl
      (hl _ List.mem_cons_self) hr
    refine ⟨hseed'.trans hseed, hp', fun x hx => ?_⟩
    rcases List.mem_cons.1 hx with rfl | hx
    · have hanswered := answered_onHost E q f (hostWith w.tpm)
      rw [← hagree.answer] at hanswered
      exact hanswered
    · exact hseed ▸ hall x hx

/-- **What is sealed is what is released.** When a series of requests sealed a key, no unseal in the
series released anything else from the object; and after the series, unless the TPM is locked out,
unsealing the object with its PIN returns the key, if every call is performed. -/
theorem serves_release (hp : HasPrimary E w primary) (hl : ∀ x ∈ l, x.1.Fits)
    (hs : Serves E X primary w l w') {entropy : Bytes} {pin key : SecretBytes}
    {sealed : SealedObject} (hsealed : ⟨.seal entropy pin key, some sealed⟩ ∈ l) :
    (∀ pin' key', ⟨.unseal sealed pin', some key'⟩ ∈ l → key' = key) ∧
    (w'.tpm.lockout.isLockedOut = false → ∀ r w'',
      Returns (machine E performed) (unsealSealed X primary sealed pin).run w' r w'' →
        r = .ok key) := by
  obtain ⟨hseed, hp', hall⟩ := serves_answered hp hl hs
  obtain ⟨hpin, hcreated⟩ : Answered E w.tpm.seed (.seal entropy pin key) (some sealed) :=
    hall _ hsealed
  refine ⟨fun pin' key' hmem => ?_, fun hfree r w'' hr => ?_⟩
  · obtain ⟨-, hkey⟩ : Answered E w.tpm.seed (.unseal sealed pin') (some key') := hall _ hmem
    rw [hcreated] at hkey
    exact (E.unsealData_correct hkey).2
  · have hname : ¬ (sealed.primaryName = [] ∨
        E.primaryName w'.tpm.seed ≠ sealed.primaryName) := by
      rw [hcreated, hseed]
      exact not_or.2 ⟨E.primaryName_ne_nil _, not_not.2 rfl⟩
    have hkey : w'.tpm.unsealKey E sealed pin = (.ok key, w'.tpm) := by
      rw [Tpm.unsealKey_tried hpin hname hfree, hseed, hcreated, E.unsealData_create]
      rfl
    have hspec : Performs E (unsealSealed X primary sealed pin) _ _ w' :=
      unsealSealed_performs hp' sealed pin
    cases r with
    | ok key' =>
      obtain ⟨hkey', -⟩ := returns_ok hspec hr
      rw [hkey] at hkey'
      exact congrArg Except.ok (Except.ok.inj (Prod.mk.inj hkey').1).symm
    | error e =>
      obtain ⟨⟨e', hkey'⟩, -⟩ := returns_error hspec hr
      rw [hkey] at hkey'
      cases (Prod.mk.inj hkey').1

end Series

/-! ## A sealer in use -/

namespace Chip

/-- The calls of sealing, when all go well: the session 1, twice. -/
def sealReplies : List Reply :=
  [.ok 1, .ok 0, .ok 0, .ok 0, .ok 0, .ok 1, .ok 0, .ok 0, .ok 0]

def afterSeal : Prog Call.Res (Except Error SealedObject) × Context :=
  run (machine sample anyReply) sealReplies (sealSecret plain 0 pin key []).run chip

def afterWrongPin : Prog Call.Res (Except Error SecretBytes) × Context :=
  run (machine sample anyReply) replies (unsealSealed plain 0 sealed [9]).run afterSeal.2

def afterUnseal : Prog Call.Res (Except Error SecretBytes) × Context :=
  run (machine sample anyReply) replies (unsealSealed plain 0 sealed pin).run afterWrongPin.2

def afterSecondUnseal : Prog Call.Res (Except Error SecretBytes) × Context :=
  run (machine sample performed) replies (unsealSealed plain 0 sealed pin).run afterUnseal.2

/-- The sealed object, no key, and the key. -/
def exchange : Exchange :=
  [⟨.seal [] pin key, some sealed⟩, ⟨.unseal sealed [9], none⟩, ⟨.unseal sealed pin, some key⟩]

theorem admits_seal : Admits (machine sample anyReply) sealReplies
    (sealSecret plain 0 pin key []).run chip := by
  refine ⟨⟨⟨rfl, rfl⟩, trivial⟩, ⟨trivial, trivial⟩, ⟨trivial, trivial⟩, ⟨trivial, trivial⟩,
    ⟨trivial, trivial⟩, ⟨⟨rfl, rfl⟩, trivial⟩, ⟨trivial, trivial⟩, ⟨trivial, trivial⟩,
    ⟨trivial, trivial⟩, trivial⟩

theorem admits_wrongPin : Admits (machine sample anyReply) replies
    (unsealSealed plain 0 sealed [9]).run afterSeal.2 := by
  refine ⟨⟨trivial, trivial⟩, ⟨⟨rfl, rfl⟩, trivial⟩, ⟨trivial, trivial⟩, ⟨⟨rfl, rfl⟩, trivial⟩,
    ⟨trivial, trivial⟩, ⟨trivial, trivial⟩, ⟨⟨rfl, rfl⟩, trivial⟩, ⟨trivial, trivial⟩,
    ⟨trivial, trivial⟩, ⟨trivial, trivial⟩, ⟨trivial, trivial⟩, ⟨trivial, trivial⟩, trivial⟩

theorem admits_unseal : Admits (machine sample anyReply) replies
    (unsealSealed plain 0 sealed pin).run afterWrongPin.2 := by
  refine ⟨⟨trivial, trivial⟩, ⟨⟨rfl, rfl⟩, trivial⟩, ⟨trivial, trivial⟩, ⟨⟨rfl, rfl⟩, trivial⟩,
    ⟨trivial, trivial⟩, ⟨trivial, trivial⟩, ⟨⟨rfl, rfl⟩, trivial⟩, ⟨trivial, trivial⟩,
    ⟨trivial, trivial⟩, ⟨trivial, trivial⟩, ⟨trivial, trivial⟩, ⟨trivial, trivial⟩, trivial⟩

theorem admits_secondUnseal : Admits (machine sample performed) replies
    (unsealSealed plain 0 sealed pin).run afterUnseal.2 := by
  have hok : ∀ call h, performed call (.ok h) := fun _ h => ⟨h, rfl⟩
  refine ⟨⟨trivial, hok _ 0⟩, ⟨⟨rfl, rfl⟩, hok _ 1⟩, ⟨trivial, hok _ 0⟩, ⟨⟨rfl, rfl⟩, hok _ 2⟩,
    ⟨trivial, hok _ 0⟩, ⟨trivial, hok _ 0⟩, ⟨⟨rfl, rfl⟩, hok _ 1⟩, ⟨trivial, hok _ 0⟩,
    ⟨trivial, hok _ 0⟩, ⟨trivial, hok _ 0⟩, ⟨trivial, hok _ 0⟩, ⟨trivial, hok _ 0⟩, trivial⟩

theorem serves_exchange : Serves sample plain 0 chip exchange afterUnseal.2 :=
  .cons (q := .seal [] pin key) (r := .ok sealed) (returns_run admits_seal rfl)
    (.cons (q := .unseal sealed [9]) (r := .error .wrongPin) (returns_run admits_wrongPin rfl)
      (.cons (q := .unseal sealed pin) (r := .ok key) (returns_run admits_unseal rfl) (.nil _)))

theorem fits_exchange : ∀ x ∈ exchange, x.1.Fits := by
  intro x hx
  simp only [exchange, List.mem_cons, List.not_mem_nil, or_false] at hx
  rcases hx with rfl | rfl | rfl
  · exact (by decide : key.length ≤ 32)
  · trivial
  · trivial

theorem hasPrimary_chip : HasPrimary sample chip 0 := ⟨⟨sample.primaryName 0, none, []⟩, rfl, rfl⟩

end Chip

open Chip

theorem serves_host_sample : ∃ h', HostServes sample (hostWith chip.tpm) exchange h' ∧
    afterUnseal.2.tpm = h'.tpm ∧ HasPrimary sample afterUnseal.2 0 :=
  serves_host hasPrimary_chip rfl fits_exchange serves_exchange

theorem serves_lockout_sample : afterUnseal.2.tpm.lockout.counter ≤ 0 + failedUnseals exchange :=
  (serves_lockout hasPrimary_chip fits_exchange serves_exchange).2.2.1

theorem serves_release_sample : ∃ r, afterSecondUnseal.1 = .pure r ∧ r = .ok key :=
  ⟨_, rfl, (serves_release hasPrimary_chip fits_exchange serves_exchange List.mem_cons_self).2 rfl
    _ _ (returns_run admits_secondUnseal rfl)⟩

end Esapi

end Tess

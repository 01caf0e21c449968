import Tess.Enroll.Devices

/-!
# The transaction as a list of changes

`commit` on its own is a transaction in the sense of `Effects.Runs`: it makes the changes of
`plan` in order, each recorded in `Tx` once its step has returned. So wherever it stops, the view
is the one it started with after a prefix of those changes, and possibly the trace of one step
that failed: a file in place whose directory was not synced, a lockout authValue or a credential
that was changed although the call reported an error.
-/

namespace Tess

open Files Effects Recovery

/-- The changes of an enrollment to the view. -/
inductive Change where
  | place (a : Artifact) (bytes : Bytes)
  | bind (auth : SecretBytes)
  | rekey (old key : SecretBytes)
  deriving DecidableEq

namespace Change

def apply : Change → View → View
  | place a bytes, v => v.place a bytes
  | bind auth, v => (v.attempt []).setAuth auth
  | rekey _ key, v => v.rekey key true

/-- What a step that fails may leave. -/
def spoil : Change → View → View → Prop
  | place a bytes, v, v' => v' = (v.place a bytes).push (.unsynced a)
  | bind auth, v, v' =>
    v' = ((v.attempt []).setAuth auth).push (.authLate [] auth) ∨
      v' = (v.attempt []).push (.authRefused [] auth)
  | rekey old key, v, v' => v' = (v.rekey key true).push (.rekeyLate old key)

def record : Change → Tx → Tx
  | place .recovery _, tx => { tx with recoveryWritten := true }
  | place .metadata _, tx => { tx with metadataWritten := true }
  | place .metadataFace _, tx => { tx with faceMetadataWritten := true }
  | place .faceKey _, tx => { tx with faceKeyWritten := true }
  | place (.template _) _, tx => { tx with faceStoreEnrolled := true }
  | place .lockoutOwned _, tx => tx
  | bind auth, tx => { tx with lockoutAuth := some auth }
  | rekey _ key, tx => { tx with newKey := some key }

end Change

section Plan

variable (E : Primitives) (args : EnrollArgs)

/-- The lockout authValue derived from the recovery secret. -/
def lockoutAuthOf (recovery : SecretBytes) : SecretBytes :=
  (deriveLockoutAuth E recovery).toOption.getD []

/-- What is known of a change that has been made, on a TPM with a given seed. -/
def Valid (seed : ℕ) : Change → Prop
  | .place .recovery bytes => blobBytes E args.draws = some bytes
  | .place .metadata bytes =>
    sealedBytes E seed args.draws.pinEntropy args.pin args.draws.key = some bytes
  | .place .metadataFace bytes =>
    sealedBytes E seed args.draws.faceEntropy args.draws.aFace args.draws.key = some bytes
  | .place .faceKey bytes => bytes = args.draws.aFace
  | _ => True

/-- The changes of an enrollment, and how they are recorded. -/
def enrollment (seed : ℕ) : Changes View Change Tx where
  apply := Change.apply
  spoil := Change.spoil
  record := Change.record
  valid := Valid E args seed

def recoveryStep : Change := .place .recovery ((blobBytes E args.draws).getD [])

def metadataStep (seed : ℕ) : Change :=
  .place .metadata
    ((sealedBytes E seed args.draws.pinEntropy args.pin args.draws.key).getD [])

def faceSteps (seed : ℕ) : List Change :=
  match args.face with
  | none => []
  | some face =>
    [.place .metadataFace
        ((sealedBytes E seed args.draws.faceEntropy args.draws.aFace args.draws.key).getD []),
      .place .faceKey args.draws.aFace,
      .place (.template face.username) ((E.enrollmentJson face.template).toOption.getD [])]

/-- The lockout hierarchy is bound when it has no authValue. -/
def lockoutSteps (held : SecretBytes) : List Change :=
  if held = [] then
    [.bind (lockoutAuthOf E args.draws.recoverySecret), .place .lockoutOwned []]
  else []

def rekeyStep : Change := .rekey args.old args.draws.key

/-- The changes an enrollment makes, started in a view. -/
def plan (v : View) : List Change :=
  recoveryStep E args :: metadataStep E args v.seed ::
    (faceSteps E args v.seed ++ (lockoutSteps E args v.lockoutAuth ++ [rekeyStep args]))

end Plan

/-! ## The steps on their own -/

section Steps

variable {E : Primitives} {may : Host → Op → Fault → Prop} {args : EnrollArgs} {proc : Process}
  {seed : ℕ} {v : View} {t : Tx}

/-- What the crash invariant of a step allows. -/
abbrev DuringStep (E : Primitives) (args : EnrollArgs) (seed : ℕ) (c : Change) (v : View) :
    Host → Host → Prop :=
  fun _ h' => h'.view = v ∨ Valid E args seed c ∧ (h'.view = c.apply v ∨ c.spoil v h'.view)

/-- Until its change, a step leaves the view as it is. -/
theorem stable_view (pid : ℕ) {G : Host → Host → Prop} (hG : ∀ h h', h'.view = v → G h h') :
    Stable pid Eq G fun h => h.view = v where
  rely _ _ h := h ▸ id
  quiet _ _ hs hv := ⟨hG _ _ (hs.view.trans hv), hs.view.trans hv⟩

theorem keepsTemps_eq (pid : ℕ) : KeepsTemps pid Eq := fun _ _ h _ _ => h ▸ rfl

/-- A writer on its own, with what is known of the bytes it writes. -/
theorem placeRule {G : Host → Host → Prop} {a : Artifact} {bytes : Bytes} {V : Prop} (pid : ℕ)
    (hV : V)
    (hG : ∀ h h', h'.view = v ∨ V ∧ (h'.view = v.place a bytes ∨
      h'.view = (v.place a bytes).push (.unsynced a)) → G h h') :
    PlaceRule may Eq G pid a bytes (fun h => h.view = v) (fun h => V ∧ h.view = v.place a bytes)
      (fun h => V ∧ h.view = (v.place a bytes).push (.unsynced a)) where
  temps := keepsTemps_eq pid
  before := stable_view pid fun _ _ h => hG _ _ (.inl h)
  after _ _ h := h ▸ id
  refl _ h := hG _ _ (.inr ⟨hV, .inl h.2⟩)
  place _ h h' hv _ hs := by
    have : h'.view = v.place a bytes := by rw [hs.view, hv]
    exact ⟨hG _ _ (.inr ⟨hV, .inl this⟩), hV, this⟩
  spoil h h' hv hs := by
    have : h'.view = (v.place a bytes).push (.unsynced a) := by rw [hs.view, hv.2]
    exact ⟨hG _ _ (.inr ⟨hV, .inr this⟩), hV, this⟩

/-- A writer of the transaction makes the change it is for. -/
theorem stepRule (pid : ℕ) {a : Artifact} {bytes : Bytes}
    (hV : Valid E args seed (.place a bytes)) :
    PlaceRule may Eq (DuringStep E args seed (.place a bytes) v) pid a bytes
      (fun h => h.view = v)
      (fun h => Valid E args seed (.place a bytes) ∧ h.view = (Change.place a bytes).apply v)
      (fun h => Valid E args seed (.place a bytes) ∧ (Change.place a bytes).spoil v h.view) :=
  placeRule pid hV fun _ _ => id

/-- Wrapping the key draws what the blob is made of. -/
theorem wrapKey_spec {rely guar : Host → Host → Prop} {P : Host → Prop} {pid : ℕ}
    (hP : Stable pid rely guar P) {draws : Draws} {key recovery : SecretBytes} {h : Host}
    (h₀ : P h) :
    wpe (machine E may) rely guar (wrapKey E draws key recovery)
      (fun blob h => wrapWith E key recovery draws.salt draws.nonce = .ok blob ∧ P h)
      (fun _ => P) h := by
  refine wpe_seq (P := fun _ => P) ((wpe_ensure ..).2 ⟨fun _ => h₀, fun _ => h₀⟩) fun _ h h₁ => ?_
  refine wpe_seq (getrandom_spec hP h₁ _ _) ?_
  rintro _ h ⟨rfl, h₂⟩
  refine wpe_seq (getrandom_spec hP h₂ _ _) ?_
  rintro _ h ⟨rfl, h₃⟩
  exact ofExcept_spec (fun blob hb => ⟨hb, h₃⟩) fun _ => h₃

theorem blobBytes_eq {blob : RecoveryBlob} {json : Bytes} {f : String → Error}
    (hblob : wrapWith E args.draws.key args.draws.recoverySecret args.draws.salt
      args.draws.nonce = .ok blob)
    (hjson : (E.blobJson.toVecPretty blob).mapError f = .ok json) :
    blobBytes E args.draws = some json := by
  simp [blobBytes, hblob, mapError_eq_ok.1 hjson, Except.toOption]

/-- Step 3 writes the recovery blob. -/
theorem backUp_spec {h : Host} (hv : h.view = v) :
    wpe (machine E may) Eq (DuringStep E args seed (recoveryStep E args) v)
      (backUp E proc args args.draws.key args.draws.recoverySecret)
      (fun _ h => Valid E args seed (recoveryStep E args) ∧
        h.view = (recoveryStep E args).apply v)
      (fun _ h => h.view = v ∨ Valid E args seed (recoveryStep E args) ∧
        (recoveryStep E args).spoil v h.view) h := by
  have hstable : Stable proc.pid Eq (DuringStep E args seed (recoveryStep E args) v)
      fun h => h.view = v := stable_view _ fun _ _ => .inl
  refine wpe_seq ((wpe_adapt ..).2 (wpe_mono (wrapKey_spec hstable hv) (fun _ _ => id)
    fun _ _ => .inl)) ?_
  rintro blob h ⟨hblob, hv⟩
  refine wpe_seq (P := fun _ h => h.view = v)
    ((wpe_adapt ..).2 (ofExcept_spec (fun _ _ => hv) fun _ => .inl hv)) fun _ h hv => ?_
  refine wpe_seq (P := fun _ h => h.view = v)
    ((wpe_ensure ..).2 ⟨fun _ => hv, fun _ => .inl hv⟩) fun _ h hv => (wpe_adapt ..).2 ?_
  refine wpe_seq (P := fun json h => blobBytes E args.draws = some json ∧ h.view = v)
    (ofExcept_spec (fun json hj => ⟨blobBytes_eq hblob hj, hv⟩) fun _ => .inl hv) ?_
  rintro json h ⟨hjson, hv⟩
  have hstep : recoveryStep E args = .place .recovery json := by simp [recoveryStep, hjson]
  have hvalid : Valid E args seed (.place .recovery json) := hjson
  rw [hstep]
  exact replaceFile_spec (stepRule proc.pid hvalid) rfl hv

/-- Steps 4 and the face leg seal the key, and save the sealed object. -/
theorem sealAndSave_spec {rely guar : Host → Host → Prop} {P S R : Host → Prop} {a : Artifact}
    {entropy bytes : Bytes} {auth key : SecretBytes}
    (hP : Stable proc.pid rely guar P) (hseed : ∀ h, P h → h.tpm.seed = seed)
    (hbytes : ∀ b, sealedBytes E seed entropy auth key = some b → b = bytes)
    (hrule : sealedBytes E seed entropy auth key = some bytes →
      PlaceRule may rely guar proc.pid a bytes P R S) (texts : SealTexts) {h : Host} (h₀ : P h) :
    wpe (machine E may) rely guar (sealAndSave E proc texts entropy auth key a) (fun _ => R)
      (fun _ h => P h ∨ S h) h := by
  refine wpe_seq ((wpe_adapt ..).2 (wpe_mono (sealKey_spec hP h₀ hseed entropy auth key)
    (fun _ _ => id) fun _ _ => .inl)) ?_
  rintro sealed h ⟨hsealed, h₁⟩
  refine wpe_seq ((wpe_adapt ..).2 (wpe_mono (unsealKey_spec hP h₁ hseed sealed auth)
    (fun _ _ => id) fun _ _ => .inl)) ?_
  rintro unsealed h ⟨-, h₂⟩
  refine wpe_seq (P := fun _ => P)
    ((wpe_ensure ..).2 ⟨fun _ => h₂, fun _ => .inl h₂⟩) fun _ h h₃ => ?_
  refine wpe_seq (P := fun m h => Persist.toMetadata E sealed = .ok m ∧ P h)
    ((wpe_adapt ..).2 (ofExcept_spec (fun m hm => ⟨hm, h₃⟩) fun _ => .inl h₃)) ?_
  rintro m h ⟨hm, h₄⟩
  have hjson : ∀ json, E.metadataJson.toVecPretty m = .ok json →
      sealedBytes E seed entropy auth key = some json := fun json hj => by
    simp [sealedBytes, hsealed, hm, hj, Except.toOption]
  cases hj : E.metadataJson.toVecPretty m with
  | error e =>
    refine (wpe_adapt ..).2 (wpe_seq (P := fun _ _ => False) (ofExcept_spec (fun json hjs => ?_)
      fun _ => .inl h₄) fun _ _ hF => hF.elim)
    simp [hj, Except.mapError] at hjs
  | ok json =>
    obtain rfl := hbytes json (hjson json hj)
    exact (wpe_adapt ..).2 (save_spec (hrule (hjson json hj)) rfl
      (fun json' hj' => by rw [hj] at hj'; exact (Except.ok.inj hj').symm) h₄)

end Steps

/-! ## The transaction on its own -/

section Commit

variable {E : Primitives} {may : Host → Op → Fault → Prop} {args : EnrollArgs} {proc : Process}
  {seed : ℕ} {v : View} {t : Tx}

/-- `Runs` for the transaction of an enrollment. -/
abbrev Enrolls (E : Primitives) (may : Host → Op → Fault → Prop) (args : EnrollArgs) (seed : ℕ)
    {α : Type} (cs : List Change) (v : View) (t : Tx) (x : TxIo α) (Q : α → Prop) : Prop :=
  Runs (machine E may) Host.view (enrollment E args seed) cs v t x Q

@[simp] theorem apply_seed (c : Change) (v : View) : (c.apply v).seed = v.seed := by
  cases c <;> rfl

/-- Placing files leaves the lockout authValue alone. -/
theorem applyAll_lockoutAuth {cs : List Change} (h : ∀ c ∈ cs, ∃ a b, c = .place a b) (v : View) :
    ((enrollment E args seed).applyAll cs v).lockoutAuth = v.lockoutAuth := by
  induction cs generalizing v with
  | nil => rfl
  | cons c cs ih =>
    obtain ⟨a, b, rfl⟩ := h c (by simp)
    exact ih (fun c hc => h c (by simp [hc])) _

theorem mem_faceSteps {c : Change} (h : c ∈ faceSteps E args seed) : ∃ a b, c = .place a b := by
  unfold faceSteps at h
  cases hf : args.face with
  | none => simp [hf] at h
  | some face =>
    simp only [hf, List.mem_cons, List.not_mem_nil, or_false] at h
    rcases h with rfl | rfl | rfl <;> exact ⟨_, _, rfl⟩

theorem runs_backUp :
    Enrolls E may args seed [recoveryStep E args] v t
      (recorded (backUp E proc args args.draws.key args.draws.recoverySecret)
        fun tx => { tx with recoveryWritten := true }) fun _ => True :=
  Runs.recorded (fun h hv =>
    (backUp_spec hv : wpe _ Eq (DuringStep E args seed _ v) _ _ _ h)) rfl

/-- A seal-and-save step of the transaction. -/
theorem runs_sealAndSave {a : Artifact} {entropy : Bytes} {auth : SecretBytes} {f : Tx → Tx}
    (hseed : v.seed = seed)
    (hvalid : ∀ b, sealedBytes E seed entropy auth args.draws.key = some b →
      Valid E args seed (.place a b))
    (hf : ∀ b, f t = (Change.place a b).record t) (texts : SealTexts) :
    Enrolls E may args seed
      [.place a ((sealedBytes E seed entropy auth args.draws.key).getD [])] v t
      (recorded (sealAndSave E proc texts entropy auth args.draws.key a) f) fun _ => True := by
  refine Runs.recorded (fun h hv => ?_) (hf _)
  exact sealAndSave_spec (stable_view _ fun _ _ => .inl) (fun h hv => hseed ▸ hv ▸ rfl)
    (fun b hb => by simp [hb]) (fun hb => stepRule proc.pid (hvalid _ hb)) texts hv

theorem runs_writeSecretFile :
    Enrolls E may args seed [.place .faceKey args.draws.aFace] v t
      (recorded (context "store the face-unlock authValue"
        (writeSecretFile proc .faceKey args.draws.aFace))
        fun tx => { tx with faceKeyWritten := true }) fun _ => True := by
  have hvalid : Valid E args seed (.place .faceKey args.draws.aFace) := rfl
  exact Runs.recorded (fun _ hv => (wpe_adapt ..).2
    (replaceFile_spec (stepRule proc.pid hvalid) rfl hv)) rfl

theorem runs_saveTemplate (face : FaceEnroll) :
    Enrolls E may args seed
      [.place (.template face.username) ((E.enrollmentJson face.template).toOption.getD [])] v t
      (recorded (ExceptT.adapt
          (fun e => ["save the face enrollment for " ++ face.username ++ ": " ++ e.outer])
          (EnrollStore.save E proc face.username face.template))
        fun tx => { tx with faceStoreEnrolled := true }) fun _ => True := by
  have hvalid : Valid E args seed (.place (.template face.username)
      ((E.enrollmentJson face.template).toOption.getD [])) := trivial
  exact Runs.recorded (fun _ hv => (wpe_adapt ..).2
    (store_save_spec (stepRule proc.pid hvalid) rfl
      (fun json hj => by simp [hj, Except.toOption]) hv)) rfl

/-- The face leg captures and draws, and then makes three changes. -/
theorem runs_commitFaceLeg (hseed : v.seed = seed) :
    Enrolls E may args seed (faceSteps E args seed) v t
      (commitFaceLeg E proc args args.draws.key) fun _ => True := by
  unfold commitFaceLeg faceSteps
  cases args.face with
  | none => exact .pure trivial
  | some face =>
    refine Runs.adapt ?_ _
    refine Runs.quiet (P := fun template => template = face.template) (fun h hv =>
      (wpe_adapt ..).2 (captureTemplate_spec (stable_view proc.pid fun _ _ => id) hv _)) ?_
    rintro _ rfl
    refine Runs.quiet (P := fun k => k = args.draws.aFace) (fun h hv =>
      (wpe_adapt ..).2 (generateKey_spec (stable_view proc.pid fun _ _ => id) hv _)) ?_
    rintro _ rfl
    refine Runs.then (runs_sealAndSave hseed (fun _ => id) (fun _ => rfl) _) fun _ _ => ?_
    exact Runs.then runs_writeSecretFile fun _ _ => runs_saveTemplate face

theorem deriveLockoutAuth_ok (E : Primitives) (recovery : SecretBytes) :
    deriveLockoutAuth E recovery = .ok (lockoutAuthOf E recovery) ∧
      (lockoutAuthOf E recovery).length = 32 := by
  obtain ⟨okm, hok, hlen⟩ := @Primitives.hkdf_ok E none recovery lockoutAuthInfo lockoutAuthLen
    (by decide)
  simp only [lockoutAuthOf, deriveLockoutAuth, hok]
  exact ⟨rfl, hlen⟩

theorem lockoutAuthOf_ne_nil (E : Primitives) (recovery : SecretBytes) :
    lockoutAuthOf E recovery ≠ [] := fun h => by
  have hlen := (deriveLockoutAuth_ok E recovery).2
  rw [h] at hlen
  cases hlen

/-- Binding the lockout hierarchy, when it has no authValue. -/
theorem runs_setLockoutAuth {auth : SecretBytes} (hheld : v.lockoutAuth = [])
    (hlen : auth.length ≤ 32) :
    Enrolls E may args seed [.bind auth] v t
      (recorded (context "bind the TPM lockout hierarchy to the recovery secret"
          (setLockoutAuth [] auth))
        fun tx => { tx with lockoutAuth := some auth }) fun _ => True := by
  refine Runs.recorded (fun h hv => (wpe_adapt ..).2 ?_) rfl
  subst hv
  refine setLockoutAuth_spec (by simp) hlen hheld (fun h' hs => ?_) (fun _ h' _ hs => ?_)
    fun _ h' _ hs => ?_
  · exact ⟨.inr ⟨trivial, .inl hs⟩, trivial, hs⟩
  · exact ⟨.inr ⟨trivial, .inr (.inl hs)⟩, .inr ⟨trivial, .inl hs⟩⟩
  · exact ⟨.inr ⟨trivial, .inr (.inr hs)⟩, .inr ⟨trivial, .inr hs⟩⟩

/-- The lockout hierarchy is left alone, or bound and marked. -/
theorem runs_bindLockout {proc : Process} {held : SecretBytes} (hv : v.lockoutAuth = held) :
    Enrolls E may args seed (lockoutSteps E args held) v t
      (bindLockout E proc args.draws.recoverySecret) fun _ => True := by
  subst hv
  obtain ⟨hderive, hlen⟩ := deriveLockoutAuth_ok E args.draws.recoverySecret
  have hquiet : Stable proc.pid Eq (fun _ h' => h'.view = v) fun h => h.view = v :=
    stable_view _ fun _ _ => id
  refine Runs.quiet (P := fun taken => taken = decide (v.lockoutAuth ≠ []))
    (fun h hv => (wpe_adapt ..).2 (lockoutAuthIsSet_spec (hquiet) hv
      fun h hv => congrArg View.lockoutAuth hv)) ?_
  rintro _ rfl
  by_cases hheld : v.lockoutAuth = []
  · simp only [lockoutSteps, hheld, ne_eq, not_true_eq_false, decide_false, if_true]
    refine Runs.quiet (P := fun auth => auth = lockoutAuthOf E args.draws.recoverySecret)
      (fun h hv => (wpe_adapt ..).2 (ofExcept_spec (fun auth ha => ⟨?_, hv⟩) fun _ => hv)) ?_
    · exact Except.ok.inj (ha.symm.trans hderive)
    rintro _ rfl
    refine Runs.then (runs_setLockoutAuth hheld hlen.le) fun _ _ => ?_
    have hvalid : Valid E args seed (.place .lockoutOwned []) := trivial
    exact Runs.change (fun h hv => (wpe_adapt ..).2 (wpe_mono
      (replaceFile_spec (stepRule proc.pid hvalid) rfl hv)
      (fun _ _ h => ⟨trivial, h⟩) fun _ _ => id)) rfl
  · simp only [lockoutSteps, hheld, ne_eq, not_false_eq_true, decide_true, if_true, if_false]
    refine .lift fun h hv => (wpe_lift ..).2 (wp_post (wp_quiet (hquiet) ?_ hv)
      fun _ _ hv => ⟨trivial, hv⟩)
    exact (Prog.all_call _ _).2 (warning_ne_criticalText _)

theorem runs_rekey :
    Enrolls E may args seed [rekeyStep args] v t
      (recorded (context "rekey the login keyring to the TPM-sealed key"
          (keyringRekey args.old args.draws.key true))
        fun tx => { tx with newKey := some args.draws.key }) fun _ => True := by
  refine Runs.recorded (fun h hv => (wpe_adapt ..).2 ?_) rfl
  subst hv
  refine keyringRekey_spec (fun h' _ hs => ?_) (fun _ _ => ⟨.inl rfl, .inl rfl⟩)
    fun _ h' _ _ hs => ?_
  · exact ⟨.inr ⟨trivial, .inl hs⟩, trivial, hs⟩
  · exact ⟨.inr ⟨trivial, .inr hs⟩, .inr ⟨trivial, hs⟩⟩

theorem verifyRekeyed_all {pid : ℕ} (key : SecretBytes) :
    AllOps (Quiet pid) (verifyRekeyed key) := by
  have h₁ : AllOps (Quiet pid) (keyringUnlock key) := (Prog.all_call _ _).2 trivial
  have h₂ : AllOps (Quiet pid) keyringIsLocked := (Prog.all_call _ _).2 trivial
  have h₃ : AllOps (Quiet pid) (ExceptT.mk (call Op.verifyItem) : Io Unit) :=
    (Prog.all_call _ _).2 trivial
  exact .bind (h₁.adapt _) fun _ => .bind (h₂.adapt _) fun _ => .bind (allOps_ensure _ _)
    fun _ => h₃.adapt _

/-- **The transaction** makes the changes of its plan. -/
theorem runs_commit {proc : Process} :
    Enrolls E may args v.seed (plan E args v) v t
      (commit E proc args args.draws.key args.draws.recoverySecret) fun _ => True := by
  refine Runs.then runs_backUp fun _ _ => ?_
  refine Runs.then (runs_sealAndSave rfl (fun _ => id) (fun _ => rfl) _) fun _ _ => ?_
  refine Runs.bind (runs_commitFaceLeg rfl) fun _ _ _ => ?_
  have hauth : ∀ v', ((enrollment E args v.seed).applyAll (faceSteps E args v.seed) v').lockoutAuth =
      v'.lockoutAuth := applyAll_lockoutAuth fun _ => mem_faceSteps
  refine Runs.bind (runs_bindLockout (hauth _)) fun _ _ _ => ?_
  refine Runs.then runs_rekey fun _ _ => .lift fun h hv => wpe_mono (wpe_quiet
    (stable_view proc.pid fun _ _ => id) (verifyRekeyed_all _) hv) (fun _ _ hv => ⟨trivial, hv⟩)
    fun _ _ => id

end Commit

end Tess

import Tess.Enroll.Rollback
import Tess.Enroll.Sample

/-!
# A rollback puts the credential first

`Tx.rollback` for every transaction record, from every host: nothing is assumed of what the record
has to do with the host. The run is taken apart into the calls it makes (`InTurn`), so that what
happens to each recorded file can be said in terms of its own removal.
-/

namespace Tess

open Files Effects

/-! ## Removals, one after another -/

/-- Calls made one after another, whatever they return, and what each of them returned. -/
inductive InTurn (M : Machine Op.Res Host Fault) :
    List (Artifact × Io Unit) → Host → List (Artifact × Except Error Unit) → Host → Prop
  | nil (h : Host) : InTurn M [] h [] h
  | cons {a : Artifact} {x : Io Unit} {rest : List (Artifact × Io Unit)} {r : Except Error Unit}
      {rs : List (Artifact × Except Error Unit)} {h h₁ h₂ : Host} (hx : Returns M x.run h r h₁)
      (hrest : InTurn M rest h₁ rs h₂) : InTurn M ((a, x) :: rest) h ((a, r) :: rs) h₂

variable {M : Machine Op.Res Host Fault}

theorem InTurn.append {xs ys : List (Artifact × Io Unit)}
    {rs ss : List (Artifact × Except Error Unit)} {h h₁ h₂ : Host} (hx : InTurn M xs h rs h₁)
    (hy : InTurn M ys h₁ ss h₂) : InTurn M (xs ++ ys) h (rs ++ ss) h₂ := by
  induction hx with
  | nil h => exact hy
  | cons hx _ ih => exact .cons hx (ih hy)

theorem InTurn.names {xs : List (Artifact × Io Unit)} {rs : List (Artifact × Except Error Unit)}
    {h h' : Host} (hx : InTurn M xs h rs h') : rs.map Prod.fst = xs.map Prod.fst := by
  induction hx with
  | nil h => rfl
  | cons _ _ ih => simp [ih]

/-- A call that removes the file of `a`, or fails and changes no file. -/
def Removes (M : Machine Op.Res Host Fault) (a : Artifact) (x : Io Unit) : Prop :=
  ∀ h r h', Returns M x.run h r h' →
    (r = .ok () → h'.view = h.view.remove a) ∧ (r ≠ .ok () → h'.view = h.view)

/-- What has happened to the files after some removals. -/
structure Removed (xs : List Artifact) (rs : List (Artifact × Except Error Unit)) (h h' : Host) :
    Prop where
  gone : ∀ a, (a, .ok ()) ∈ rs → h'.files a = none
  kept : ∀ a, a ∉ xs → h'.files a = h.files a
  shrinks : ∀ a, h.files a = none → h'.files a = none
  lockoutAuth : h'.tpm.lockoutAuth = h.tpm.lockoutAuth
  credential : h'.keyring.credential = h.keyring.credential

theorem InTurn.removed {xs : List (Artifact × Io Unit)} {rs : List (Artifact × Except Error Unit)}
    {h h' : Host} (hx : InTurn M xs h rs h') (hall : ∀ c ∈ xs, Removes M c.1 c.2) :
    Removed (xs.map Prod.fst) rs h h' := by
  induction hx with
  | nil h => exact ⟨by simp, fun _ _ => rfl, fun _ => id, rfl, rfl⟩
  | @cons a x rest r rs h h₁ h₂ hx hrest ih =>
    obtain ⟨hgone, hkept, hshrinks, hauth, hcred⟩ := ih fun c hc => hall c (by simp [hc])
    obtain ⟨hok, herr⟩ := hall (a, x) (by simp) h r h₁ hx
    have hfirst : (h₁.view = h.view.remove a ∨ h₁.view = h.view) := by
      by_cases hr : r = .ok ()
      · exact .inl (hok hr)
      · exact .inr (herr hr)
    have hfiles : ∀ b, b ≠ a → h₁.files b = h.files b := by
      intro b hb
      rcases hfirst with hv | hv
      · exact (congrFun (congrArg View.files hv) b).trans (View.files_remove_of_ne _ hb)
      · exact congrFun (congrArg View.files hv) b
    have hfree : r = .ok () → h₁.files a = none := fun hr =>
      (congrFun (congrArg View.files (hok hr)) a).trans (by simp [View.remove])
    refine ⟨?_, ?_, ?_, hauth.trans ?_, hcred.trans ?_⟩
    · intro b hb
      rcases List.mem_cons.1 hb with hb | hb
      · obtain ⟨rfl, rfl⟩ := Prod.mk.inj hb
        exact hshrinks _ (hfree rfl)
      · exact hgone b hb
    · intro b hb
      simp only [List.map_cons, List.mem_cons, not_or] at hb
      exact (hkept b hb.2).trans (hfiles b hb.1)
    · intro b hb
      apply hshrinks
      by_cases hba : b = a
      · subst hba
        by_cases hr : r = .ok ()
        · exact hfree hr
        · exact (congrFun (congrArg View.files (herr hr)) b).trans hb
      · rw [hfiles b hba, hb]
    · rcases hfirst with hv | hv
      · exact congrArg View.lockoutAuth hv
      · exact congrArg View.lockoutAuth hv
    · rcases hfirst with hv | hv
      · exact congrArg View.credential hv
      · exact congrArg View.credential hv

/-! ## The removals of a rollback -/

/-- A removal, when its file was recorded. -/
def recordedCall (written : Bool) (a : Artifact) (x : Io Unit) : List (Artifact × Io Unit) :=
  if written then [(a, x)] else []

namespace Tx

/-- The removal of the template, when it was recorded for a user. -/
def templateRemoval (E : Primitives) (proc : Process) (tx : Tx) : Option String → List (Artifact × Io Unit)
  | some username =>
    recordedCall tx.faceStoreEnrolled (.template username) (removeTemplate E proc username)
  | none => []

/-- The removals of the recorded files, in their order. -/
def removals (E : Primitives) (proc : Process) (tx : Tx) (face : Option String) :
    List (Artifact × Io Unit) :=
  tx.templateRemoval E proc face ++
    (recordedCall tx.faceKeyWritten .faceKey (removeWritten proc "face-unlock key" .faceKey) ++
      (recordedCall tx.faceMetadataWritten .metadataFace
          (removeWritten proc "face sealed metadata" .metadataFace) ++
        (recordedCall tx.metadataWritten .metadata
            (removeWritten proc "sealed metadata" .metadata) ++
          recordedCall tx.recoveryWritten .recovery
            (removeWritten proc "recovery blob" .recovery))))

end Tx

theorem names_recordedCall (written : Bool) (a : Artifact) (x : Io Unit) :
    (recordedCall written a x).map Prod.fst = recordedFile written a := by
  cases written <;> rfl

/-- The files that are to be removed are the recorded ones. -/
theorem mem_names_removals {E : Primitives} {proc : Process} {tx : Tx} {face : Option String}
    {a : Artifact} :
    a ∈ (tx.removals E proc face).map Prod.fst ↔ a ∈ tx.written face := by
  have htemplate : (tx.templateRemoval E proc face).map Prod.fst = tx.enrolledTemplate face := by
    cases face with
    | some username => exact names_recordedCall ..
    | none => rfl
  simp only [Tx.removals, Tx.written, List.map_append, htemplate, names_recordedCall,
    List.mem_append]
  grind

/-- The marker of the lockout hierarchy is not among them. -/
theorem not_mem_written {tx : Tx} {face : Option String} :
    Artifact.lockoutOwned ∉ tx.written face := by
  have hrecorded : ∀ {written : Bool} {a : Artifact}, a ≠ .lockoutOwned →
      Artifact.lockoutOwned ∉ recordedFile written a := by
    intro written a ha
    cases written <;> simp [recordedFile, ha.symm]
  have htemplate : Artifact.lockoutOwned ∉ tx.enrolledTemplate face := by
    cases face with
    | some username => exact hrecorded (by simp)
    | none => simp [Tx.enrolledTemplate]
  simp [Tx.written, hrecorded, htemplate]

section Runs

variable {E : Primitives} {may : Host → Op → Fault → Prop} {proc : Process} {tx : Tx}
  {old : SecretBytes} {face : Option String} {h h' : Host}

theorem removes_of_wpe {a : Artifact} {x : Io Unit} {G : Host → Host → Host → Prop}
    (hx : ∀ h : Host, wpe (machine E may) Eq (G h) x (fun _ h' => h'.view = h.view.remove a)
      (fun _ h' => h'.view = h.view) h) : Removes (machine E may) a x := by
  intro h r h' hr
  have hpost := Returns.post (hx h) hr
  cases r with
  | ok u => exact ⟨fun _ => hpost, fun hne => absurd rfl hne⟩
  | error e => exact ⟨fun heq => absurd heq (by simp), fun _ => hpost⟩

theorem removes_recordedCall {written : Bool} {a : Artifact} {x : Io Unit}
    (hx : Removes (machine E may) a x) :
    ∀ c ∈ recordedCall written a x, Removes (machine E may) c.1 c.2 := by
  intro c hc
  unfold recordedCall at hc
  split at hc
  · rw [List.mem_singleton.1 hc]
    exact hx
  · cases hc

/-- Every recorded removal removes its file, or changes no file. -/
theorem removes_removals : ∀ c ∈ tx.removals E proc face, Removes (machine E may) c.1 c.2 := by
  have hwritten : ∀ what a, Removes (machine E may) a (Tx.removeWritten proc what a) :=
    fun what a => removes_of_wpe (removeWritten_spec what a)
  intro c hc
  simp only [Tx.removals, List.mem_append] at hc
  rcases hc with hc | hc | hc | hc | hc
  · cases face with
    | some username => exact removes_recordedCall (removes_of_wpe (removeTemplate_spec _)) c hc
    | none => cases hc
  all_goals exact removes_recordedCall (hwritten _ _) c hc

/-- A clean-up step makes its call when the file was recorded, and goes on whatever comes of it. -/
theorem cleanupStep_inTurn {written : Bool} {a : Artifact} {x : Io Unit} {c c' : Except Error Unit}
    (hr : Returns M (cleanupStep written x c) h c' h') :
    ∃ rs, InTurn M (recordedCall written a x) h rs h' ∧
      (c' = .ok () ↔ c = .ok () ∧ ∀ r ∈ rs, r.2 = .ok ()) := by
  unfold cleanupStep recordedCall at *
  cases written with
  | false =>
    obtain ⟨rfl, rfl⟩ := returns_pure hr
    exact ⟨[], .nil _, by simp⟩
  | true =>
    obtain ⟨r, h₁, hx, hrest⟩ := returns_bind hr
    cases r with
    | ok u =>
      obtain ⟨rfl, rfl⟩ := returns_pure hrest
      exact ⟨[(a, .ok ())], .cons hx (.nil _), by simp⟩
    | error e =>
      obtain ⟨rfl, rfl⟩ := returns_pure hrest
      refine ⟨[(a, .error e)], .cons hx (.nil _), ?_⟩
      cases c <;> simp [foldCleanup]

theorem removeArtifacts_inTurn {c : Except Error Unit}
    (hr : Returns M (tx.removeArtifacts E proc face) h c h') :
    ∃ rs, InTurn M (tx.removals E proc face) h rs h' ∧ (c = .ok () ↔ ∀ r ∈ rs, r.2 = .ok ()) := by
  obtain ⟨c₁, h₁, hr₁, hr⟩ := returns_bind hr
  obtain ⟨c₂, h₂, hr₂, hr⟩ := returns_bind hr
  obtain ⟨c₃, h₃, hr₃, hr⟩ := returns_bind hr
  obtain ⟨c₄, h₄, hr₄, hr₅⟩ := returns_bind hr
  have hfirst : ∃ rs, InTurn M (tx.templateRemoval E proc face) h rs h₁ ∧
      (c₁ = .ok () ↔ ∀ r ∈ rs, r.2 = .ok ()) := by
    cases face with
    | some username =>
      obtain ⟨rs, hrs, hc⟩ := cleanupStep_inTurn (a := .template username) hr₁
      exact ⟨rs, hrs, by simpa using hc⟩
    | none =>
      obtain ⟨rfl, rfl⟩ := returns_pure hr₁
      exact ⟨[], .nil _, by simp⟩
  obtain ⟨rs₁, hrs₁, hc₁⟩ := hfirst
  obtain ⟨rs₂, hrs₂, hc₂⟩ := cleanupStep_inTurn (a := .faceKey) hr₂
  obtain ⟨rs₃, hrs₃, hc₃⟩ := cleanupStep_inTurn (a := .metadataFace) hr₃
  obtain ⟨rs₄, hrs₄, hc₄⟩ := cleanupStep_inTurn (a := .metadata) hr₄
  obtain ⟨rs₅, hrs₅, hc₅⟩ := cleanupStep_inTurn (a := .recovery) hr₅
  refine ⟨_, hrs₁.append (hrs₂.append (hrs₃.append (hrs₄.append hrs₅))), ?_⟩
  rw [hc₅, hc₄, hc₃, hc₂, hc₁]
  simp only [List.forall_mem_append, and_assoc]

/-- Putting the credential back touches the keyring alone. -/
theorem restoreCredential_only {r : Except Error Unit}
    (hr : Returns (machine E may) (tx.restoreCredential old).run h r h') :
    h'.files = h.files ∧ h'.tpm.lockoutAuth = h.tpm.lockoutAuth := by
  unfold Tx.restoreCredential at hr
  cases hk : tx.newKey with
  | none =>
    rw [hk] at hr
    obtain ⟨-, rfl⟩ := returns_pure hr
    exact ⟨rfl, rfl⟩
  | some key =>
    rw [hk] at hr
    have hrekey : wpe (machine E may) Eq (fun _ _ => True)
        (context "could not restore the original keyring credential after a failed enrollment"
          (keyringRekey key old false))
        (fun _ h' => h'.files = h.files ∧ h'.tpm.lockoutAuth = h.tpm.lockoutAuth)
        (fun _ h' => h'.files = h.files ∧ h'.tpm.lockoutAuth = h.tpm.lockoutAuth) h := by
      refine (wpe_adapt ..).2 ((wpe_mk ..).2 ((wp_call_alone ..).2 fun f _ => ⟨trivial, ?_⟩))
      change outcome _ _ (exec E (.rekey key old false) f h).1 (exec E (.rekey key old false) f h).2
      simp only [exec]
      split
      · cases f <;> exact ⟨rfl, rfl⟩
      · exact ⟨rfl, rfl⟩
    have hpost := Returns.post hrekey hr
    cases r <;> exact hpost

/-- Undoing the lockout hierarchy touches no file but the marker, and that only when the binding was
recorded. -/
theorem restoreLockoutAuth_only (hr : Returns (machine E may) tx.restoreLockoutAuth h () h') :
    ∀ a, (a = .lockoutOwned → tx.lockoutAuth = none) → h'.files a = h.files a := by
  unfold Tx.restoreLockoutAuth at hr
  cases hauth : tx.lockoutAuth with
  | none =>
    rw [hauth] at hr
    obtain ⟨-, rfl⟩ := returns_pure hr
    exact fun _ _ => rfl
  | some derived =>
    rw [hauth] at hr
    have hwarn : ∀ {text : String} {h₁ h₂ : Host}, Returns (machine E may) (warn text) h₁ () h₂ →
        h₂.files = h₁.files := by
      intro text h₁ h₂ hr
      have hview := Returns.post (warn_spec (v := h₁.view) (G := fun _ _ => True) text
        (fun _ _ _ => trivial) rfl) hr
      exact congrArg View.files hview
    obtain ⟨r, h₁, hcalled, hr⟩ := returns_bind hr
    have hset : h₁.files = h.files := by
      have hcall : wp (machine E may) Eq (fun _ _ => True) (call (.setLockoutAuth derived []))
          (fun _ h' => h'.files = h.files) h :=
        (wp_call_alone ..).2 fun f _ => ⟨trivial, Host.files_of_disk (disk_exec id)⟩
      have hpost := Returns.post hcall hcalled
      exact hpost
    intro a ha
    have hne : a ≠ .lockoutOwned := fun hno => by cases ha hno
    cases r with
    | error e => rw [hwarn hr, hset]
    | ok u =>
      obtain ⟨r, h₂, hremove, hr⟩ := returns_bind hr
      have hview := Returns.post (removeFile_spec (v := h₁.view) rfl) hremove
      have hmarker : h₂.files a = h₁.files a := by
        cases r with
        | ok u =>
          have hview : h₂.view = h₁.view.remove .lockoutOwned := hview
          exact (congrFun (congrArg View.files hview) a).trans (View.files_remove_of_ne _ hne)
        | error e => exact congrFun (congrArg View.files hview.2) a
      cases r with
      | ok u =>
        obtain ⟨-, rfl⟩ := returns_pure hr
        rw [hmarker, hset]
      | error e => rw [hwarn hr, hmarker, hset]

/-- Once the lockout hierarchy has been given back, the marker is removed, or its own removal has
failed. -/
theorem restoreLockoutAuth_unmarks {derived : SecretBytes}
    (hr : Returns (machine E may) tx.restoreLockoutAuth h () h')
    (hauth : tx.lockoutAuth = some derived) :
    ∃ c h₁, Returns (machine E may) (setLockoutAuth derived []).run h c h₁ ∧
      (c = .ok () → ∃ x h₂, Returns (machine E may) (removeFile .lockoutOwned).run h₁ x h₂ ∧
        (x = .ok () → h'.files .lockoutOwned = none)) := by
  unfold Tx.restoreLockoutAuth at hr
  rw [hauth] at hr
  obtain ⟨c, h₁, hset, hr⟩ := returns_bind hr
  refine ⟨c, h₁, hset, fun hc => ?_⟩
  subst hc
  obtain ⟨x, h₂, hremove, hr⟩ := returns_bind hr
  refine ⟨x, h₂, hremove, fun hx => ?_⟩
  subst hx
  obtain ⟨-, rfl⟩ := returns_pure hr
  have hview := returns_ok (removeFile_spec (v := h₁.view) rfl) hremove
  exact (congrFun (congrArg View.files hview) _).trans (by simp [View.remove])

/-- What a rollback does from `h₁`, when the credential is where it should be: every recorded file
is removed, or its own removal has failed, and the verdict is that of the removals alone. -/
structure UndoneAll (E : Primitives) (M : Machine Op.Res Host Fault) (proc : Process) (tx : Tx)
    (face : Option String) (h h₁ : Host) (r : Rollback) (h' : Host) : Prop where
  removed : ∃ h₂ rs, Returns M tx.restoreLockoutAuth h₁ () h₂ ∧
    InTurn M (tx.removals E proc face) h₂ rs h' ∧
    (∀ a ∈ tx.written face, ∃ x, (a, x) ∈ rs) ∧
    (∀ a, (a, .ok ()) ∈ rs → h'.files a = none) ∧
    (r = .restored ↔ ∀ x ∈ rs, x.2 = .ok ())
  unmarked : ∀ derived, tx.lockoutAuth = some derived →
    ∃ c h₂, Returns M (setLockoutAuth derived []).run h₁ c h₂ ∧
      (c = .ok () → ∃ x h₃, Returns M (removeFile .lockoutOwned).run h₂ x h₃ ∧
        (x = .ok () → h'.files .lockoutOwned = none))
  untouched : ∀ a ∉ tx.written face, (a = .lockoutOwned → tx.lockoutAuth = none) →
    h'.files a = h.files a
  verdict : r = .restored ∨ ∃ e, r = .cleanupFailed e

/-- **The credential first**, for every record, host and pattern of failures: when the rekey back
fails, nothing else is touched; otherwise every recorded removal is made. -/
theorem rollback_credentialFirst {r : Rollback}
    (hr : Returns (machine E may) (tx.rollback E proc old face) h r h') :
    ∃ c h₁, Returns (machine E may) (tx.restoreCredential old).run h c h₁ ∧
      (∀ e, c = .error e →
        r = .restoreFailed e ∧ h'.files = h.files ∧ h'.tpm.lockoutAuth = h.tpm.lockoutAuth) ∧
      (c = .ok () → UndoneAll E (machine E may) proc tx face h h₁ r h') := by
  obtain ⟨c, h₁, hcred, hr⟩ := returns_bind hr
  have honly := restoreCredential_only hcred
  refine ⟨c, h₁, hcred, ?_, ?_⟩
  · rintro e rfl
    obtain ⟨rfl, rfl⟩ := returns_pure hr
    exact ⟨rfl, honly⟩
  · rintro rfl
    obtain ⟨u, h₂, hauth, hr⟩ := returns_bind hr
    obtain ⟨c, h₃, hremove, hr⟩ := returns_bind hr
    obtain ⟨rs, hrs, hc⟩ := removeArtifacts_inTurn hremove
    have hremoved := hrs.removed removes_removals
    have hverdict : h' = h₃ ∧ (r = .restored ↔ c = .ok ()) ∧
        (r = .restored ∨ ∃ e, r = .cleanupFailed e) := by
      cases c with
      | ok u =>
        obtain ⟨rfl, rfl⟩ := returns_pure hr
        exact ⟨rfl, by simp, .inl rfl⟩
      | error e =>
        obtain ⟨rfl, rfl⟩ := returns_pure hr
        exact ⟨rfl, by simp, .inr ⟨e, rfl⟩⟩
    obtain ⟨rfl, hrestored, hverdict⟩ := hverdict
    refine ⟨⟨h₂, rs, hauth, hrs, ?_, hremoved.gone, hrestored.trans hc⟩, ?_, ?_, hverdict⟩
    · intro a ha
      have hmem : a ∈ rs.map Prod.fst := by
        rw [hrs.names]
        exact mem_names_removals.2 ha
      obtain ⟨⟨b, x⟩, hx, rfl⟩ := List.mem_map.1 hmem
      exact ⟨x, hx⟩
    · intro derived hbound
      obtain ⟨c, h₃, hset, hgone⟩ := restoreLockoutAuth_unmarks hauth hbound
      have hkept : h'.files .lockoutOwned = h₂.files .lockoutOwned :=
        hremoved.kept _ fun hmem => not_mem_written (mem_names_removals.1 hmem)
      rw [hkept]
      exact ⟨c, h₃, hset, hgone⟩
    · intro a ha hmarker
      rw [hremoved.kept a (fun hmem => ha (mem_names_removals.1 hmem)),
        restoreLockoutAuth_only hauth a hmarker, honly.1]

end Runs

open Sample in
def sampleArgs : EnrollArgs := ⟨password, pin, some ⟨"user", ⟨enrollmentVersion, []⟩⟩, draws 1 2⟩

open Sample in
/-- All the steps of an enrollment, with what was recorded of them. -/
def sampleCommitted : (Except Error Unit × Tx) × Host :=
  eval (machine sample anyFault) .ok
    ((commit sample (proc 1) sampleArgs sampleArgs.draws.key sampleArgs.draws.recoverySecret).run.run
      {}) fresh

def sampleTx : Tx := sampleCommitted.1.2

open Sample in
/-- The failure-free rollback of it. -/
def sampleRollback : Rollback × Host :=
  eval (machine sample anyFault) .ok (sampleTx.rollback sample (proc 1) password (some "user"))
    sampleCommitted.2

open Sample in
theorem rollback_credentialFirst_sample :
    (∀ a ∈ sampleTx.written (some "user"), (sampleCommitted.2.files a).isSome = true) ∧
    ∃ c h₁, Returns (machine sample anyFault) (sampleTx.restoreCredential password).run
        sampleCommitted.2 c h₁ ∧
      (∀ e, c = .error e → sampleRollback.1 = .restoreFailed e ∧
        sampleRollback.2.files = sampleCommitted.2.files ∧
          sampleRollback.2.tpm.lockoutAuth = sampleCommitted.2.tpm.lockoutAuth) ∧
      (c = .ok () → UndoneAll sample (machine sample anyFault) (proc 1) sampleTx (some "user")
        sampleCommitted.2 h₁ sampleRollback.1 sampleRollback.2) :=
  ⟨by decide +kernel, rollback_credentialFirst (returns_eval (fun _ _ => trivial) _ _)⟩

end Tess

import Tess.Enroll.Progress

/-!
# What a rollback leaves

`Tx.rollback` on its own: it puts the credential back first, and stops there when it cannot; then
it undoes the binding of the lockout hierarchy, where a failure is only a warning; then it removes
the recorded files, going on after a failure. `RolledBack` describes the view after each of its
three outcomes, and `RollingBack` the views on the way.
-/

namespace Tess

open Files Effects

/-! ## Removing files -/

namespace View

/-- The names in `gone` are free. -/
def removeAll (v : View) (gone : List Artifact) : View :=
  { v with files := fun a => if a ∈ gone then none else v.files a }

@[simp] theorem removeAll_nil (v : View) : v.removeAll [] = v := by simp [removeAll]

theorem removeAll_cons (v : View) (a : Artifact) (gone : List Artifact) :
    v.removeAll (a :: gone) = (v.removeAll gone).remove a := by
  simp only [removeAll, remove, mk.injEq, and_true, true_and]
  funext b
  by_cases hb : b = a <;> simp [hb]

theorem remove_of_free {v : View} {a : Artifact} (h : v.files a = none) : v.remove a = v := by
  unfold remove
  rw [show Function.update v.files a none = v.files from by rw [← h, Function.update_eq_self]]

theorem removeAll_congr (v : View) {gone gone' : List Artifact} (h : gone ⊆ gone')
    (h' : gone' ⊆ gone) : v.removeAll gone = v.removeAll gone' := by
  simp only [removeAll, mk.injEq, and_true, true_and]
  funext a
  rw [if_congr ⟨(h ·), (h' ·)⟩ rfl rfl]

theorem files_removeAll {v : View} {a : Artifact} {gone : List Artifact} :
    (v.removeAll gone).files a = if a ∈ gone then none else v.files a := rfl

end View

section Removal

variable {E : Primitives} {may : Host → Op → Fault → Prop} {proc : Process} {v : View} {h : Host}

/-- What a removal allows on the way. -/
abbrev DuringRemoval (a : Artifact) (v : View) : Host → Host → Prop :=
  fun _ h' => h'.view = v ∨ h'.view = v.remove a

/-- The file of `a` may fail to be removed. -/
def RemovalFails (may : Host → Op → Fault → Prop) (v : View) (a : Artifact) : Prop :=
  (∃ f, f ≠ .ok ∧ Allows may v (.file (.removeFile (.main a))) f) ∨ v.files a = some (.dir 0)

theorem RemovalFails.anyFault {may : Host → Op → Fault → Prop} {v : View} {a : Artifact}
    (h : RemovalFails may v a) : RemovalFails anyFault v a :=
  h.imp (fun ⟨f, hf, ha⟩ => ⟨f, hf, ha.anyFault⟩) id

theorem stable_removal (a : Artifact) (pid : ℕ) (v : View) :
    Stable pid Eq (DuringRemoval a v) fun h => h.view = v := stable_view _ fun _ _ => .inl

/-- A removal that is called for its outcome. -/
theorem fsRemoveFile_spec {a : Artifact} (hv : h.view = v) :
    wp (machine E may) Eq (DuringRemoval a v) (fsRemoveFile (.main a)).run
      (fun r h' => (r = .ok () ∨ r = .error .notFound) ∧ h'.view = v.remove a ∨
        ∃ e, e ≠ .notFound ∧ r = .error e ∧ RemovalFails may v a ∧ h'.view = v) h := by
  subst hv
  refine (wp_call_alone ..).2 fun f hf => ?_
  rcases exec_removeFile E 0 h f a with
    ⟨hr, hstep⟩ | ⟨hr, hfree, hsame⟩ | ⟨e, hr, hne, hsame, hwhy⟩
  · exact ⟨.inr hstep.view, .inl ⟨.inl hr, hstep.view⟩⟩
  · have hview := (congrArg Host.view hsame).trans (View.remove_of_free hfree).symm
    exact ⟨.inr hview, .inl ⟨.inr hr, hview⟩⟩
  · have hview := congrArg Host.view hsame
    exact ⟨.inl hview, .inr ⟨e, hne, hr, hwhy.imp (fun hne => ⟨f, hne, allows_of_may hf⟩) id,
      hview⟩⟩

theorem removeFile_spec {a : Artifact} (hv : h.view = v) :
    wpe (machine E may) Eq (DuringRemoval a v) (removeFile a) (fun _ h' => h'.view = v.remove a)
      (fun _ h' => RemovalFails may v a ∧ h'.view = v) h := by
  refine (wpe_mk ..).2 ((wp_bind ..).2 (wp_post (fsRemoveFile_spec hv) ?_))
  rintro r h' (⟨rfl | rfl, hv⟩ | ⟨e, hne, rfl, hv⟩)
  · exact hv
  · exact hv
  · cases e <;> first | exact absurd rfl hne | exact hv

theorem store_remove_spec {username : String} (hv : h.view = v) :
    wpe (machine E may) Eq (DuringRemoval (.template username) v)
      (EnrollStore.remove E proc username)
      (fun _ h' => h'.view = v.remove (.template username)) (fun _ h' => h'.view = v) h := by
  have hstable := stable_removal (.template username) proc.pid v
  refine wpe_seq (P := fun _ h => h.view = v) (wpe_quiet hstable (ensureDir_all proc) hv)
    fun _ h hv => ?_
  refine wpe_seq (P := fun a h => a = .template username ∧ h.view = v)
    (ofExcept_spec (fun a ha => ?_) fun _ => hv) ?_
  · unfold EnrollStore.userPath at ha
    split at ha
    · exact ⟨(Except.ok.inj ha).symm, hv⟩
    · cases ha
  rintro _ h ⟨rfl, hv⟩
  refine wpe_seq ((wpe_lift ..).2 (fsRemoveFile_spec hv)) ?_
  rintro r h' (⟨rfl | rfl, hv⟩ | ⟨e, hne, rfl, -, hv⟩)
  · exact hv
  · exact hv
  · cases e <;> first | exact absurd rfl hne | exact hv

end Removal

/-! ## The recorded files -/

/-- A file, when it was recorded. -/
def recordedFile (written : Bool) (a : Artifact) : List Artifact := if written then [a] else []

namespace Tx

/-- The template, when it was recorded for a user. -/
def enrolledTemplate (tx : Tx) : Option String → List Artifact
  | some username => recordedFile tx.faceStoreEnrolled (.template username)
  | none => []

/-- The files that the transaction recorded. -/
def written (tx : Tx) (face : Option String) : List Artifact :=
  recordedFile tx.recoveryWritten .recovery ++ (recordedFile tx.metadataWritten .metadata ++
    (recordedFile tx.faceMetadataWritten .metadataFace ++
      (recordedFile tx.faceKeyWritten .faceKey ++ tx.enrolledTemplate face)))

end Tx

section Cleanup

variable {E : Primitives} {may : Host → Op → Fault → Prop} {proc : Process} {h : Host}

/-- Files of `as` were removed from `v`, all of them when nothing failed. -/
def Cleaned (v : View) (as : List Artifact) (cleanup : Except Error Unit) (v' : View) : Prop :=
  ∃ gone, gone ⊆ as ∧ (cleanup = .ok () → as ⊆ gone) ∧ v' = v.removeAll gone

theorem Cleaned.start (v : View) : Cleaned v [] (.ok ()) v :=
  ⟨[], by simp, fun _ => by simp, by simp⟩

/-- The views of a clean-up of `as`. -/
def Cleaning (v : View) (as : List Artifact) (v' : View) : Prop :=
  ∃ gone, gone ⊆ as ∧ v' = v.removeAll gone

theorem Cleaned.cleaning {v v' : View} {as : List Artifact} {c : Except Error Unit}
    (h : Cleaned v as c v') : Cleaning v as v' := h.imp fun _ h => ⟨h.1, h.2.2⟩

theorem Cleaning.mono {v v' : View} {as bs : List Artifact} (h : Cleaning v as v') (hs : as ⊆ bs) :
    Cleaning v bs v' := h.imp fun _ h => ⟨List.Subset.trans h.1 hs, h.2⟩

theorem cleanupStep_spec {v : View} {as bs : List Artifact} {written : Bool} {a : Artifact}
    {x : Io Unit} {c : Except Error Unit}
    (hx : ∀ h : Host, wpe (machine E may) Eq (DuringRemoval a h.view) x
      (fun _ h' => h'.view = h.view.remove a) (fun _ h' => h'.view = h.view) h)
    (hs : recordedFile written a ++ as ⊆ bs) (hc : Cleaned v as c h.view) :
    wp (machine E may) Eq (fun _ h' => Cleaning v bs h'.view) (cleanupStep written x c)
      (fun c h' => Cleaned v (recordedFile written a ++ as) c h'.view) h := by
  unfold cleanupStep recordedFile at *
  cases written with
  | false => simpa using hc
  | true =>
    simp only [if_true] at hs ⊢
    obtain ⟨gone, hsub, hall, hview⟩ := hc
    have hkept : Cleaned v ([a] ++ as) (.error []) (v.removeAll gone) :=
      ⟨gone, List.Subset.trans hsub (by simp), fun h => (nomatch h), rfl⟩
    have hmore : Cleaned v ([a] ++ as) c ((v.removeAll gone).remove a) :=
      ⟨a :: gone, List.cons_subset_cons a hsub,
        fun h => List.cons_subset_cons a (hall h), (View.removeAll_cons ..).symm⟩
    refine (wp_bind ..).2 (wp_mono (hx h) ?_ ?_)
    · rintro _ h' (hv | hv) <;> rw [hv, hview]
      · exact hkept.cleaning.mono hs
      · exact hmore.cleaning.mono hs
    · rintro (e | _) h' hv
      · obtain ⟨gone', h₁, -, h₂⟩ := hkept
        have hv : h'.view = h.view := hv
        refine ⟨gone', h₁, fun hf => ?_, by rw [hv, hview, h₂]⟩
        unfold foldCleanup at hf
        split at hf <;> cases hf
      · have hv : h'.view = h.view.remove a := hv
        rw [hview] at hv
        change Cleaned v _ c h'.view
        rw [hv]
        exact hmore

theorem removeWritten_spec (what : String) (a : Artifact) (h : Host) :
    wpe (machine E may) Eq (DuringRemoval a h.view) (Tx.removeWritten proc what a)
      (fun _ h' => h'.view = h.view.remove a) (fun _ h' => h'.view = h.view) h :=
  (wpe_adapt ..).2 (wpe_mono (removeFile_spec rfl) (fun _ _ => id) fun _ _ => And.right)

theorem removeTemplate_spec (username : String) (h : Host) :
    wpe (machine E may) Eq (DuringRemoval (.template username) h.view)
      (Tx.removeTemplate E proc username)
      (fun _ h' => h'.view = h.view.remove (.template username)) (fun _ h' => h'.view = h.view) h :=
  wpe_seq ((wpe_adapt ..).2 (store_remove_spec rfl)) fun _ _ hv => hv

/-- Every recorded file is removed, or an error is reported. -/
theorem removeArtifacts_spec (tx : Tx) (face : Option String) {v : View} (hv : h.view = v) :
    wp (machine E may) Eq (fun _ h' => Cleaning v (tx.written face) h'.view)
      (tx.removeArtifacts E proc face) (fun c h' => Cleaned v (tx.written face) c h'.view) h := by
  have hkey : recordedFile tx.faceKeyWritten .faceKey ++ tx.enrolledTemplate face ⊆
      tx.written face := fun _ h =>
    List.mem_append_right _ (List.mem_append_right _ (List.mem_append_right _ h))
  have hface : recordedFile tx.faceMetadataWritten .metadataFace ++
      (recordedFile tx.faceKeyWritten .faceKey ++ tx.enrolledTemplate face) ⊆
        tx.written face := fun _ h =>
    List.mem_append_right _ (List.mem_append_right _ h)
  have hstart : Cleaned v [] (.ok ()) h.view := hv ▸ .start v
  refine (wp_bind ..).2 (wp_post (Q := fun c h' => Cleaned v (tx.enrolledTemplate face) c h'.view)
    ?_ fun c h hc => ?_)
  · cases face with
    | none => exact hstart
    | some username =>
      have hstep := @cleanupStep_spec E may _ _ _ _ tx.faceStoreEnrolled _ _ _
        (@removeTemplate_spec E may proc username) (List.Subset.refl _) hstart
      simp only [List.append_nil] at hstep
      exact wp_mono hstep
        (fun _ _ hc => hc.mono (List.Subset.trans (List.subset_append_right ..) hkey))
        fun _ _ => id
  refine (wp_bind ..).2 (wp_post (cleanupStep_spec (removeWritten_spec _ _) hkey hc)
    fun c h hc => ?_)
  refine (wp_bind ..).2 (wp_post (cleanupStep_spec (removeWritten_spec _ _) hface hc)
    fun c h hc => ?_)
  refine (wp_bind ..).2 (wp_post (cleanupStep_spec (removeWritten_spec _ _)
    (List.subset_append_right ..) hc) fun c h hc => ?_)
  exact cleanupStep_spec (removeWritten_spec _ _) (List.Subset.refl _) hc

end Cleanup

/-! ## The credential and the lockout hierarchy -/

/-- The view with the credential put back, if it was changed. -/
def Tx.restored (tx : Tx) (old : SecretBytes) (v : View) : View :=
  match tx.newKey with
  | some _ => v.rekey old false
  | none => v

section Undone

variable (may : Host → Op → Fault → Prop)

/-- How a bound authValue is released, or not, and what the environment did when it was not. -/
inductive Released (v : View) (derived : SecretBytes) : View → Prop
  | released : Released v derived (((v.attempt derived).setAuth []).remove .lockoutOwned)
  | marked (hf : RemovalFails may ((v.attempt derived).setAuth []) .lockoutOwned) :
      Released v derived ((v.attempt derived).setAuth [])
  | late (hf : Allows may v (.setLockoutAuth derived []) .late) :
      Released v derived (((v.attempt derived).setAuth []).push (.authLate derived []))
  | refused (hf : ∃ f, f ≠ .ok ∧ Allows may v (.setLockoutAuth derived []) f) :
      Released v derived ((v.attempt derived).push (.authRefused derived []))

/-- The lockout hierarchy at the end of a rollback. -/
def LockoutUndone (auth : Option SecretBytes) (v v' : View) : Prop :=
  match auth with
  | some derived => Released may v derived v'
  | none => v' = v

/-- The outcomes of a rollback. -/
inductive RolledBack (tx : Tx) (old : SecretBytes) (face : Option String) (v : View) :
    Rollback → View → Prop
  | restored {v' : View} (hl : LockoutUndone may tx.lockoutAuth (tx.restored old v) v') :
      RolledBack tx old face v .restored (v'.removeAll (tx.written face))
  | cleanupFailed {v' : View} {gone : List Artifact} (e : Error)
      (hl : LockoutUndone may tx.lockoutAuth (tx.restored old v) v')
      (hg : gone ⊆ tx.written face) :
      RolledBack tx old face v (.cleanupFailed e) (v'.removeAll gone)
  | restoreFailed {key : SecretBytes} (e : Error) (hk : tx.newKey = some key)
      (hf : v.credential ≠ key ∨ ∃ f, f ≠ .ok ∧ Allows may v (.rekey key old false) f) :
      RolledBack tx old face v (.restoreFailed e) v
  | restoredLate {key : SecretBytes} (e : Error) (hk : tx.newKey = some key)
      (hc : v.credential = key) (hf : Allows may v (.rekey key old false) .late) :
      RolledBack tx old face v (.restoreFailed e) ((v.rekey old false).push (.rekeyLate key old))

end Undone

/-- The views on the way. -/
inductive RollingBack (tx : Tx) (old : SecretBytes) (face : Option String) (v : View) : View → Prop
  | here : RollingBack tx old face v v
  | restoredLate {key : SecretBytes} (hk : tx.newKey = some key) (hc : v.credential = key) :
      RollingBack tx old face v ((v.rekey old false).push (.rekeyLate key old))
  | restored : RollingBack tx old face v (tx.restored old v)
  | undone {v' : View} {gone : List Artifact}
      (hl : LockoutUndone anyFault tx.lockoutAuth (tx.restored old v) v')
      (hg : gone ⊆ tx.written face) :
      RollingBack tx old face v (v'.removeAll gone)

section Frames

variable {may : Host → Op → Fault → Prop} {tx : Tx} {old : SecretBytes} {face : Option String}
  {v v' : View}

/-- What undoing the lockout hierarchy and removing files leaves alone. -/
structure View.Frame (v v' : View) : Prop where
  credential : v'.credential = v.credential
  generated : v'.generated = v.generated
  seed : v'.seed = v.seed
  revealed : v'.revealed = v.revealed
  events : v.events ⊆ v'.events
  files : ∀ a, a ≠ .lockoutOwned → v'.files a = v.files a

theorem Released.anyFault {derived : SecretBytes} (h : Released may v derived v') :
    Released anyFault v derived v' := by
  cases h with
  | released => exact .released
  | marked hf => exact .marked hf.anyFault
  | late hf => exact .late hf.anyFault
  | refused hf => exact .refused (hf.imp fun _ hf => ⟨hf.1, hf.2.anyFault⟩)

theorem LockoutUndone.anyFault {auth : Option SecretBytes} (h : LockoutUndone may auth v v') :
    LockoutUndone anyFault auth v v' := by
  cases auth with
  | some derived => exact Released.anyFault h
  | none => exact h

theorem Released.frame {derived : SecretBytes} (h : Released may v derived v') : v.Frame v' := by
  cases h with
  | released =>
    exact ⟨rfl, rfl, rfl, rfl, List.Subset.refl _, fun a ha => Function.update_of_ne ha _ _⟩
  | marked => exact ⟨rfl, rfl, rfl, rfl, List.Subset.refl _, fun _ _ => rfl⟩
  | late | refused => exact ⟨rfl, rfl, rfl, rfl, List.subset_cons_self .., fun _ _ => rfl⟩

theorem LockoutUndone.frame {auth : Option SecretBytes} (h : LockoutUndone may auth v v') :
    v.Frame v' := by
  cases auth with
  | some derived => exact Released.frame h
  | none =>
    obtain rfl := h
    exact ⟨rfl, rfl, rfl, rfl, List.Subset.refl _, fun _ _ => rfl⟩

/-- Files have gone, and nothing else has happened to them. -/
def View.Shrinks (v v' : View) : Prop := ∀ a, v'.files a = none ∨ v'.files a = v.files a

theorem View.Shrinks.of_eq (h : v'.files = v.files) : v.Shrinks v' := fun a => .inr (congrFun h a)

theorem View.Shrinks.removeAll (h : v.Shrinks v') (gone : List Artifact) :
    v.Shrinks (v'.removeAll gone) := fun a => by
  rw [View.files_removeAll]
  split
  · exact .inl rfl
  · exact h a

theorem View.shrinks_remove (v : View) (a : Artifact) : v.Shrinks (v.remove a) := fun b => by
  by_cases hb : b = a <;> simp [View.remove, hb]

theorem Released.shrinks {derived : SecretBytes} (h : Released may v derived v') :
    v.Shrinks v' := by
  cases h with
  | released => exact View.shrinks_remove ((v.attempt derived).setAuth []) .lockoutOwned
  | marked | late | refused => exact .of_eq rfl

theorem LockoutUndone.shrinks {auth : Option SecretBytes} (h : LockoutUndone may auth v v') :
    v.Shrinks v' := by
  cases auth with
  | some derived => exact Released.shrinks h
  | none =>
    obtain rfl := h
    exact .of_eq rfl

/-- Putting the credential back touches nothing else. -/
theorem Tx.restored_frame (tx : Tx) (old : SecretBytes) (v : View) :
    tx.restored old v = { v with
      credential := (tx.restored old v).credential
      generated := (tx.restored old v).generated } := by
  unfold Tx.restored
  cases tx.newKey <;> rfl

theorem Tx.restored_files (tx : Tx) (old : SecretBytes) (v : View) :
    (tx.restored old v).files = v.files := by
  rw [tx.restored_frame]

theorem Tx.restored_seed (tx : Tx) (old : SecretBytes) (v : View) :
    (tx.restored old v).seed = v.seed := by
  rw [tx.restored_frame]

theorem Tx.restored_lockoutAuth (tx : Tx) (old : SecretBytes) (v : View) :
    (tx.restored old v).lockoutAuth = v.lockoutAuth := by
  rw [tx.restored_frame]

theorem Tx.restored_revealed (tx : Tx) (old : SecretBytes) (v : View) :
    (tx.restored old v).revealed = v.revealed := by
  rw [tx.restored_frame]

theorem Tx.restored_attempts (tx : Tx) (old : SecretBytes) (v : View) :
    (tx.restored old v).attempts = v.attempts := by
  rw [tx.restored_frame]

theorem Tx.restored_events (tx : Tx) (old : SecretBytes) (v : View) :
    (tx.restored old v).events = v.events := by
  rw [tx.restored_frame]

theorem RollingBack.shrinks (h : RollingBack tx old face v v') : v.Shrinks v' := by
  cases h with
  | here | restoredLate => exact .of_eq rfl
  | restored => exact .of_eq (tx.restored_files old v)
  | undone hl hg =>
    have hshrinks := hl.shrinks
    unfold View.Shrinks at hshrinks
    rw [tx.restored_files old v] at hshrinks
    exact View.Shrinks.removeAll hshrinks _

/-- The end of a rollback is one of the views on the way. -/
theorem RolledBack.rollingBack {r : Rollback} (h : RolledBack may tx old face v r v') :
    RollingBack tx old face v v' := by
  cases h with
  | restored hl => exact .undone hl.anyFault (List.Subset.refl _)
  | cleanupFailed e hl hg => exact .undone hl.anyFault hg
  | restoreFailed e hk => exact .here
  | restoredLate e hk hc => exact .restoredLate hk hc

/-- The credential in the course of a rollback: untouched, restored, or restored by a rekey that was
reported as failed. -/
theorem RollingBack.credential (h : RollingBack tx old face v v') :
    v.events ⊆ v'.events ∧ (v' = v ∨ (v'.credential = (tx.restored old v).credential ∧
      v'.generated = (tx.restored old v).generated) ∨
      ∃ key, tx.newKey = some key ∧ v.credential = key ∧
        v' = (v.rekey old false).push (.rekeyLate key old)) := by
  have hrestored := tx.restored_events old v
  cases h with
  | here => exact ⟨List.Subset.refl _, .inl rfl⟩
  | restoredLate hk hc => exact ⟨List.subset_cons_self .., .inr (.inr ⟨_, hk, hc, rfl⟩)⟩
  | restored => exact ⟨hrestored ▸ List.Subset.refl _, .inr (.inl ⟨rfl, rfl⟩)⟩
  | undone hl hg => exact ⟨hrestored ▸ hl.frame.events, .inr (.inl ⟨hl.frame.credential,
      hl.frame.generated⟩)⟩

end Frames

section Rollback

variable {E : Primitives} {may : Host → Op → Fault → Prop} {proc : Process} {h : Host} {v : View}

theorem warn_spec (text : String) {G : Host → Host → Prop} (hG : ∀ h h', h'.view = v → G h h')
    (hv : h.view = v) :
    wp (machine E may) Eq G (warn text) (fun _ h' => h'.view = v) h :=
  wp_quiet (stable_view 0 hG) ((Prog.all_call (Quiet 0) (.eprintln _)).2
    (warning_ne_criticalText text)) hv

/-- What the transaction recorded of the lockout hierarchy is what the TPM holds. -/
def Holds (tx : Tx) (v : View) : Prop :=
  ∀ derived, tx.lockoutAuth = some derived → derived.length ≤ 32 ∧ v.lockoutAuth = derived

theorem restoreLockoutAuth_spec {tx : Tx} (hheld : Holds tx v) (hv : h.view = v) :
    wp (machine E may) Eq
      (fun _ h' => h'.view = v ∨ LockoutUndone anyFault tx.lockoutAuth v h'.view)
      tx.restoreLockoutAuth (fun _ h' => LockoutUndone may tx.lockoutAuth v h'.view) h := by
  unfold Tx.restoreLockoutAuth LockoutUndone
  cases ha : tx.lockoutAuth with
  | none => exact hv
  | some derived =>
    obtain ⟨hlen, hheld⟩ := hheld derived ha
    subst hv
    have hmarked : ∀ h' : Host, h'.view = (h.view.attempt derived).setAuth [] →
        Released anyFault h.view derived h'.view := fun h' hs =>
      hs ▸ .marked (.inl ⟨.fail, by decide, h', hs, trivial⟩)
    have hfailed : ∀ e h', Released may h.view derived h'.view → wp (machine E may) Eq
        (fun _ h' => h'.view = h.view ∨ Released anyFault h.view derived h'.view)
        (warn e) (fun _ h' => Released may h.view derived h'.view) h' := fun e h' hrel =>
      wp_post (warn_spec e (fun _ h'' hv => .inr (hv ▸ hrel.anyFault)) rfl)
        fun _ h'' hv => hv ▸ hrel
    have hset : wpe (machine E may) Eq
        (fun _ h' => h'.view = h.view ∨ Released anyFault h.view derived h'.view)
        (setLockoutAuth derived []) (fun _ h' => h'.view = (h.view.attempt derived).setAuth [])
        (fun _ h' => Released may h.view derived h'.view) h :=
      setLockoutAuth_spec hlen (by simp) hheld
        (fun h' hs => ⟨.inr (hmarked h' hs), hs⟩)
        (fun e h' hf hs => ⟨.inr (hs ▸ (Released.late hf).anyFault), hs ▸ .late hf⟩)
        fun e h' hf hs => ⟨.inr (hs ▸ (Released.refused hf).anyFault), hs ▸ .refused hf⟩
    refine (wp_bind ..).2 ((wp_run ..).2 (wpe_mono hset (fun _ h' hs => ?_)
      fun e h' hrel => hfailed _ _ hrel))
    refine (wp_bind ..).2 (wp_mono (removeFile_spec hs) ?_ ?_)
    · rintro _ h' (hv | hv)
      · exact .inr (hmarked h' hv)
      · exact .inr (hv ▸ .released)
    · rintro (e | _) h' hv
      · obtain ⟨hf, hv⟩ := hv
        exact hfailed _ _ (hv ▸ .marked hf)
      · have hv : h'.view = ((h.view.attempt derived).setAuth []).remove .lockoutOwned := hv
        exact show Released may h.view derived h'.view from hv ▸ .released

theorem restoreCredential_spec {tx : Tx} {old : SecretBytes} {face : Option String}
    (hv : h.view = v) :
    wpe (machine E may) Eq (fun _ h' => RollingBack tx old face v h'.view)
      (tx.restoreCredential old) (fun _ h' => h'.view = tx.restored old v)
      (fun e h' => RolledBack may tx old face v (.restoreFailed e) h'.view) h := by
  subst hv
  cases hk : tx.newKey with
  | none =>
    simp only [Tx.restoreCredential, Tx.restored, hk]
    exact rfl
  | some key =>
    have hrestored : tx.restored old h.view = h.view.rekey old false := by simp [Tx.restored, hk]
    simp only [Tx.restoreCredential, hk, hrestored]
    refine (wpe_adapt ..).2 (keyringRekey_spec (fun h' _ hs => ⟨?_, hs⟩)
      (fun e hf => ⟨.here, .restoreFailed _ hk hf⟩) fun e h' hf hc hs => ⟨?_, ?_⟩)
    · rw [hs, ← hrestored]
      exact .restored
    · rw [hs]
      exact .restoredLate hk hc
    · rw [hs]
      exact .restoredLate _ hk hc hf

theorem Holds.restored {tx : Tx} (hheld : Holds tx v) (old : SecretBytes) :
    Holds tx (tx.restored old v) := by
  unfold Tx.restored
  cases tx.newKey with
  | none => exact hheld
  | some key => exact fun d hd => hheld d hd

/-- **The rollback**, from the view in which the transaction stopped. -/
theorem rollback_spec {tx : Tx} {old : SecretBytes} {face : Option String} (hheld : Holds tx v)
    (hv : h.view = v) :
    wp (machine E may) Eq (fun _ h' => RollingBack tx old face v h'.view)
      (tx.rollback E proc old face) (fun r h' => RolledBack may tx old face v r h'.view) h := by
  refine (wp_bind ..).2 ((wp_run ..).2 (wpe_mono (@restoreCredential_spec _ _ _ _ _ _ face hv)
    (fun _ h hv => ?_) fun e h hv => hv))
  refine (wp_bind ..).2 (wp_mono (restoreLockoutAuth_spec (hheld.restored old) hv) ?_
    fun _ h hl => ?_)
  · rintro _ h' (hv | hl)
    · rw [hv]
      exact .restored
    · rw [← View.removeAll_nil h'.view]
      exact .undone hl (List.nil_subset _)
  · refine (wp_bind ..).2 (wp_mono (removeArtifacts_spec tx face rfl) ?_ ?_)
    · rintro _ h' ⟨gone, hg, hv⟩
      rw [hv]
      exact .undone hl.anyFault hg
    · rintro (e | _) h' ⟨gone, hg, hall, hv⟩
      · change RolledBack may tx old face v (.cleanupFailed e) h'.view
        rw [hv]
        exact .cleanupFailed e hl hg
      · change RolledBack may tx old face v .restored h'.view
        rw [hv, View.removeAll_congr _ hg (hall rfl)]
        exact .restored hl

end Rollback

end Tess

import Tess.Effects.Watch
import Tess.Lifecycle.Faultless

/-!
# Unenrolling, end to end

What `unenroll` leaves of an enrollment, under any faults: wherever it ends, the credential and the
files belong together, and no file goes before the credential is the password and the keyring has
been found open with it. The keyring does not say what it was opened with, so the runs are watched:
`Opening` keeps the secret of the latest unlock that was granted.
-/

namespace Tess

open Files Effects

/-! ## What the keyring was opened with -/

/-- The secret of the latest unlock that was granted, and the one that the keyring has been found
unlocked with. -/
structure Opening where
  granted : Option SecretBytes
  verified : Option SecretBytes

namespace Opening

/-- Nothing is known of the keyring. -/
def unknown : Opening := ⟨none, none⟩

/-- A rekey makes void what was known. -/
def note (E : Primitives) : Op → Fault → Host → Opening → Opening
  | .unlock secret, f, h, s =>
    match (exec E (.unlock secret) f h).1 with
    | .ok _ => ⟨some secret, none⟩
    | .error _ => s
  | .isLocked, f, h, s =>
    match (exec E .isLocked f h).1 with
    | .ok false => { s with verified := s.granted }
    | _ => s
  | .rekey .., _, _, _ => unknown
  | _, _, _, s => s

end Opening

/-- The machine that keeps note of what the keyring was opened with. -/
def watchedKeyring (E : Primitives) (may : Host → Op → Fault → Prop) :
    Machine Op.Res (Host × Opening) Fault :=
  (machine E may).watch (Opening.note E)

/-- The credential is the password, and the keyring has been found open with it. -/
structure Confirmed (password : SecretBytes) (s : Host × Opening) : Prop where
  credential : s.1.keyring.credential = password
  verified : s.2.verified = some password

/-! ## Single operations -/

section Operations

variable {E : Primitives} {may : Host → Op → Fault → Prop} {o : Op} {f : Fault} {h : Host}

/-- Operations that leave the files under their final names alone. -/
def KeepsFiles : Op → Prop
  | .file o => QuietFile 0 o
  | _ => True

theorem cleanup_keyringless : Cleanup o → Keyringless o := by
  cases o with
  | unlock | isLocked | rekey => exact fun h => h
  | _ => exact fun _ => trivial

theorem quiet_keepsFiles : Quiet 0 o → KeepsFiles o := by
  cases o with
  | file o => exact id
  | _ => exact fun _ => trivial

theorem files_exec (ho : KeepsFiles o) : (exec E o f h).2.files = h.files := by
  cases o with
  | file o => exact congrArg View.files (@quietStep_file 0 _ ho f h).view
  | _ => exact Host.files_of_disk (disk_exec id)

theorem note_exec (ho : Keyringless o) (s : Opening) : Opening.note E o f h s = s := by
  cases o with
  | unlock | isLocked | rekey => exact ho.elim
  | _ => rfl

end Operations

/-! ## The two parts of an unenrollment -/

section Parts

variable {E : Primitives} {may : Host → Op → Fault → Prop} {proc : Process} {s : Host × Opening}

/-- No file has gone, or the password is confirmed. -/
def InOrder (files : Artifact → Option (Node Path)) (password : SecretBytes) (s : Host × Opening) :
    Prop :=
  s.1.files = files ∨ Confirmed password s

variable {files : Artifact → Option (Node Path)} {password : SecretBytes}

/-- Before the password is confirmed, the files are kept. -/
theorem wpe_keepsFiles {ε α : Type} {x : ExceptT ε (Prog Op.Res) α} (hx : AllOps KeepsFiles x)
    (hs : s.1.files = files) :
    wpe (watchedKeyring E may) Eq (fun _ => InOrder files password) x (fun _ s => s.1.files = files)
      (fun _ s => s.1.files = files) s := by
  refine wpe_all hx (fun _ _ h hs => h ▸ hs) (fun s o f ho _ hs => ?_) hs
  have hfiles : ((watchedKeyring E may).exec o f s).2.1.files = files := (files_exec ho).trans hs
  exact ⟨.inl hfiles, hfiles⟩

/-- Once it is confirmed, it stays so. -/
theorem wpe_confirmed {ε α : Type} {x : ExceptT ε (Prog Op.Res) α} (hx : AllOps Keyringless x)
    (hs : Confirmed password s) :
    wpe (watchedKeyring E may) Eq (fun _ => InOrder files password) x (fun _ => Confirmed password)
      (fun _ => Confirmed password) s := by
  refine wpe_all hx (fun _ _ h hs => h ▸ hs) (fun s o f ho _ hs => ?_) hs
  have hconfirmed : Confirmed password ((watchedKeyring E may).exec o f s).2 :=
    ⟨(congrArg Keyring.credential (keyring_exec ho)).trans hs.credential,
      (congrArg Opening.verified (note_exec ho s.2)).trans hs.verified⟩
  exact ⟨.inr hconfirmed, hconfirmed⟩

theorem rekey_keepsFiles (old new : SecretBytes) (generated : Bool) :
    AllOps KeepsFiles (keyringRekey old new generated) := (Prog.all_call _ _).2 trivial

theorem unlockAndVerify_keepsFiles (secret : SecretBytes) (what : String) :
    AllOps KeepsFiles (unlockAndVerify secret what) :=
  Prog.All.mono (fun _ => quiet_keepsFiles) (unlockAndVerify_all secret what)

/-- An unlock that is followed by a look at the keyring confirms the secret. -/
theorem unlockAndVerify_confirms (secret : SecretBytes) (what : String)
    (hs : s.1.files = files) :
    wpe (watchedKeyring E may) Eq (fun _ => InOrder files secret) (unlockAndVerify secret what)
      (fun _ => Confirmed secret) (fun _ s => s.1.files = files) s := by
  refine wpe_seq (P := fun _ s => s.1.files = files ∧ s.1.keyring.credential = secret ∧
    s.2.granted = some secret) ((wpe_adapt ..).2 ((wp_call_alone ..).2 fun f _ => ?_)) ?_
  · have hfiles : (exec E (.unlock secret) f s.1).2.files = files :=
      (files_exec (o := .unlock secret) trivial).trans hs
    refine ⟨.inl hfiles, ?_⟩
    change outcome _ _ (exec E (.unlock secret) f s.1).1
      ((exec E (.unlock secret) f s.1).2, Opening.note E (.unlock secret) f s.1 s.2)
    by_cases hc : secret = s.1.keyring.credential ∧ f = .ok
    · have hexec : exec E (.unlock secret) f s.1 = (.ok (), s.1.setLocked false) := by
        simp only [exec, if_pos hc]
      simp only [Opening.note, hexec]
      exact ⟨hs, hc.1.symm, rfl⟩
    · have hexec : (exec E (.unlock secret) f s.1).1 =
          .error (keyringError "unlock collection: refused") := by
        simp only [exec, if_neg hc]
      exact outcome_of_error hexec hfiles
  rintro _ s ⟨hs, hcred, hgranted⟩
  refine wpe_seq (P := fun locked s => s.1.files = files ∧ (locked = false → Confirmed secret s))
    ((wpe_adapt ..).2 ((wp_call_alone ..).2 fun f _ => ?_)) ?_
  · have hfiles : (exec E .isLocked f s.1).2.files = files :=
      (files_exec (o := .isLocked) trivial).trans hs
    refine ⟨.inl hfiles, ?_⟩
    change outcome _ _ (exec E .isLocked f s.1).1
      ((exec E .isLocked f s.1).2, Opening.note E .isLocked f s.1 s.2)
    cases f with
    | ok =>
      refine ⟨hfiles, fun hlocked => ⟨hcred, ?_⟩⟩
      simp only [Opening.note, exec, hlocked, hgranted]
    | late => exact ⟨hfiles, fun h => absurd h (by decide)⟩
    | _ => exact hfiles
  · rintro locked s ⟨hs, hlocked⟩
    exact (wpe_ensure ..).2 ⟨hlocked, fun _ => hs⟩

/-- The password is confirmed, or the call fails with the files as they were. -/
theorem confirmPassword_confirms (key : SecretBytes) (hs : s.1.files = files) :
    wpe (watchedKeyring E may) Eq (fun _ => InOrder files password) (confirmPassword key password)
      (fun _ => Confirmed password) (fun _ s => s.1.files = files) s := by
  refine wpe_seq (P := fun r s => outcome (fun _ => Confirmed password)
    (fun _ s => s.1.files = files) r s) ((wpe_lift ..).2 (unlockAndVerify_confirms _ _ hs)) ?_
  rintro (err | _) s hs
  · exact wpe_seq (wpe_keepsFiles ((rekey_keepsFiles ..).adapt _) hs) fun _ _ hs => hs
  · exact hs

/-- **The order of an unenrollment**, under any faults. -/
theorem unenroll_inOrder {args : UnenrollArgs} (hs : s.1.files = files) :
    wpe (watchedKeyring E may) Eq (fun _ => InOrder files args.newPassword) (unenroll E proc args)
      (fun _ _ => True) (fun _ _ => True) s := by
  refine wpe_seq (P := fun _ s => s.1.files = files)
    ((wpe_ensure ..).2 ⟨fun _ => hs, fun _ => trivial⟩) fun _ s hs => ?_
  have hunseal : AllOps KeepsFiles (unsealWithPin E proc args.pin) :=
    Prog.All.mono (fun _ => quiet_keepsFiles) (unsealWithPin_all args.pin)
  refine wpe_step (wpe_keepsFiles hunseal hs) (fun _ _ _ => trivial)
    fun key s hs => ?_
  refine wpe_step (wpe_keepsFiles (unlockAndVerify_keepsFiles ..) hs) (fun _ _ _ => trivial)
    fun _ s hs => ?_
  refine wpe_step (wpe_keepsFiles ((rekey_keepsFiles ..).adapt _) hs) (fun _ _ _ => trivial)
    fun _ s hs => ?_
  refine wpe_step (confirmPassword_confirms key hs) (fun _ _ _ => trivial) fun _ s hs => ?_
  have hrelease : AllOps Keyringless (liftM (tryRelease E proc args.recoverySecret) : Io Unit) :=
    allOps_lift (Prog.All.mono (fun _ ho => cleanup_keyringless (releasing_cleanup ho))
      (tryRelease_releasing _))
  have hremove : AllOps Keyringless (removeBlobs E proc args.face) :=
    Prog.All.mono (fun _ => cleanup_keyringless) (removeBlobs_cleanup _)
  refine wpe_step (wpe_confirmed hrelease hs) (fun _ _ _ => trivial) fun _ s hs => ?_
  exact wpe_mono (wpe_confirmed (hremove.adapt _) hs) (fun _ _ _ => trivial)
    fun _ _ _ => trivial

end Parts

/-! ## The end of an unenrollment -/

/-- The credential is `K`, and the sealed metadata opens to it with some PIN. -/
structure EnrolledWith (E : Primitives) (K : SecretBytes) (h : Host) : Prop where
  credential : h.keyring.credential = K
  metadata : ∃ bytes mode pin, h.files .metadata = some (.file bytes mode) ∧
    unsealBytes E h.tpm.seed bytes pin = some K

section Ends

variable {E : Primitives} {may : Host → Op → Fault → Prop} {args : UnenrollArgs} {v v' : View}

theorem UnenrollEnds.ok {args : UnenrollArgs} (h : UnenrollEnds E may v args (.ok ()) v') :
    v'.credential = args.newPassword ∧ ∀ a ∈ unenrolledFiles args.face, v'.files a = none := by
  cases h with
  | left hr =>
    refine ⟨hr.frame.credential, fun a ha => ?_⟩
    rw [View.files_removeAll]
    exact if_pos ha

/-- A rekey that took effect and was reported as failed has changed the credential to the password,
or back. -/
theorem UnenrollEnds.error {e : Error} (h : UnenrollEnds E may v args (.error e) v') :
    (v'.credential = v.credential ∧ v'.files = v.files) ∨ v'.credential = args.newPassword := by
  cases h with
  | failed => exact .inl ⟨rfl, rfl⟩
  | late | stranded => exact .inr rfl
  | restored | restoredLate => exact .inl ⟨rfl, rfl⟩
  | leftover _ hr => exact .inr hr.frame.credential

end Ends

/-- **Unenrolling, end to end**, under any faults: an operation that changes a file is made when the
password is confirmed; a call that returns has put the password in place and left no file; one that
fails has kept the key and its files, or has put the password in place. Every run is one of the
watched machine (`Reaches.watch`). -/
theorem unenroll_endToEnd (E : Primitives) (may : Host → Op → Fault → Prop) (proc : Process)
    (args : UnenrollArgs) (K : SecretBytes) (h : Host) (he : EnrolledWith E K h) :
    (∀ o k h' s f, Reaches (watchedKeyring E may) (unenroll E proc args).run (h, Opening.unknown)
        (.op o k) (h', s) → may h' o f →
      (exec E o f h').2.files = h'.files ∨ Confirmed args.newPassword (h', s)) ∧
    (∀ h', Returns (machine E may) (unenroll E proc args).run h (.ok ()) h' →
      h'.keyring.credential = args.newPassword ∧
        ∀ a ∈ [Artifact.metadata, .recovery, .metadataFace, .faceKey], h'.files a = none) ∧
    (∀ e h', Returns (machine E may) (unenroll E proc args).run h (.error e) h' →
      (h'.keyring.credential = K ∧ h'.files .metadata = h.files .metadata ∧
        h'.files .recovery = h.files .recovery) ∨ h'.keyring.credential = args.newPassword) := by
  have hends : ∀ {r h'}, Returns (machine E may) (unenroll E proc args).run h r h' →
      UnenrollEnds E may h.view args r h'.view := unenroll_ends
  refine ⟨fun o k h' s f hr hm => ?_, fun h' hr => ?_, fun e h' hr => ?_⟩
  · have hwp := @unenroll_inOrder E may proc (h, Opening.unknown) _ args rfl
    obtain hfiles | hc : InOrder h.files args.newPassword (h', s) :=
      Reaches.invariant hwp (.inl rfl) hr
    · obtain ⟨hstep, -⟩ := wp_reaches hwp hr _ rfl f hm
      rcases hstep with hfiles' | hc
      · exact .inl (hfiles'.trans hfiles.symm)
      · by_cases ho : KeepsFiles o
        · exact .inl (files_exec ho)
        · -- An operation on the files has not confirmed anything.
          have hless : Keyringless o := by
            cases o with
            | file => trivial
            | _ => exact absurd trivial ho
          exact .inr ⟨(congrArg Keyring.credential (keyring_exec hless)).symm.trans hc.credential,
            (congrArg Opening.verified (note_exec hless s)).symm.trans hc.verified⟩
    · exact .inr hc
  · obtain ⟨hcred, hgone⟩ := (hends hr).ok
    exact ⟨hcred, fun a ha => hgone a (List.mem_append_left _ ha)⟩
  · rcases (hends hr).error with ⟨hcred, hfiles⟩ | hcred
    · exact .inl ⟨hcred.trans he.credential, congrFun hfiles _, congrFun hfiles _⟩
    · exact .inr hcred

namespace Sample

/-- The host of an enrollment in which nothing failed. -/
def enrolledHost : Host := (called anyFault (enrolling 1 2) fresh).2

/-- Unenrolling from it with the recovery secret. -/
def unenrollArgs : UnenrollArgs := ⟨pin, password, some (draws 1 2).recoverySecret, none⟩

/-- What the sealed metadata of a host opens to. -/
def metadataKey (h : Host) : Option SecretBytes :=
  match h.files .metadata with
  | some (.file bytes _) => unsealBytes sample h.tpm.seed bytes pin
  | _ => none

theorem metadataKey_some {K : SecretBytes} {h : Host} (hk : metadataKey h = some K) :
    ∃ bytes mode, h.files .metadata = some (.file bytes mode) ∧
      unsealBytes sample h.tpm.seed bytes pin = some K := by
  unfold metadataKey at hk
  split at hk
  · rename_i bytes mode hf
    exact ⟨bytes, mode, hf, hk⟩
  · cases hk

theorem enrolledWith_enrolledHost : EnrolledWith sample (draws 1 2).key enrolledHost :=
  have hk : metadataKey enrolledHost = some (draws 1 2).key := by decide +kernel
  have ⟨bytes, mode, hf, hopens⟩ := metadataKey_some hk
  ⟨by decide +kernel, bytes, mode, pin, hf, hopens⟩

end Sample

open Sample in
theorem unenroll_endToEnd_enrolled :
    (∀ o k h' s f, Reaches (watchedKeyring sample anyFault)
        (unenroll sample (proc 1) unenrollArgs).run (enrolledHost, Opening.unknown)
        (.op o k) (h', s) → anyFault h' o f →
      (exec sample o f h').2.files = h'.files ∨ Confirmed password (h', s)) ∧
    (∀ h', Returns (machine sample anyFault) (unenroll sample (proc 1) unenrollArgs).run
        enrolledHost (.ok ()) h' →
      h'.keyring.credential = password ∧
        ∀ a ∈ [Artifact.metadata, .recovery, .metadataFace, .faceKey], h'.files a = none) ∧
    (∀ e h', Returns (machine sample anyFault) (unenroll sample (proc 1) unenrollArgs).run
        enrolledHost (.error e) h' →
      (h'.keyring.credential = (draws 1 2).key ∧
        h'.files .metadata = enrolledHost.files .metadata ∧
        h'.files .recovery = enrolledHost.files .recovery) ∨
      h'.keyring.credential = password) :=
  unenroll_endToEnd sample anyFault (proc 1) unenrollArgs _ _ enrolledWith_enrolledHost

end Tess

import Tess.Lifecycle.Clear
import Tess.Lifecycle.Unenroll

/-!
# Unenrolling again after a clean-up that failed

Once an unenrollment has put the password in place, what can fail is its clean-up: the release of
the lockout authValue, and the removals. `resumes_iff` says when a later failure-free unenrollment
makes up for it. It has to unseal the key and open the keyring with it, like the first, so that it
depends on the metadata that are removed first, and on a credential that has been replaced.
-/

namespace Tess

open Files Effects

/-! ## The first unenrollment -/

/-- Nothing fails but operations of the clean-up. -/
def cleanupFaults (_ : Host) (o : Op) (f : Fault) : Prop := f = .ok ∨ Cleanup o

section First

variable {E : Primitives} {proc : Process} {args : UnenrollArgs} {h h' : Host} {v v' : View}

/-- The operations before the clean-up. -/
abbrev BeforeCleanup (o : Op) : Prop := ¬ Cleanup o

theorem unsealWithPin_before (pin : SecretBytes) :
    AllOps BeforeCleanup (unsealWithPin E proc pin) := by
  have hexists : (pathExists (.main .metadata)).All BeforeCleanup := ⟨id, fun _ => trivial⟩
  have hread : AllOps BeforeCleanup (read (.main .metadata)) := ⟨id, fun _ => trivial⟩
  have hunseal : ∀ sealed, AllOps BeforeCleanup (unsealKey sealed pin) := fun _ =>
    ⟨id, fun _ => trivial⟩
  have hload : AllOps BeforeCleanup (Persist.load E proc .metadata) :=
    .bind (hread.adapt _) fun _ => .bind (by trivial) fun _ => .bind (by trivial) fun _ => trivial
  exact .bind (.bind (allOps_lift hexists) fun _ => allOps_ensure _ _) fun _ =>
    .bind (hload.adapt _) fun _ => .bind (AllOps.adapt (by trivial) _) fun sealed =>
      (hunseal sealed).adapt _

theorem unlockAndVerify_before (secret : SecretBytes) (what : String) :
    AllOps BeforeCleanup (unlockAndVerify secret what) := by
  have hunlock : AllOps BeforeCleanup (keyringUnlock secret) := (Prog.all_call _ _).2 id
  have hlocked : AllOps BeforeCleanup keyringIsLocked := (Prog.all_call _ _).2 id
  exact .bind (hunlock.adapt _) fun _ => .bind (hlocked.adapt _) fun _ => allOps_ensure _ _

theorem rekey_before (old new : SecretBytes) (generated : Bool) :
    AllOps BeforeCleanup (keyringRekey old new generated) := (Prog.all_call _ _).2 id

theorem confirmPassword_before (key password : SecretBytes) :
    AllOps BeforeCleanup (confirmPassword key password) := by
  refine .bind (allOps_lift (unlockAndVerify_before _ _)) fun r => ?_
  cases r with
  | ok => trivial
  | error e => exact .bind ((rekey_before ..).adapt _) fun _ => trivial

/-- The password is in place, and the TPM unseals as before. -/
structure PasswordBack (password : SecretBytes) (h h' : Host) : Prop where
  credential : h'.keyring.credential = password
  seed : h'.tpm.seed = h.tpm.seed
  lockout : h'.tpm.lockout = h.tpm.lockout

theorem passwordBack_exec {password : SecretBytes} {h₀ : Host} {o : Op} {f : Fault} (ho : Cleanup o)
    (hs : PasswordBack password h₀ h) : PasswordBack password h₀ (exec E o f h).2 := by
  cases o with
  | file | eprintln => exact ⟨hs.credential, hs.seed, hs.lockout⟩
  | setLockoutAuth current new =>
    simp only [exec]
    split
    · exact hs
    · split
      · exact ⟨hs.credential, hs.seed, hs.lockout⟩
      · cases f <;> exact ⟨hs.credential, hs.seed, hs.lockout⟩
  | _ => exact ho.elim

/-- With the PIN, and a TPM that is not locked out, an unenrollment reaches its clean-up. -/
theorem unenroll_passwordBack {bytes : Bytes} {mode : ℕ} {key : SecretBytes}
    (hp : args.newPassword ≠ []) (hf : h.files .metadata = some (.file bytes mode))
    (hk : unsealBytes E h.tpm.seed bytes args.pin = some key)
    (hl : h.tpm.lockout.isLockedOut = false) (hc : h.keyring.credential = key) :
    wpe (machine E cleanupFaults) Eq (fun _ _ => True) (unenroll E proc args)
      (fun _ => PasswordBack args.newPassword h) (fun _ => PasswordBack args.newPassword h) h := by
  have hfront : ∀ {α : Type} {x : Io α} {h h' : Host} {a : α}, Finishes E x h a h' →
      AllOps BeforeCleanup x → wpe (machine E cleanupFaults) Eq (fun _ _ => True) x
        (fun b h'' => b = a ∧ h'' = h') (fun _ _ => False) h := fun hx hs =>
    hx.wpe hs rfl (fun _ _ _ ho hm => hm.resolve_right ho) fun _ _ => trivial
  have hback : ∀ {α : Type} {x : Io α} {h' : Host}, AllOps Cleanup x →
      PasswordBack args.newPassword h h' → wpe (machine E cleanupFaults) Eq (fun _ _ => True) x
        (fun _ => PasswordBack args.newPassword h) (fun _ => PasswordBack args.newPassword h) h' :=
    fun hx hs => wpe_all hx (fun _ _ h hs => h ▸ hs)
      (fun _ _ _ ho _ hs => ⟨trivial, passwordBack_exec ho hs⟩) hs
  have hrekey : Finishes E (keyringRekey key args.newPassword false) (h.setLocked false) () _ :=
    finishes_keyringRekey hc
  have hconfirm : Finishes E (confirmPassword key args.newPassword)
      ((h.setLocked false).setCredential args.newPassword false) () _ :=
    finishes_confirmPassword rfl
  refine wpe_seq (P := fun _ h' => h' = h)
    ((wpe_ensure ..).2 ⟨fun _ => rfl, fun hne => absurd hp hne⟩) ?_
  rintro _ h₁ rfl
  refine wpe_step (hfront (finishes_unsealWithPin hf hk hl) (unsealWithPin_before _))
    (fun _ _ => False.elim) ?_
  rintro _ h₂ ⟨rfl, rfl⟩
  refine wpe_step (hfront (finishes_unlockAndVerify hc _) (unlockAndVerify_before _ _))
    (fun _ _ => False.elim) ?_
  rintro _ h₃ ⟨-, rfl⟩
  refine wpe_step (hfront (hrekey.adapt _) ((rekey_before ..).adapt _)) (fun _ _ => False.elim) ?_
  rintro _ h₄ ⟨-, rfl⟩
  refine wpe_step (hfront hconfirm (confirmPassword_before _ _)) (fun _ _ => False.elim) ?_
  rintro _ h₅ ⟨-, rfl⟩
  have hrelease : AllOps Cleanup (liftM (tryRelease E proc args.recoverySecret) : Io Unit) :=
    allOps_lift (Prog.All.mono (fun _ => releasing_cleanup) (tryRelease_releasing _))
  refine wpe_seq (hback hrelease ⟨rfl, rfl, rfl⟩) fun _ h₆ hs => ?_
  exact hback ((removeBlobs_cleanup _).adapt _) hs

end First

/-! ## What it leaves -/

section Ends

variable {E : Primitives} {may : Host → Op → Fault → Prop} {args : UnenrollArgs} {v v' : View}

theorem UnenrollEnds.shrinks {r : Except Error Unit} (h : UnenrollEnds E may v args r v') :
    v.Shrinks v' := by
  cases h with
  | failed | late | stranded | restored | restoredLate => exact .of_eq rfl
  | leftover _ hr => exact View.Shrinks.removeAll (v := v) hr.shrinks _
  | left hr => exact View.Shrinks.removeAll (v := v) hr.shrinks _

/-- The marker has gone only with the authValue. -/
theorem TriedRelease.released_of_unmarked (h : TriedRelease E may v args v') (hm : ¬ v.Unmarked)
    (hm' : v'.Unmarked) : v'.lockoutAuth = [] := by
  cases h with
  | skipped | wrong => exact absurd hm' hm
  | released _ _ _ h =>
    cases h with
    | released => rfl
    | marked | late | refused => exact absurd hm' hm

theorem UnenrollEnds.released_of_unmarked {r : Except Error Unit}
    (h : UnenrollEnds E may v args r v') (hm : ¬ v.Unmarked) (hm' : v'.Unmarked) :
    v'.lockoutAuth = [] := by
  have hkept : ∀ {v₁ : View} {gone : List Artifact}, gone ⊆ unenrolledFiles args.face →
      (v₁.removeAll gone).Unmarked → v₁.Unmarked := by
    intro v₁ gone hg hun
    rwa [View.Unmarked, View.files_removeAll,
      if_neg fun hmem => not_mem_unenrolledFiles _ (hg hmem)] at hun
  cases h with
  | failed | late | stranded | restored | restoredLate => exact absurd hm' hm
  | leftover _ hr hg => exact hr.released_of_unmarked hm (hkept hg hm')
  | left hr => exact hr.released_of_unmarked hm (hkept (List.Subset.refl _) hm')

/-- A failure-free release leaves no marker, unless the authValue is not the one of the secret. -/
theorem TriedRelease.unmarked_iff {recovery : SecretBytes} (hplain : v.Plain)
    (hr : args.recoverySecret = some recovery) (h : TriedRelease E noFault v args v') :
    v'.Unmarked ↔ v.Unmarked ∨ v.lockoutAuth = lockoutAuthOf E recovery := by
  have hok : ∀ {v o f}, Allows noFault v o f → f = .ok := fun ⟨_, _, hf⟩ => hf
  cases h with
  | skipped hunseen =>
    have hun : v.Unmarked := hplain.eq_none_of_unseen (hunseen _ hr fun _ _ _ hf => .inl hf)
    exact ⟨fun _ => .inl hun, fun _ => hun⟩
  | wrong hsome hm hne =>
    obtain rfl := Option.some.inj (hsome.symm.trans hr)
    exact ⟨fun hun => absurd hun hm, fun h => h.elim (fun hun => hun) fun heq => absurd heq hne⟩
  | released hsome hm heq h =>
    obtain rfl := Option.some.inj (hsome.symm.trans hr)
    refine ⟨fun _ => .inr heq, fun _ => ?_⟩
    cases h with
    | released => simp [View.Unmarked, View.remove]
    | marked hf =>
      rcases hf with ⟨f, hne, ha⟩ | hdir
      · exact absurd (hok ha) hne
      · exact absurd hdir (hplain.not_dir _ _)
    | late hf => cases hok hf
    | refused hf =>
      obtain ⟨f, hne, ha⟩ := hf
      exact absurd (hok ha) hne

/-- An unenrollment that returns has unsealed the credential. -/
theorem unenroll_unsealed {proc : Process} {h : Host} :
    wpe (machine E may) Eq (fun _ _ => True) (unenroll E proc args)
      (fun _ _ => args.Unsealed E h.view) (fun _ _ => True) h := by
  refine wpe_seq (P := fun _ h' => h'.view = h.view)
    ((wpe_ensure ..).2 ⟨fun _ => rfl, fun _ => trivial⟩) fun _ h₁ hv => ?_
  refine wpe_step (unsealWithPin_spec (fun _ _ _ => trivial) hv args.pin) (fun _ _ _ => trivial) ?_
  rintro key h₂ ⟨hread, hv⟩
  refine wpe_step (unlockAndVerify_spec (fun _ _ _ => trivial) hv key _) (fun _ _ _ => trivial) ?_
  rintro _ h₃ ⟨rfl, -⟩
  exact wpe_mono (wpe_true _ _) (fun _ _ _ => hread) fun _ _ _ => trivial

end Ends

/-! ## The later unenrollment -/

/-- The arguments of a later unenrollment: the same PIN, and the recovery secret. -/
def UnenrollArgs.again (first : UnenrollArgs) (password recovery : SecretBytes)
    (face : Option String) : UnenrollArgs :=
  ⟨first.pin, password, some recovery, face⟩

/-- What a later failure-free unenrollment is to make of `h`, when `h₀` is the enrolled host: it
returns, with none of the files and no marker left, and with an empty authValue if tess had bound
it. -/
structure Resumes (E : Primitives) (proc : Process) (args : UnenrollArgs) (h₀ h : Host) : Prop where
  returns : (faultless E (unenroll E proc args).run h).1 = .ok ()
  files : ∀ a ∈ unenrolledFiles args.face,
    (faultless E (unenroll E proc args).run h).2.files a = none
  unmarked : (faultless E (unenroll E proc args).run h).2.files .lockoutOwned = none
  released : h₀.files .lockoutOwned ≠ none →
    (faultless E (unenroll E proc args).run h).2.tpm.lockoutAuth = []

/-- **Unenrolling again.** In a reachable state in which the PIN opens the sealed metadata to the
credential, let an unenrollment have failed in its clean-up, or not at all. A later failure-free one
makes up for it exactly when the password that the first put in place is the sealed key itself, the
metadata could not be removed, and the authValue has not been emptied while the marker was kept. -/
theorem resumes_iff (E : Primitives) (proc : Process) (initial : SecretBytes)
    (hist : History Call Reply) (h₀ h₁ : Host) (first : UnenrollArgs) (r : Except Error Unit)
    (password recovery : SecretBytes) (face : Option String)
    (hs : Session (fun _ => machine E anyFault) (anyCall E proc) (TessFree initial) hist h₀)
    (he : first.Unsealed E h₀.view) (hl : h₀.tpm.lockout.isLockedOut = false)
    (hp : first.newPassword ≠ [])
    (hr : Returns (machine E cleanupFaults) (unenroll E proc first).run h₀ r h₁)
    (hp' : password ≠ []) (hstore : StoreReady face h₁) :
    Resumes E proc (first.again password recovery face) h₀ h₁ ↔
      first.newPassword = h₀.keyring.credential ∧ h₁.files .metadata ≠ none ∧
        (h₁.files .lockoutOwned = none ∨ h₁.tpm.lockoutAuth = lockoutAuthOf E recovery) := by
  have hplain₀ := plain_session hs
  obtain ⟨bytes, mode, hn⟩ := hplain₀.regular he.found
  have hkey := he.bytes bytes mode hn
  -- The first unenrollment has put its password in place.
  have hback : PasswordBack first.newPassword h₀ h₁ := by
    have hpost := Returns.post (@unenroll_passwordBack E proc _ _ _ _ _ hp hn hkey hl rfl) hr
    cases r <;> exact hpost
  have hends := unenroll_ends hr
  have hplain₁ : h₁.view.Plain := hends.plain hplain₀
  have hmeta : h₁.files .metadata ≠ none → h₁.files .metadata = some (.file bytes mode) :=
    fun hne => ((hends.shrinks .metadata).resolve_left hne).trans hn
  have hseed : h₁.tpm.seed = h₀.tpm.seed := hback.seed
  -- What a later one that returns has made of the marker.
  generalize hagain : first.again password recovery face = again
  have hface : again.face = face := hagain ▸ rfl
  have hrecovery : again.recoverySecret = some recovery := hagain ▸ rfl
  have hplain : (again.left h₁.view).Plain := hplain₁
  have hafter : ∀ {v₁ v₂ : View}, v₂ = v₁.removeAll (unenrolledFiles again.face) →
      (v₁.Unmarked ↔ v₂.Unmarked) := fun hv => by
    rw [hv, View.Unmarked, View.Unmarked, View.files_removeAll, if_neg (not_mem_unenrolledFiles _)]
  constructor
  · intro hres
    have hret : Returns (machine E noFault) (unenroll E proc again).run h₁ (.ok ()) _ :=
      hres.returns ▸ returns_eval (fun _ _ => rfl) _ _
    have hun := returns_ok unenroll_unsealed hret
    have hne : h₁.files .metadata ≠ none := hun.found
    have hkey₁ : unsealBytes E h₁.tpm.seed bytes first.pin = some h₁.keyring.credential := by
      have hopens := hun.bytes bytes mode (hmeta hne)
      rwa [← hagain] at hopens
    have hcred : h₁.keyring.credential = h₀.keyring.credential :=
      Option.some.inj (hkey₁.symm.trans (hseed.symm ▸ hkey))
    obtain ⟨v₁, hrel, hv⟩ := faultless_unenroll hres.returns
    exact ⟨hback.credential.symm.trans hcred, hne,
      (hrel.unmarked_iff hplain hrecovery).1 ((hafter hv).2 hres.unmarked)⟩
  · rintro ⟨hpw, hne, hlock⟩
    have hremovable : Removable again.face h₁ :=
      ⟨fun a => hplain₁.not_dir a 0, hface.symm ▸ hstore⟩
    obtain ⟨h₂, hfin⟩ := @finishes_unenroll E proc h₁ again bytes mode h₀.keyring.credential
      (hagain ▸ hp') (hmeta hne) (hagain ▸ hseed.symm ▸ hkey) (hback.lockout.symm ▸ hl)
      (hback.credential.trans hpw) hremovable
    have hok := congrArg Prod.fst (faultless_of_finishes hfin)
    obtain ⟨v₁, hrel, hv⟩ := faultless_unenroll hok
    have hun : v₁.Unmarked := (hrel.unmarked_iff hplain hrecovery).2 hlock
    refine ⟨hok, fun a ha => ?_, (hafter hv).1 hun, fun hbound => ?_⟩
    · have hgone : (v₁.removeAll (unenrolledFiles again.face)).files a = none := if_pos ha
      exact (congrFun (congrArg View.files hv) a).trans hgone
    · refine (congrArg View.lockoutAuth hv).trans (show v₁.lockoutAuth = [] from ?_)
      by_cases hm : h₁.view.Unmarked
      · rw [hrel.eq_of_unmarked hm]
        exact hends.released_of_unmarked hbound hm
      · exact hrel.released_of_unmarked hm hun

namespace Sample

/-- Unenrolling without the recovery secret. -/
def withoutSecret : UnenrollArgs := ⟨pin, password, none, none⟩

/-- How it ends after an enrollment that has bound the lockout hierarchy, when nothing fails. -/
def leftBound : Except Error Unit × Host :=
  eval (machine sample cleanupFaults) .ok (unenroll sample (proc 1) withoutSecret).run
    (enrolledWith []).2

theorem returns_leftBound : Returns (machine sample cleanupFaults)
    (unenroll sample (proc 1) withoutSecret).run (enrolledWith []).2 leftBound.1 leftBound.2 :=
  returns_eval (fun _ _ => Or.inl rfl) _ _

theorem unsealed_withoutSecret : withoutSecret.Unsealed sample (enrolledWith []).2.view := by
  have hk : metadataKey (enrolledWith []).2 = some (enrolledWith []).2.keyring.credential := by
    decide +kernel
  obtain ⟨bytes, mode, hf, hopens⟩ := metadataKey_some hk
  refine ⟨fun hnone => ?_, fun b m hb => ?_⟩
  · cases hf.symm.trans hnone
  · cases hf.symm.trans hb
    exact hopens

end Sample

open Sample in
theorem resumes_iff_withoutSecret :
    Resumes sample (proc 1) (withoutSecret.again password (draws 1 2).recoverySecret none)
        (enrolledWith []).2 leftBound.2 ↔
      withoutSecret.newPassword = (enrolledWith []).2.keyring.credential ∧
        leftBound.2.files .metadata ≠ none ∧ (leftBound.2.files .lockoutOwned = none ∨
          leftBound.2.tpm.lockoutAuth = lockoutAuthOf sample (draws 1 2).recoverySecret) :=
  resumes_iff sample (proc 1) password _ _ _ withoutSecret leftBound.1 password _ none
    (session_enrolledWith rfl) unsealed_withoutSecret (by decide +kernel) (by decide)
    returns_leftBound (by decide) fun _ h => by cases h

open Sample in
/-- The hierarchy stays bound, and unenrolling again with the recovery secret is refused: the
metadata are gone. -/
theorem notResumed_withoutSecret : ∃ r,
    Session (fun _ => machine sample anyFault) (anyCall sample (proc 1)) (TessFree password)
      [(enrolling 1 2, some r)] (enrolledWith []).2 ∧
    Returns (machine sample cleanupFaults) (unenroll sample (proc 1) withoutSecret).run
      (enrolledWith []).2 (.ok ()) leftBound.2 ∧
    leftBound.2.tpm.lockoutAuth ≠ [] ∧
    ¬ Resumes sample (proc 1) (withoutSecret.again password (draws 1 2).recoverySecret none)
      (enrolledWith []).2 leftBound.2 := by
  have hr : leftBound.1 = .ok () := by decide +kernel
  have hbound : leftBound.2.tpm.lockoutAuth ≠ [] := by decide +kernel
  have hrefused : (faultless sample (unenroll sample (proc 1)
      (withoutSecret.again password (draws 1 2).recoverySecret none)).run leftBound.2).1 ≠
        .ok () := by decide +kernel
  exact ⟨_, session_enrolledWith rfl, hr ▸ returns_leftBound, hbound, fun h => hrefused h.returns⟩

end Tess

import Tess.Lifecycle.Readers

/-!
# How the lifecycle calls end

For each call that changes something, the views it returns in and the views on the way, under any
faults: `reseal` rewrites the sealed metadata, `runRecover` may also make an authorization against
the lockout hierarchy, and `unenroll` changes the credential, releases the lockout hierarchy and
removes files, in this order.
-/

namespace Tess

open Files Effects Recovery

variable {E : Primitives} {may : Host → Op → Fault → Prop} {proc : Process} {v : View} {h : Host}

/-! ## Sealing again -/

/-- What a reseal writes: the key in the recovery file, sealed under the new PIN. -/
def Reseals (E : Primitives) (recovery newPin : SecretBytes) (entropy : Bytes) (v : View)
    (bytes : Bytes) : Prop :=
  ∃ key, v.Reads .recovery (unwrapBytes E · recovery = some key) ∧
    sealedBytes E v.seed entropy newPin key = some bytes

section Reseal

variable (E v) (recovery newPin : SecretBytes) (entropy : Bytes)

/-- The views a reseal returns in. -/
inductive ResealEnds : Except Error Unit → View → Prop
  | failed (e : Error) : ResealEnds (.error e) v
  | unsynced {bytes : Bytes} (e : Error) (hb : Reseals E recovery newPin entropy v bytes) :
      ResealEnds (.error e) ((v.place .metadata bytes).push (.unsynced .metadata))
  | resealed {bytes : Bytes} (hb : Reseals E recovery newPin entropy v bytes) :
      ResealEnds (.ok ()) (v.place .metadata bytes)

/-- The views on the way. -/
def ResealAmid (v' : View) : Prop := ∃ r, ResealEnds E v recovery newPin entropy r v'

end Reseal

variable {recovery newPin : SecretBytes} {entropy : Bytes}

/-- **Resealing**, under any faults. -/
theorem reseal_spec (hv : h.view = v) :
    wpe (machine E may) Eq (fun _ h' => ResealAmid E v recovery newPin entropy h'.view)
      (reseal E proc recovery newPin entropy)
      (fun u h' => ResealEnds E v recovery newPin entropy (.ok u) h'.view)
      (fun e h' => ResealEnds E v recovery newPin entropy (.error e) h'.view) h := by
  have hfailed : ∀ {h' : Host} (e : Error), h'.view = v →
      ResealEnds E v recovery newPin entropy (.error e) h'.view := fun e hv => hv ▸ .failed e
  have hG : ∀ h h' : Host, h'.view = v → ResealAmid E v recovery newPin entropy h'.view :=
    fun _ _ hv => ⟨_, hfailed [] hv⟩
  refine wpe_seq (P := fun _ h => h.view = v)
    ((wpe_ensure ..).2 ⟨fun _ => hv, fun _ => hfailed _ hv⟩) fun _ h hv => ?_
  refine wpe_step (recoveredKey_spec hG hv recovery) (fun e _ hv => hfailed e hv) ?_
  rintro key h ⟨hkey, hv⟩
  have hreseals : ∀ {b}, sealedBytes E v.seed entropy newPin key = some b →
      Reseals E recovery newPin entropy v b := fun hb => ⟨key, hkey, hb⟩
  refine wpe_mono (@sealAndSave_spec _ _ _ v.seed _ _ (fun h => h.view = v) _ _ _ _
    ((sealedBytes E v.seed entropy newPin key).getD []) _ _ (stable_view _ hG)
    (fun h hv => hv ▸ rfl) (fun b hb => by simp [hb])
    (fun hb => placeRule proc.pid (hreseals hb) ?_) _ _ hv) ?_ ?_
  · rintro h h' (hv | ⟨hb, hv | hv⟩)
    · exact hG h h' hv
    · exact ⟨.ok (), hv ▸ .resealed hb⟩
    · exact ⟨.error [], hv ▸ .unsynced [] hb⟩
  · rintro _ h' ⟨hb, hv⟩
    exact hv ▸ .resealed hb
  · rintro e h' (hv | ⟨hb, hv⟩)
    · exact hfailed e hv
    · exact hv ▸ .unsynced e hb

/-- How a reseal that has returned has ended. -/
theorem reseal_ends {r : Except Error Unit} {h' : Host}
    (hr : Returns (machine E may) (reseal E proc recovery newPin entropy).run h r h') :
    ResealEnds E h.view recovery newPin entropy r h'.view :=
  Returns.post (Q := fun r h' => ResealEnds E h.view recovery newPin entropy r h'.view)
    ((wp_run ..).2 (reseal_spec rfl)) hr

/-! ## Recovering -/

section Recover

variable (E may v) (recovery : SecretBytes) (resealing : Option (SecretBytes × Bytes))

/-- The view after the hard-lockout reset of `tess recover`: it may have authorized with the
authValue derived from the recovery secret. -/
inductive TriedReset : View → Prop
  | skipped : TriedReset v
  | tried (hf : ∃ f, Allows may v (.resetLockout (lockoutAuthOf E recovery)) f) :
      TriedReset (v.attempt (lockoutAuthOf E recovery))

/-- The views `tess recover` returns in. -/
inductive RecoverEnds : Except Error Unit → View → Prop
  | failed {v' : View} (e : Error) (h : TriedReset E may v recovery v') : RecoverEnds (.error e) v'
  | recovered {v' : View} (h : TriedReset E may v recovery v') (hr : resealing = none) :
      RecoverEnds (.ok ()) v'
  | resealed {v₁ v' : View} {newPin : SecretBytes} {entropy : Bytes} {r : Except Error Unit}
      (h : TriedReset E may v recovery v₁) (hr : resealing = some (newPin, entropy))
      (h' : ResealEnds E v₁ recovery newPin entropy r v') : RecoverEnds r v'

/-- The views on the way. -/
def RecoverAmid (v' : View) : Prop := ∃ r, RecoverEnds E may v recovery resealing r v'

end Recover

theorem exec_resetLockout (h : Host) (f : Fault) (auth : SecretBytes) :
    (exec E (.resetLockout auth) f h).2.view = h.view.attempt auth := by
  simp only [exec]
  split <;> rfl

theorem tryReset_spec (hv : h.view = v) :
    wp (machine E may) Eq (fun _ h' => TriedReset E may v recovery h'.view) (tryReset E recovery)
      (fun _ h' => TriedReset E may v recovery h'.view) h := by
  have hG : ∀ h h' : Host, h'.view = v → TriedReset E may v recovery h'.view :=
    fun _ _ hv => hv ▸ .skipped
  have hwarn : ∀ (e : String) (h' : Host), TriedReset E may v recovery h'.view →
      wp (machine E may) Eq (fun _ h' => TriedReset E may v recovery h'.view) (warn e)
        (fun _ h' => TriedReset E may v recovery h'.view) h' := fun e h' ht =>
    wp_post (warn_spec e (fun _ _ hv => hv ▸ ht) rfl) fun _ _ hv => hv ▸ ht
  have hreset : wpe (machine E may) Eq (fun _ h' => TriedReset E may v recovery h'.view)
      (resetHardLockout E recovery) (fun _ h' => TriedReset E may v recovery h'.view)
      (fun _ h' => TriedReset E may v recovery h'.view) h := by
    have hcaps : AllOps (Quiet 0) (ExceptT.mk do
        let r ← call Op.readCaps
        pure (r.mapError fun e => ["read TPM lockout state before reset: " ++ e]) :
          Io LockoutState) := ⟨trivial, fun _ => trivial⟩
    refine wpe_step (P := fun _ h => h.view = v) (wpe_quiet (stable_view 0 hG) hcaps hv)
      (fun _ _ hv => hG h _ hv) fun lockout h hv => ?_
    cases lockout.isLockedOut with
    | false => exact hG h h hv
    | true =>
      refine wpe_seq (P := fun auth h => auth = lockoutAuthOf E recovery ∧ h.view = v)
        ((wpe_adapt ..).2 (ofExcept_spec (fun auth ha => ⟨?_, hv⟩) fun _ => hG h h hv)) ?_
      · exact Except.ok.inj (ha.symm.trans (deriveLockoutAuth_ok E recovery).1)
      rintro _ h ⟨rfl, hv⟩
      refine wpe_seq (P := fun _ h => TriedReset E may v recovery h.view) ((wpe_adapt ..).2
        ((wp_call_alone ..).2 fun f hf => ?_)) fun _ h' ht =>
          show TriedReset E may v recovery h'.view from ht
      have ht : TriedReset E may v recovery
          (exec E (.resetLockout (lockoutAuthOf E recovery)) f h).2.view := by
        rw [exec_resetLockout, hv]
        exact .tried ⟨f, h, hv, hf⟩
      refine ⟨ht, ?_⟩
      generalize hr : (exec E (.resetLockout (lockoutAuthOf E recovery)) f h).1 = r
      cases r with
      | ok => exact outcome_of_ok hr ht
      | error => exact outcome_of_error hr ht
  refine (wp_bind ..).2 ((wp_run ..).2 (wpe_mono hreset (fun _ _ ht => ht) fun e h' ht => ?_))
  exact hwarn _ h' ht

/-- **`tess recover`**, under any faults. -/
theorem runRecover_spec {resealing : Option (SecretBytes × Bytes)} (hv : h.view = v) :
    wpe (machine E may) Eq (fun _ h' => RecoverAmid E may v recovery resealing h'.view)
      (runRecover E proc recovery resealing)
      (fun u h' => RecoverEnds E may v recovery resealing (.ok u) h'.view)
      (fun e h' => RecoverEnds E may v recovery resealing (.error e) h'.view) h := by
  have hfailed : ∀ {h' : Host} (e : Error), TriedReset E may v recovery h'.view →
      RecoverEnds E may v recovery resealing (.error e) h'.view := fun e ht => .failed e ht
  have hG : ∀ h h' : Host, h'.view = v → RecoverAmid E may v recovery resealing h'.view :=
    fun _ _ hv => ⟨_, hfailed [] (hv ▸ .skipped)⟩
  refine wpe_step (P := fun _ h => h.view = v) (wpe_quiet (stable_view 0 hG)
    ensureRecoverable_all hv) (fun e _ hv => hfailed e (hv ▸ .skipped))
    fun _ h hv => ?_
  refine wpe_seq ((wpe_lift ..).2 (wp_mono (tryReset_spec hv) (fun _ _ ht => ⟨_, hfailed [] ht⟩)
    fun _ _ => id)) fun _ h ht => ?_
  have hG' : ∀ h₁ h₂ : Host, h₂.view = h.view → RecoverAmid E may v recovery resealing h₂.view :=
    fun _ _ hv => ⟨_, hfailed [] (hv ▸ ht)⟩
  refine wpe_step (P := fun _ h' => h'.view = h.view) (wpe_quiet (stable_view 0 hG')
    (recover_all recovery) rfl) (fun e _ hv => hfailed e (hv ▸ ht)) fun _ h' hv => ?_
  cases resealing with
  | none => exact .recovered (hv ▸ ht) rfl
  | some r =>
    exact wpe_mono (wp_mono (reseal_spec hv) (fun _ _ ⟨r, ha⟩ => ⟨r, .resealed ht rfl ha⟩)
      fun _ _ => id) (fun _ _ ha => .resealed ht rfl ha) fun _ _ ha => .resealed ht rfl ha

/-! ## Unenrolling -/

/-- The files that unenrolling removes. -/
def unenrolledFiles (face : Option String) : List Artifact :=
  [.metadata, .recovery, .metadataFace, .faceKey] ++ (face.map Artifact.template).toList

section Unenroll

variable (E may v) (args : UnenrollArgs)

/-- The lockout hierarchy after an attempt to release it. -/
inductive TriedRelease : View → Prop
  | skipped (h : ∀ recovery, args.recoverySecret = some recovery →
      HonestCheck may v .lockoutOwned → v.Unseen .lockoutOwned) : TriedRelease v
  | wrong {recovery : SecretBytes} (hr : args.recoverySecret = some recovery)
      (hm : v.files .lockoutOwned ≠ none) (hne : v.lockoutAuth ≠ lockoutAuthOf E recovery) :
      TriedRelease (v.attempt (lockoutAuthOf E recovery))
  | released {v' : View} {recovery : SecretBytes} (hr : args.recoverySecret = some recovery)
      (hm : v.files .lockoutOwned ≠ none) (heq : v.lockoutAuth = lockoutAuthOf E recovery)
      (h : Released may v (lockoutAuthOf E recovery) v') : TriedRelease v'

/-- The view once the credential is the password. -/
def UnenrollArgs.left : View := v.rekey args.newPassword false

/-- The key in the sealed metadata is the credential. -/
def UnenrollArgs.Unsealed (v : View) : Prop :=
  v.Reads .metadata (unsealBytes E v.seed · args.pin = some v.credential)

/-- The views an unenrollment returns in. -/
inductive UnenrollEnds : Except Error Unit → View → Prop
  | failed (e : Error) : UnenrollEnds (.error e) v
  | late (e : Error) :
      UnenrollEnds (.error e) ((args.left v).push (.rekeyLate v.credential args.newPassword))
  | stranded (e : Error) : UnenrollEnds (.error e) (args.left v)
  | restored (e : Error) (hk : args.Unsealed E v) :
      UnenrollEnds (.error e) ((args.left v).rekey v.credential true)
  | restoredLate (e : Error) (hk : args.Unsealed E v) : UnenrollEnds (.error e)
      (((args.left v).rekey v.credential true).push (.rekeyLate args.newPassword v.credential))
  | leftover {v₁ : View} {gone : List Artifact} (e : Error)
      (hr : TriedRelease E may (args.left v) args v₁) (hg : gone ⊆ unenrolledFiles args.face) :
      UnenrollEnds (.error e) (v₁.removeAll gone)
  | left {v₁ : View} (hr : TriedRelease E may (args.left v) args v₁) :
      UnenrollEnds (.ok ()) (v₁.removeAll (unenrolledFiles args.face))

/-- The views on the way, which are views it could return in if anything could fail. -/
def UnenrollAmid (v' : View) : Prop := ∃ r, UnenrollEnds E anyFault v args r v'

end Unenroll

section Removal

variable {args : UnenrollArgs} {all gone : List Artifact}

/-- One removal of several, which stop at the first failure. -/
theorem removal_step {α : Type} {a : Artifact} {x : Io α}
    (hx : wpe (machine E may) Eq (DuringRemoval a h.view) x
      (fun _ h' => h'.view = h.view.remove a) (fun _ h' => h'.view = h.view) h)
    (hv : h.view = v.removeAll gone) (hsub : a :: gone ⊆ all) :
    wpe (machine E may) Eq (fun _ h' => Cleaning v all h'.view) x
      (fun _ h' => h'.view = v.removeAll (a :: gone)) (fun _ h' => Cleaning v all h'.view) h := by
  have hgone : gone ⊆ all := fun b hb => hsub (List.mem_cons_of_mem _ hb)
  rw [hv] at hx
  rw [View.removeAll_cons]
  refine wpe_mono (wp_mono hx ?_ fun _ _ => id) (fun _ _ => id) fun _ h' hv' => ⟨gone, hgone, hv'⟩
  rintro _ h' (hv' | hv')
  · exact ⟨gone, hgone, hv'⟩
  · exact ⟨a :: gone, hsub, by rw [hv', View.removeAll_cons]⟩

theorem removeBlob_spec (a : Artifact) (h : Host) :
    wpe (machine E may) Eq (DuringRemoval a h.view) (removeBlob proc a)
      (fun _ h' => h'.view = h.view.remove a) (fun _ h' => h'.view = h.view) h :=
  (wpe_adapt ..).2 (wpe_mono (removeFile_spec rfl) (fun _ _ => id) fun _ _ => And.right)

theorem removeBlobs_spec (face : Option String) (hv : h.view = v) :
    wpe (machine E may) Eq (fun _ h' => Cleaning v (unenrolledFiles face) h'.view)
      (removeBlobs E proc face) (fun _ h' => h'.view = v.removeAll (unenrolledFiles face))
      (fun _ h' => Cleaning v (unenrolledFiles face) h'.view) h := by
  have hv : h.view = v.removeAll [] := hv.trans (View.removeAll_nil v).symm
  have hfixed : [Artifact.faceKey, .metadataFace, .recovery, .metadata] ⊆
      unenrolledFiles face := fun a ha => by
    simp only [List.mem_cons, List.not_mem_nil, or_false] at ha
    rcases ha with rfl | rfl | rfl | rfl <;> simp [unenrolledFiles]
  refine wpe_seq (removal_step (removeBlob_spec _ _) hv fun a ha => hfixed (by simp_all))
    fun _ h hv => ?_
  refine wpe_seq (removal_step (removeBlob_spec _ _) hv fun a ha => hfixed (by simp_all))
    fun _ h hv => ?_
  refine wpe_seq (removal_step (removeBlob_spec _ _) hv fun a ha => hfixed (by simp_all))
    fun _ h hv => ?_
  refine wpe_seq (removal_step (removeBlob_spec _ _) hv hfixed) fun _ h hv => ?_
  cases face with
  | none =>
    have hall : unenrolledFiles none ⊆ [Artifact.faceKey, .metadataFace, .recovery, .metadata] :=
      by simp [unenrolledFiles]
    exact hv.trans (View.removeAll_congr _ hfixed hall)
  | some username =>
    have hall : .template username :: [Artifact.faceKey, .metadataFace, .recovery, .metadata] ⊆
        unenrolledFiles (some username) := List.cons_subset.2 ⟨by simp [unenrolledFiles], hfixed⟩
    refine wpe_seq (removal_step ((wpe_adapt ..).2 (store_remove_spec rfl)) hv hall)
      fun _ h hv => hv.trans (View.removeAll_congr _ hall fun a ha => ?_)
    simp only [unenrolledFiles, Option.map_some, Option.toList_some, List.mem_append,
      List.mem_cons, List.not_mem_nil, or_false] at ha ⊢
    rcases ha with (rfl | rfl | rfl | rfl) | rfl <;> simp

end Removal

section Unenroll

variable {args : UnenrollArgs}

theorem TriedRelease.anyFault {v' : View} (h : TriedRelease E may v args v') :
    TriedRelease E anyFault v args v' := by
  cases h with
  | skipped h =>
    refine .skipped fun r hr honest => h r hr fun h' f hv _ => honest h' f hv trivial
  | wrong hr hm hne => exact .wrong hr hm hne
  | released hr hm heq h => exact .released hr hm heq h.anyFault

theorem tryRelease_spec (hv : h.view = v) :
    wp (machine E may) Eq (fun _ h' => TriedRelease E anyFault v args h'.view ∨ h'.view = v)
      (tryRelease E proc args.recoverySecret)
      (fun _ h' => TriedRelease E may v args h'.view) h := by
  unfold tryRelease
  cases hr : args.recoverySecret with
  | none =>
    exact show TriedRelease E may v args h.view from hv ▸ .skipped fun r h => by
      rw [hr] at h
      cases h
  | some recovery =>
    have hG : ∀ h h' : Host, h'.view = v → TriedRelease E anyFault v args h'.view ∨ h'.view = v :=
      fun _ _ => .inr
    obtain ⟨hderive, hlen⟩ := deriveLockoutAuth_ok E recovery
    suffices hrelease : wpe (machine E may) Eq
        (fun _ h' => TriedRelease E anyFault v args h'.view ∨ h'.view = v)
        (releaseLockoutAuth E proc recovery) (fun _ h' => TriedRelease E may v args h'.view)
        (fun _ h' => TriedRelease E may v args h'.view) h by
      refine (wp_bind ..).2 ((wp_run ..).2 (wpe_mono hrelease (fun _ _ ht => ht) fun e h' ht => ?_))
      exact wp_post (warn_spec _ (fun _ _ hv => .inl (hv ▸ ht.anyFault)) rfl) fun _ _ hv => hv ▸ ht
    refine wpe_seq ((wpe_lift ..).2 (pathExists_spec hG hv)) ?_
    rintro (_ | _) h ⟨hv, hseen, hunseen⟩
    · subst hv
      exact show TriedRelease E may h.view args h.view from .skipped fun r _ => hunseen rfl
    have hm := hseen rfl
    refine wpe_seq (P := fun auth h => auth = lockoutAuthOf E recovery ∧ h.view = v)
      ((wpe_adapt ..).2 ?_) ?_
    · rw [hderive]
      exact ⟨rfl, hv⟩
    rintro _ h ⟨rfl, hv⟩
    subst hv
    by_cases heq : h.view.lockoutAuth = lockoutAuthOf E recovery
    · have hrel : ∀ {h' : Host}, Released may h.view (lockoutAuthOf E recovery) h'.view →
          TriedRelease E may h.view args h'.view := .released hr hm heq
      have hmarked : ∀ h' : Host,
          h'.view = (h.view.attempt (lockoutAuthOf E recovery)).setAuth [] →
          TriedRelease E anyFault h.view args h'.view := fun h' hs =>
        .released hr hm heq (hs ▸ .marked (.inl ⟨.fail, by decide, h', hs, trivial⟩))
      refine wpe_seq (P := fun _ h' => h'.view =
          (h.view.attempt (lockoutAuthOf E recovery)).setAuth []) ((wpe_adapt ..).2
        (setLockoutAuth_spec hlen.le (by simp) heq (fun h' hs => ⟨.inl (hmarked h' hs), hs⟩)
          (fun e h' hf hs => ?_) fun e h' hf hs => ?_)) fun _ h' hs => ?_
      · have ht := @hrel h' (hs ▸ .late hf)
        exact ⟨.inl ht.anyFault, ht⟩
      · have ht := @hrel h' (hs ▸ .refused hf)
        exact ⟨.inl ht.anyFault, ht⟩
      · refine (wpe_adapt ..).2 (wpe_mono (wp_mono (removeFile_spec hs) ?_ fun _ _ => id)
          (fun _ h'' hv => hrel (hv ▸ .released)) fun e h'' hv => ?_)
        · rintro _ h'' (hv | hv)
          · exact .inl (hmarked h'' hv)
          · exact .inl (.released hr hm heq (hv ▸ .released))
        · obtain ⟨hf, hv⟩ := hv
          exact hrel (hv ▸ .marked hf)
    · have hwrong : ∀ {may} {h' : Host}, h'.view = h.view.attempt (lockoutAuthOf E recovery) →
          TriedRelease E may h.view args h'.view := fun hs => hs ▸ .wrong hr hm heq
      refine wpe_seq (P := fun _ _ => False) ((wpe_adapt ..).2 (setLockoutAuth_wrong_spec hlen.le
        (by simp) heq fun e h' hs => ⟨.inl (hwrong hs), hwrong hs⟩)) fun _ _ hf => hf.elim

theorem TriedRelease.frame {v' : View} (h : TriedRelease E may v args v') : v.Frame v' := by
  cases h with
  | skipped | wrong => exact ⟨rfl, rfl, rfl, rfl, List.Subset.refl _, fun _ _ => rfl⟩
  | released _ _ _ h => exact h.frame

theorem TriedRelease.shrinks {v' : View} (h : TriedRelease E may v args v') : v.Shrinks v' := by
  cases h with
  | skipped | wrong => exact .of_eq rfl
  | released _ _ _ h => exact h.shrinks

/-- The password is confirmed, or the key is put back. -/
theorem confirmPassword_spec (hk : args.Unsealed E v) (hv : h.view = args.left v) :
    wpe (machine E may) Eq (fun _ h' => UnenrollAmid E v args h'.view)
      (confirmPassword v.credential args.newPassword) (fun _ h' => h'.view = args.left v)
      (fun e h' => UnenrollEnds E may v args (.error e) h'.view) h := by
  have hstranded : ∀ {may} {h' : Host} (e : Error), h'.view = args.left v →
      UnenrollEnds E may v args (.error e) h'.view := fun e hv => hv ▸ .stranded e
  have hG : ∀ h h' : Host, h'.view = args.left v → UnenrollAmid E v args h'.view :=
    fun _ _ hv => ⟨_, hstranded [] hv⟩
  refine wpe_seq (P := fun _ h => h.view = args.left v) ((wpe_lift ..).2
    (wp_quiet (stable_view 0 hG) (unlockAndVerify_all ..) hv)) ?_
  rintro (err | _) h hv
  · refine wpe_seq (P := fun _ h' => h'.view = (args.left v).rekey v.credential true)
      ((wpe_adapt ..).2 (keyringRekey_spec (fun h' _ hs => ?_) (fun e _ => ?_)
        fun e h' _ _ hs => ?_)) fun _ h' hs => ?_
    · rw [hv] at hs
      exact ⟨⟨.error [], hs ▸ .restored [] hk⟩, hs⟩
    · exact ⟨hG h h hv, hstranded _ hv⟩
    · rw [hv] at hs
      exact ⟨⟨.error [], hs ▸ .restoredLate [] hk⟩, hs ▸ .restoredLate _ hk⟩
    · exact show UnenrollEnds E may v args (.error _) h'.view from hs ▸ .restored _ hk
  · exact hv

/-- **Unenrolling**, under any faults. -/
theorem unenroll_spec (hv : h.view = v) :
    wpe (machine E may) Eq (fun _ h' => UnenrollAmid E v args h'.view)
      (unenroll E proc args) (fun u h' => UnenrollEnds E may v args (.ok u) h'.view)
      (fun e h' => UnenrollEnds E may v args (.error e) h'.view) h := by
  have hfailed : ∀ {may} {h' : Host} (e : Error), h'.view = v →
      UnenrollEnds E may v args (.error e) h'.view := fun e hv => hv ▸ .failed e
  have hG : ∀ h h' : Host, h'.view = v → UnenrollAmid E v args h'.view :=
    fun _ _ hv => ⟨_, hfailed [] hv⟩
  refine wpe_seq (P := fun _ h => h.view = v)
    ((wpe_ensure ..).2 ⟨fun _ => hv, fun _ => hfailed _ hv⟩) fun _ h hv => ?_
  refine wpe_step (unsealWithPin_spec hG hv args.pin) (fun e _ hv => hfailed e hv) ?_
  rintro key h ⟨hread, hv⟩
  refine wpe_step (unlockAndVerify_spec hG hv key _) (fun e _ hv => hfailed e hv) ?_
  rintro _ h ⟨rfl, hv⟩
  have hk : args.Unsealed E v := hread
  refine wpe_seq (P := fun _ h' => h'.view = args.left v) ((wpe_adapt ..).2
    (keyringRekey_spec (fun h' _ hs => ?_) (fun e _ => ?_) fun e h' _ _ hs => ?_)) fun _ h hv => ?_
  · rw [hv] at hs
    exact ⟨⟨.error [], hs ▸ .stranded []⟩, hs⟩
  · exact ⟨hG h h hv, hfailed _ hv⟩
  · rw [hv] at hs
    exact ⟨⟨.error [], hs ▸ .late []⟩, hs ▸ .late _⟩
  refine wpe_seq (confirmPassword_spec hk hv) fun _ h hv => ?_
  refine wpe_seq ((wpe_lift ..).2 (wp_mono (@tryRelease_spec _ _ _ _ _ args hv) ?_ fun _ _ => id))
    fun _ h hr => ?_
  · rintro _ h' (hr | hv)
    · exact ⟨.error [], View.removeAll_nil h'.view ▸ .leftover [] hr (List.nil_subset _)⟩
    · exact ⟨.error [], hv ▸ .stranded []⟩
  refine (wpe_adapt ..).2 (wpe_mono (wp_mono (removeBlobs_spec args.face rfl) ?_ fun _ _ => id)
    ?_ ?_)
  · rintro _ h' ⟨gone, hg, hv⟩
    exact ⟨.error [], hv ▸ .leftover [] hr.anyFault hg⟩
  · intro _ h' hv
    exact hv ▸ .left hr
  · rintro e h' ⟨gone, hg, hv⟩
    exact hv ▸ .leftover _ hr hg

/-- How an unenrollment that has returned has ended. -/
theorem unenroll_ends {r : Except Error Unit} {h' : Host}
    (hr : Returns (machine E may) (unenroll E proc args).run h r h') :
    UnenrollEnds E may h.view args r h'.view :=
  Returns.post (Q := fun r h' => UnenrollEnds E may h.view args r h'.view)
    ((wp_run ..).2 (unenroll_spec rfl)) hr

end Unenroll

end Tess

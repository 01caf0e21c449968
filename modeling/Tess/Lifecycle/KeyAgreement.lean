import Tess.Lifecycle.NoLockout

/-!
# All ways in give the same key

The PIN, the recovery secret and the face each open a file of their own. The files were written by
one enrollment, or by a reseal of the key in the recovery blob, as long as an enrollment never
starts over files that are already there: the existence checks of `enroll` have to see them. The
key is also the credential whenever the credential is a generated key, unless an enrollment that
is not refused at once is given such a key as the password to replace.
-/

namespace Tess

open Files Effects Recovery

/-! ## The ways in -/

section Ways

variable (E : Primitives) (v : View)

/-- A key that one of the three ways in gives. -/
inductive View.GivesKey (key : SecretBytes) : Prop
  | pin {bytes : Bytes} {mode : ℕ} {pin : SecretBytes}
      (hf : v.files .metadata = some (.file bytes mode))
      (hk : unsealBytes E v.seed bytes pin = some key) : View.GivesKey key
  | recovery {bytes : Bytes} {mode : ℕ} {recovery : SecretBytes}
      (hf : v.files .recovery = some (.file bytes mode))
      (hk : unwrapBytes E bytes recovery = some key) : View.GivesKey key
  | face {bytes aFace : Bytes} {mode mode' : ℕ}
      (hf : v.files .metadataFace = some (.file bytes mode))
      (hf' : v.files .faceKey = some (.file aFace mode'))
      (hk : unsealBytes E v.seed bytes aFace = some key) : View.GivesKey key

/-- The ways in agree with each other, and with a credential that was generated. -/
structure KeysAgree : Prop where
  agree : ∀ key key', v.GivesKey E key → v.GivesKey E key' → key = key'
  credential : v.generated = true → ∀ key, v.GivesKey E key → key = v.credential

/-- The file of `a` opens to `key` with some secret. -/
def OpensTo (seed : ℕ) (key : SecretBytes) (bytes : Bytes) : Artifact → Prop
  | .recovery => ∃ recovery, unwrapBytes E bytes recovery = some key
  | .metadata | .metadataFace => ∃ auth, unsealBytes E seed bytes auth = some key
  | _ => False

/-- Whatever the files open to, it is `key`. -/
structure OneKey (key : SecretBytes) : Prop where
  plain : ∀ a ∈ enrollmentFiles, ∀ n, v.files a = some n → ∃ bytes mode, n = .file bytes mode
  only : ∀ a ∈ enrollmentFiles, ∀ bytes mode, v.files a = some (.file bytes mode) →
    ∀ key', OpensTo E v.seed key' bytes a → key' = key
  credential : v.generated = true → v.credential = key

end Ways

section OneKey

variable {E : Primitives} {may : Host → Op → Fault → Prop} {v v' : View} {key : SecretBytes}

theorem OneKey.keysAgree (h : OneKey E v key) : KeysAgree E v := by
  have hgives : ∀ key', v.GivesKey E key' → key' = key := by
    rintro key' (⟨hf, hk⟩ | ⟨hf, hk⟩ | ⟨hf, -, hk⟩)
    · exact h.only _ (by simp [enrollmentFiles]) _ _ hf _ ⟨_, hk⟩
    · exact h.only _ (by simp [enrollmentFiles]) _ _ hf _ ⟨_, hk⟩
    · exact h.only _ (by simp [enrollmentFiles]) _ _ hf _ ⟨_, hk⟩
  exact ⟨fun k k' hk hk' => (hgives k hk).trans (hgives k' hk').symm,
    fun hg k hk => (hgives k hk).trans (h.credential hg).symm⟩

/-- Removing files, and changing the credential to the key or to a password. -/
theorem OneKey.mono (h : OneKey E v key) (hs : v'.seed = v.seed)
    (hf : v.Shrinks v') (hc : v'.generated = true → v'.credential = key) : OneKey E v' key := by
  refine ⟨fun a ha n hn => ?_, fun a ha bytes mode hb key' hk => ?_, hc⟩
  · rcases hf a with hnone | heq
    · rw [hnone] at hn
      cases hn
    · exact h.plain a ha n (heq ▸ hn)
  · rcases hf a with hnone | heq
    · rw [hnone] at hb
      cases hb
    · exact h.only a ha bytes mode (heq ▸ hb) key' (hs ▸ hk)

/-- A file that the view shows is read as it is. -/
theorem OneKey.opens (h : OneKey E v key) {a : Artifact} (ha : a ∈ enrollmentFiles)
    {P : Bytes → Prop} (hr : v.Reads a P) : ∃ bytes mode, v.files a = some (.file bytes mode) ∧
      P bytes := by
  obtain ⟨n, hn⟩ := Option.ne_none_iff_exists'.1 hr.found
  obtain ⟨bytes, mode, rfl⟩ := h.plain a ha n hn
  exact ⟨bytes, mode, hn, hr.bytes _ _ hn⟩

/-! ## Enrolling -/

section Enroll

variable {args : EnrollArgs} {done rest : List Change} {tx : Tx}

/-- A file of the plan opens to the generated key only. -/
theorem Valid.only {a : Artifact} {bytes : Bytes} {seed : ℕ}
    (h : Valid E args seed (.place a bytes)) {key' : SecretBytes}
    (hk : OpensTo E seed key' bytes a) : key' = args.draws.key := by
  cases a with
  | recovery =>
    obtain ⟨r, hr⟩ := hk
    exact (wraps_blobBytes h).only r key' hr
  | metadata | metadataFace =>
    obtain ⟨p, hp⟩ := hk
    exact ((seals_sealedBytes h).only _ p key' hp).2
  | _ => exact hk.elim

/-- Where there was nothing, there is a file of the plan or nothing. -/
theorem Stopped.files_valid (hs : Stopped E args v done rest v' tx) {a : Artifact}
    (hn : v.files a = none) : v'.files a = none ∨
      ∃ bytes, v'.files a = some (.file bytes 0o600) ∧ Valid E args v.seed (.place a bytes) := by
  obtain ⟨es, late, hp⟩ := hs.placements
  by_cases hl : ∃ b, late = some (a, b)
  · obtain ⟨b, hb⟩ := hl
    obtain ⟨-, -, hvalid, hfile⟩ := hp.spoiled a b hb
    exact .inr ⟨b, hfile, hvalid⟩
  rw [hp.others a fun b hb => hl ⟨b, hb⟩]
  by_cases hd : Target.file a ∈ targets done
  · obtain ⟨b, hb⟩ := mem_targets_file.1 hd
    exact .inr ⟨b, View.after_files_of_mem hs.nodup hb, hs.valid _ hb⟩
  · exact .inl ((View.after_files_of_not_mem hd).trans hn)

theorem Stopped.seed (hs : Stopped E args v done rest v' tx) : v'.seed = v.seed := by
  rcases hs.view with rfl | ⟨c, rest', -, -, hspoil⟩
  · exact View.after_seed ..
  · cases c with
    | place | rekey =>
      obtain rfl := hspoil
      exact View.after_seed ..
    | bind => rcases hspoil with rfl | rfl <;> exact View.after_seed ..

/-- An enrollment that started with no files and a password has only its own key in its files. -/
theorem Stopped.oneKey (hs : Stopped E args v done rest v' tx)
    (hn : ∀ a ∈ enrollmentFiles, v.files a = none) (hg : v.generated = false) :
    OneKey E v' args.draws.key := by
  refine ⟨fun a ha n hf => ?_, fun a ha bytes mode hf key' hk => ?_, fun hg' => ?_⟩
  · rcases hs.files_valid (hn a ha) with hnone | ⟨b, hb, -⟩
    · rw [hnone] at hf
      cases hf
    · exact ⟨b, _, Option.some.inj (hf.symm.trans hb)⟩
  · rcases hs.files_valid (hn a ha) with hnone | ⟨b, hb, hvalid⟩
    · rw [hnone] at hf
      cases hf
    · obtain ⟨rfl, -⟩ := Node.file.inj (Option.some.inj (hf.symm.trans hb))
      exact hvalid.only (hs.seed ▸ hk)
  · obtain ⟨-, -, ⟨-, -, hsame, -⟩ | ⟨-, hkey, -⟩ | ⟨-, rfl, -⟩⟩ := hs.credential
    · rw [hsame, hg] at hg'
      cases hg'
    · exact hkey
    · exact after_plan_credential.1

theorem RollingBack.oneKey {old : SecretBytes} {face : Option String}
    (hr : RollingBack tx old face v v') (h : OneKey E v key) : OneKey E v' key := by
  have hrestored : (tx.restored old v).generated = true → (tx.restored old v).credential = key := by
    unfold Tx.restored
    cases tx.newKey with
    | none => exact h.credential
    | some key => exact fun hg => nomatch hg
  have hseed := tx.restored_seed old v
  have hshrinks := hr.shrinks
  cases hr with
  | here => exact h
  | restoredLate => exact h.mono rfl hshrinks fun hg => nomatch hg
  | restored => exact h.mono hseed hshrinks hrestored
  | undone hl hg =>
    exact h.mono (hl.frame.seed.trans hseed) hshrinks fun hgen =>
      hl.frame.credential.trans (hrestored (hl.frame.generated.symm.trans hgen))

theorem OneKey.disclose (h : OneKey E v key) (display : String) (r : Rollback) :
    OneKey E (r.disclose display v) key :=
  h.mono (by simp) (.of_eq (by simp)) (by cases r <;> exact h.credential)

/-- What an enrollment overlooks is a file it does not see, and a generated key given as the
password. -/
structure Careful (may : Host → Op → Fault → Prop) (args : EnrollArgs) (v : View) : Prop where
  honest : v.credential = args.old → ∀ a ∈ enrollmentFiles, HonestCheck may v a
  password : v.Vacant args → v.generated = false

theorem OneKey.started (h : OneKey E v key) (hc : Careful may args v) (hs : Started may args v) :
    (∀ a ∈ enrollmentFiles, v.files a = none) ∧ v.generated = false := by
  have hvacant := hs.vacant (hc.honest hs.credential)
  refine ⟨fun a ha => ?_, hc.password hvacant⟩
  rw [Option.eq_none_iff_forall_not_mem]
  intro n hn
  obtain ⟨b, m, rfl⟩ := h.plain a ha n hn
  obtain ⟨p, hp⟩ := hvacant.unseen a ha _ hn
  cases hp

theorem EnrollEnds.oneKey {r : Except Error String} (h : OneKey E v key)
    (hc : Careful may args v) (he : EnrollEnds E may args v r v') : ∃ key, OneKey E v' key := by
  cases he with
  | refused => exact ⟨key, h⟩
  | enrolled hstart hvalid =>
    obtain ⟨hn, hg⟩ := h.started hc hstart
    have hs : Stopped E args v (plan E args v) [] (v.after (plan E args v))
        (Tx.after {} (plan E args v)) := ⟨by simp, hvalid, rfl, .inl rfl⟩
    exact ⟨_, hs.oneKey hn hg⟩
  | failed err hstart hs hr =>
    obtain ⟨hn, hg⟩ := h.started hc hstart
    exact ⟨_, (hr.rollingBack.oneKey (hs.oneKey hn hg)).disclose _ _⟩

theorem EnrollAmid.oneKey (h : OneKey E v key) (hc : Careful may args v)
    (ha : EnrollAmid E may args v v') : ∃ key, OneKey E v' key := by
  cases ha with
  | here => exact ⟨key, h⟩
  | committing hstart hs =>
    obtain ⟨hn, hg⟩ := h.started hc hstart
    exact ⟨_, hs.oneKey hn hg⟩
  | rolling hstart hs hr =>
    obtain ⟨hn, hg⟩ := h.started hc hstart
    exact ⟨_, hr.oneKey (hs.oneKey hn hg)⟩
  | ended he => exact he.oneKey h hc

end Enroll

/-! ## The other calls -/

theorem ResealEnds.oneKey {recovery newPin : SecretBytes} {entropy : Bytes} {r : Except Error Unit}
    (h : OneKey E v key) (he : ResealEnds E v recovery newPin entropy r v') : OneKey E v' key := by
  have hplaced : ∀ {bytes}, Reseals E recovery newPin entropy v bytes →
      OneKey E (v.place .metadata bytes) key := by
    rintro bytes ⟨key', hreads, hsealed⟩
    obtain ⟨b, m, hb, hk⟩ := h.opens (by simp [enrollmentFiles]) hreads
    obtain rfl := h.only _ (by simp [enrollmentFiles]) b m hb key' ⟨_, hk⟩
    refine ⟨fun a ha n hn => ?_, fun a ha bytes' mode hf key'' hk' => ?_, h.credential⟩
    · by_cases ham : a = .metadata
      · subst ham
        exact ⟨bytes, _, Option.some.inj (hn.symm.trans (View.files_place_self ..))⟩
      · exact h.plain a ha n ((View.files_place_of_ne _ _ ham).symm.trans hn)
    · by_cases ham : a = .metadata
      · subst ham
        obtain ⟨rfl, -⟩ := Node.file.inj
          (Option.some.inj ((View.files_place_self ..).symm.trans hf))
        obtain ⟨p, hp⟩ := hk'
        exact ((seals_sealedBytes hsealed).only _ p key'' hp).2
      · exact h.only a ha bytes' mode ((View.files_place_of_ne _ _ ham).symm.trans hf) key'' hk'
  cases he with
  | failed => exact h
  | unsynced e hb => exact (hplaced hb).mono rfl (.of_eq rfl) h.credential
  | resealed hb => exact hplaced hb

theorem RecoverEnds.oneKey {recovery : SecretBytes} {resealing : Option (SecretBytes × Bytes)}
    {r : Except Error Unit} (h : OneKey E v key)
    (he : RecoverEnds E may v recovery resealing r v') : OneKey E v' key := by
  have htried : ∀ {v₁}, TriedReset E may v recovery v₁ → OneKey E v₁ key := fun ht => by
    cases ht with
    | skipped => exact h
    | tried => exact h.mono rfl (.of_eq rfl) h.credential
  cases he with
  | failed e ht | recovered ht => exact htried ht
  | resealed ht _ he => exact he.oneKey (htried ht)

theorem UnenrollEnds.oneKey {args : UnenrollArgs} {r : Except Error Unit} (h : OneKey E v key)
    (he : UnenrollEnds E may v args r v') : OneKey E v' key := by
  -- The credential that is put back is the key in the sealed metadata.
  have hback : args.Unsealed E v → v.credential = key := fun hk => by
    obtain ⟨b, m, hb, hk⟩ := h.opens (by simp [enrollmentFiles]) hk
    exact h.only _ (by simp [enrollmentFiles]) b m hb _ ⟨_, hk⟩
  have hleft : ∀ {v₁ gone}, TriedRelease E may (args.left v) args v₁ →
      OneKey E (v₁.removeAll gone) key := fun hr =>
    h.mono hr.frame.seed (hr.shrinks.removeAll _) fun hg => nomatch hr.frame.generated.symm.trans hg
  cases he with
  | failed => exact h
  | late | stranded => exact h.mono rfl (.of_eq rfl) fun hg => nomatch hg
  | restored _ hk | restoredLate _ hk => exact h.mono rfl (.of_eq rfl) fun _ => hback hk
  | leftover _ hr => exact hleft hr
  | left hr => exact hleft hr

end OneKey

/-! ## Sessions -/

/-- The existence checks of enrollments that are given the credential overlook nothing; anything
else may fail. -/
def attentive : Call → Host → Op → Fault → Prop
  | .enroll args, h, .file (.pathExists (.main a)), f =>
    f = .ok ∨ h.view.Unseen a ∨ h.view.credential ≠ args.old
  | _, _, _, _ => True

/-- Enrollments that are not refused at once are not given a generated key as the password. -/
def ownPassword (_ : History Call Reply) (h : Host) : Call → Prop
  | .enroll args => h.view.Vacant args → h.keyring.generated = false
  | _ => True

theorem careful_of_ownPassword {hist : History Call Reply} {h : Host} {args : EnrollArgs}
    (ha : ownPassword hist h (.enroll args)) : Careful (attentive (.enroll args)) args h.view :=
  ⟨fun hc _ _ _ _ hv hm => hv ▸ hm.imp_right fun hm => hm.resolve_right (hv ▸ not_not.2 hc), ha⟩

/-- **The ways in agree** after any calls, each possibly stopped at any of its operations, under any
faults but existence checks of enrollments that overlook a file. -/
theorem keysAgree_session (E : Primitives) (proc : Process) (initial : SecretBytes)
    (hist : History Call Reply) (h : Host)
    (hs : Session (fun c => machine E (attentive c)) (service E proc ownPassword fun _ => True)
      (TessFree initial) hist h) :
    KeysAgree E h.view := by
  suffices hI : True ∧ ∃ key, OneKey E h.view key from hI.2.elim fun _ hkey => hkey.keysAgree
  refine session_invariant (P := fun _ => True) (I := fun _ v => ∃ key, OneKey E v key)
    (fun _ _ _ _ _ _ => trivial) (fun h hf => ?_) ?_ ?_ hs
  · have hnone : ∀ a, h.view.files a = none := hf.files
    refine ⟨trivial, [], fun a _ n hn => ?_, fun a _ b m hb => ?_, fun hg => ?_⟩
    · rw [hnone a] at hn
      cases hn
    · rw [hnone a] at hb
      cases hb
    · exact absurd (hf.generated.symm.trans hg) (by decide)
  · rintro hist c h h' ⟨key, hI⟩ hallowed - - ha
    cases c with
    | enroll args => exact ha.oneKey hI (careful_of_ownPassword hallowed)
    | unlock | unlockWithFace | recover => exact ⟨key, (show h'.view = h.view from ha) ▸ hI⟩
    | reseal =>
      obtain ⟨r, ha⟩ := ha
      exact ⟨key, ha.oneKey hI⟩
    | runRecover =>
      obtain ⟨r, ha⟩ := ha
      exact ⟨key, ha.oneKey hI⟩
    | unenroll =>
      obtain ⟨r, ha⟩ := ha
      exact ⟨key, ha.oneKey hI⟩
  · rintro hist c h h' r ⟨key, hI⟩ hallowed - he
    cases c with
    | enroll args =>
      obtain ⟨r, rfl, he⟩ := he
      exact he.oneKey hI (careful_of_ownPassword hallowed)
    | unlock | unlockWithFace | recover => exact ⟨key, (show h'.view = h.view from he) ▸ hI⟩
    | reseal =>
      obtain ⟨r, rfl, he⟩ := he
      exact ⟨key, he.oneKey hI⟩
    | runRecover =>
      obtain ⟨r, rfl, he⟩ := he
      exact ⟨key, he.oneKey hI⟩
    | unenroll =>
      obtain ⟨r, rfl, he⟩ := he
      exact ⟨key, he.oneKey hI⟩

theorem ownPassword_of_generated (hist : History Call Reply) {h : Host} (c : Call)
    (hg : h.keyring.generated = false) : ownPassword hist h c := by
  cases c with
  | enroll args => exact fun _ => hg
  | _ => trivial

open Sample in
theorem keysAgree_enrolled : KeysAgree sample
    (called (attentive (enrolling 1 2)) (enrolling 1 2) fresh).2.view := by
  have hok : ∀ h o, attentive (enrolling 1 2) h o .ok := fun _ o => by
    unfold attentive
    split <;> simp
  have hown : ownPassword [] fresh (enrolling 1 2) := ownPassword_of_generated [] _ rfl
  exact keysAgree_session _ (proc 1) password _ _ (.done (k := enrolling 1 2)
    (.start tessFree_fresh) hown (returns_called hok (enrolling 1 2) fresh))

/-- The key that the sealed metadata opens to with a PIN. -/
def pinKey (v : View) (pin : SecretBytes) : Option SecretBytes :=
  match v.files .metadata with
  | some (.file bytes _) => unsealBytes sample v.seed bytes pin
  | _ => none

/-- The key that the recovery blob opens to with a recovery secret. -/
def recoveryKey (v : View) (recovery : SecretBytes) : Option SecretBytes :=
  match v.files .recovery with
  | some (.file bytes _) => unwrapBytes sample bytes recovery
  | _ => none

theorem givesKey_pinKey {v : View} {pin key : SecretBytes} (h : pinKey v pin = some key) :
    v.GivesKey sample key := by
  unfold pinKey at h
  split at h
  · exact .pin ‹_› h
  · cases h

theorem givesKey_recoveryKey {v : View} {recovery key : SecretBytes}
    (h : recoveryKey v recovery = some key) : v.GivesKey sample key := by
  unfold recoveryKey at h
  split at h
  · exact .recovery ‹_› h
  · cases h

namespace Sample

/-- An enrollment whose lockout binding fails, and then the removal of its metadata. -/
def leftMetadata : Prog Op.Res Reply × Host :=
  calledWith (enrolling 1 2) (List.replicate 25 .ok ++ [.fail, .fail] ++ List.replicate 9 .ok) fresh

/-- The next one overlooks that file, fails to seal, and then to remove its recovery blob. -/
def leftBoth : Prog Op.Res Reply × Host :=
  calledWith (enrolling 3 4) (.fail :: List.replicate 15 .ok ++ [.fail, .fail]) leftMetadata.2

theorem session_leftBoth : ∃ hist, Session (fun _ => machine sample anyFault)
    (service sample (proc 1) ownPassword fun _ => True) (TessFree password) hist leftBoth.2 := by
  have hd₁ : leftMetadata.1.returned.isSome = true := by decide +kernel
  have hd₂ : leftBoth.1.returned.isSome = true := by decide +kernel
  have hgen : leftMetadata.2.keyring.generated = false := by decide +kernel
  obtain ⟨r₁, hr₁⟩ := returns_calledWith hd₁
  obtain ⟨r₂, hr₂⟩ := returns_calledWith hd₂
  have hown : ownPassword [] fresh (enrolling 1 2) := ownPassword_of_generated [] _ rfl
  have hown' : ownPassword [(enrolling 1 2, some r₁)] leftMetadata.2 (enrolling 3 4) :=
    ownPassword_of_generated _ _ hgen
  exact ⟨_, .done (k := enrolling 3 4) (.done (k := enrolling 1 2) (.start tessFree_fresh) hown hr₁)
    hown' hr₂⟩

end Sample

open Sample in
/-- A failed enrollment that could not remove its metadata, and another one that overlooked it and
could not remove its recovery blob: the PIN and the recovery secret give different keys. -/
theorem keysDisagree_leftovers : ∃ hist h,
    Session (fun _ => machine sample anyFault)
      (service sample (proc 1) ownPassword fun _ => True) (TessFree password) hist h ∧
    ¬ KeysAgree sample h.view := by
  obtain ⟨hist, hs⟩ := session_leftBoth
  refine ⟨hist, leftBoth.2, hs, fun h => ?_⟩
  have hpin : pinKey leftBoth.2.view pin = some (List.replicate 32 1) := by decide +kernel
  have hrec : recoveryKey leftBoth.2.view (List.replicate 32 4) = some (List.replicate 32 3) := by
    decide +kernel
  have hne : (List.replicate 32 1 : SecretBytes) ≠ List.replicate 32 3 := by decide
  exact hne (h.agree _ _ (givesKey_pinKey hpin) (givesKey_recoveryKey hrec))

end Tess

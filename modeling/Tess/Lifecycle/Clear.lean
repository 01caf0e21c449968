import Tess.Lifecycle.Faultless
import Tess.Lifecycle.LockoutAuthority

/-!
# Sealing again after a TPM clear

A TPM clear replaces the seed that objects are sealed under, and empties the authValue of the lockout
hierarchy. A reseal brings back the PIN. What it does not bring back is the meaning of the marker of
the lockout hierarchy: when the enrollment left one, unenrolling presents an authValue that the
hierarchy no longer holds. `restored_iff` says that this is the only thing that goes wrong.
-/

namespace Tess

open Files Effects Recovery

/-! ## Final names hold regular files -/

/-- Whatever is under a final name is a regular file. -/
def View.Plain (v : View) : Prop := ∀ a n, v.files a = some n → ∃ bytes mode, n = .file bytes mode

section Plain

variable {E : Primitives} {may : Host → Op → Fault → Prop} {v v' : View}

theorem View.Plain.shrinks (h : v.Plain) (hs : v.Shrinks v') : v'.Plain := fun a n hn => by
  rcases hs a with hnone | heq
  · rw [hnone] at hn
    cases hn
  · exact h a n (heq ▸ hn)

theorem View.Plain.regular (h : v.Plain) {a : Artifact} (hne : v.files a ≠ none) :
    ∃ bytes mode, v.files a = some (.file bytes mode) := by
  obtain ⟨n, hn⟩ := Option.ne_none_iff_exists'.1 hne
  obtain ⟨bytes, mode, rfl⟩ := h a n hn
  exact ⟨bytes, mode, hn⟩

theorem View.Plain.not_dir (h : v.Plain) (a : Artifact) (mode : ℕ) :
    v.files a ≠ some (.dir mode) := by
  intro hdir
  obtain ⟨_, _, hn⟩ := h a _ hdir
  cases hn

/-- No symbolic link hides a file from an existence check. -/
theorem View.Plain.eq_none_of_unseen (h : v.Plain) {a : Artifact} (hu : v.Unseen a) :
    v.files a = none := by
  by_contra hne
  obtain ⟨bytes, mode, hn⟩ := h.regular hne
  obtain ⟨p, hp⟩ := hu _ hn
  cases hp

theorem View.Plain.place (h : v.Plain) (a : Artifact) (bytes : Bytes) :
    (v.place a bytes).Plain := by
  intro b n hn
  by_cases hb : b = a
  · subst hb
    exact ⟨bytes, _, Option.some.inj (hn.symm.trans (View.files_place_self ..))⟩
  · exact h b n ((View.files_place_of_ne _ _ hb).symm.trans hn)

theorem View.Plain.after (h : v.Plain) (cs : List Change) : (v.after cs).Plain := by
  induction cs generalizing v with
  | nil => exact h
  | cons c cs ih =>
    cases c with
    | place a bytes => exact ih (h.place a bytes)
    | bind | rekey => exact ih h

theorem Stopped.plain {args : EnrollArgs} {done rest : List Change} {tx : Tx} (h : v.Plain)
    (hs : Stopped E args v done rest v' tx) : v'.Plain := by
  rcases hs.view with rfl | ⟨c, rest', -, -, hspoil⟩
  · exact h.after done
  · cases c with
    | place a bytes =>
      obtain rfl := hspoil
      exact (h.after done).place a bytes
    | rekey =>
      obtain rfl := hspoil
      exact h.after done
    | bind => rcases hspoil with rfl | rfl <;> exact h.after done

theorem EnrollEnds.plain {args : EnrollArgs} {r : Except Error String} (h : v.Plain)
    (he : EnrollEnds E may args v r v') : v'.Plain := by
  cases he with
  | refused => exact h
  | enrolled => exact h.after _
  | failed err hstart hs hr =>
    exact (hs.plain h).shrinks fun a => by simpa using hr.rollingBack.shrinks a

theorem EnrollAmid.plain {args : EnrollArgs} (h : v.Plain) (ha : EnrollAmid E may args v v') :
    v'.Plain := by
  cases ha with
  | here => exact h
  | committing hstart hs => exact hs.plain h
  | rolling hstart hs hr => exact (hs.plain h).shrinks hr.shrinks
  | ended he => exact he.plain h

theorem ResealEnds.plain {recovery newPin : SecretBytes} {entropy : Bytes} {r : Except Error Unit}
    (h : v.Plain) (he : ResealEnds E v recovery newPin entropy r v') : v'.Plain := by
  cases he with
  | failed => exact h
  | unsynced | resealed => exact h.place _ _

theorem RecoverEnds.plain {recovery : SecretBytes} {resealing : Option (SecretBytes × Bytes)}
    {r : Except Error Unit} (h : v.Plain) (he : RecoverEnds E may v recovery resealing r v') :
    v'.Plain := by
  have htried : ∀ {v₁}, TriedReset E may v recovery v₁ → v₁.Plain := fun ht => by
    cases ht <;> exact h
  cases he with
  | failed e ht | recovered ht => exact htried ht
  | resealed ht _ he => exact he.plain (htried ht)

theorem UnenrollEnds.plain {args : UnenrollArgs} {r : Except Error Unit} (h : v.Plain)
    (he : UnenrollEnds E may v args r v') : v'.Plain := by
  cases he with
  | failed | late | stranded | restored | restoredLate => exact h
  | leftover _ hr => exact View.Plain.shrinks (v := args.left v) h (hr.shrinks.removeAll _)
  | left hr => exact View.Plain.shrinks (v := args.left v) h (hr.shrinks.removeAll _)

/-- Sessions leave regular files under the final names. -/
theorem plain_session {proc : Process} {initial : SecretBytes} {hist : History Call Reply} {h : Host}
    (hs : Session (fun _ => machine E anyFault) (anyCall E proc) (TessFree initial) hist h) :
    h.view.Plain := by
  refine (session_invariant (P := fun _ => True) (I := fun _ v => v.Plain)
    (fun _ _ _ _ _ _ => trivial) (fun h hf => ⟨trivial, fun a n hn => ?_⟩) ?_ ?_ hs).2
  · have hnone : h.view.files a = none := hf.files a
    rw [hnone] at hn
    cases hn
  · intro hist c h h' hI _ _ _ ha
    cases c with
    | enroll => exact ha.plain hI
    | unlock | unlockWithFace | recover => exact (show h'.view = h.view from ha) ▸ hI
    | reseal =>
      obtain ⟨r, ha⟩ := ha
      exact ha.plain hI
    | runRecover =>
      obtain ⟨r, ha⟩ := ha
      exact ha.plain hI
    | unenroll =>
      obtain ⟨r, ha⟩ := ha
      exact ha.plain hI
  · intro hist c h h' r hI _ _ he
    cases c with
    | enroll =>
      obtain ⟨r, rfl, he⟩ := he
      exact he.plain hI
    | unlock | unlockWithFace | recover => exact (show h'.view = h.view from he) ▸ hI
    | reseal =>
      obtain ⟨r, rfl, he⟩ := he
      exact he.plain hI
    | runRecover =>
      obtain ⟨r, rfl, he⟩ := he
      exact he.plain hI
    | unenroll =>
      obtain ⟨r, rfl, he⟩ := he
      exact he.plain hI

end Plain

/-! ## The failure count -/

/-- The TPM's count of wrong PINs is as it was. -/
abbrev SameCount (l : LockoutState) (h : Host) : Prop := h.tpm.lockout = l

section Count

variable {E : Primitives} {may : Host → Op → Fault → Prop} {proc : Process} {l : LockoutState}
  {h : Host}

theorem wpe_fileOnly {ε α : Type} {x : ExceptT ε (Prog Op.Res) α} (hx : AllOps FileOnly x)
    (hl : SameCount l h) :
    wpe (machine E may) Eq (fun _ _ => True) x (fun _ h => SameCount l h) (fun _ _ => True) h := by
  have hkept : ∀ h o f, FileOnly o → SameCount l h → SameCount l (exec E o f h).2 := by
    intro h o f ho hl
    cases o with
    | file => exact hl
    | _ => exact ho.elim
  exact wpe_mono (wpe_all hx (fun _ _ h hl => h ▸ hl)
    (fun h o f ho _ hl => ⟨trivial, hkept h o f ho hl⟩) hl) (fun _ _ hl => hl) fun _ _ _ => trivial

theorem recoveredKey_fileOnly (recovery : SecretBytes) :
    AllOps FileOnly (recoveredKey E proc recovery) := by
  have hexists : (pathExists (.main .recovery)).All FileOnly := ⟨trivial, fun _ => trivial⟩
  have hread : AllOps FileOnly (read (.main .recovery)) := ⟨trivial, fun _ => trivial⟩
  have hload : AllOps FileOnly (loadBlob E proc) :=
    .bind (hread.adapt _) fun _ => .bind (by trivial) fun _ => .bind (allOps_ensure _ _)
      fun _ => trivial
  exact .bind (.bind (allOps_lift hexists) fun _ => allOps_ensure _ _) fun _ =>
    .bind (hload.adapt _) fun _ => AllOps.adapt (by trivial) _

theorem publish_fileOnly (tmp : Path) (a : Artifact) (f g : IoError → Error) :
    AllOps FileOnly (publish tmp a f g) := by
  have hrename : AllOps FileOnly (rename tmp (.main a)) := ⟨trivial, fun _ => trivial⟩
  have hsync : AllOps FileOnly (syncParentDir (.main a)) := ⟨trivial, fun _ => trivial⟩
  have hdiscard : (discard tmp).All FileOnly := ⟨trivial, fun _ => trivial⟩
  exact .bind (hrename.cleanup hdiscard _) fun _ => hsync.adapt _

theorem save_fileOnly (m : Metadata) (a : Artifact) :
    AllOps FileOnly (Persist.save E proc m a) := by
  have hdir : AllOps FileOnly (createDirAll (Path.parent (.main a))) := ⟨trivial, fun _ => trivial⟩
  refine .bind (by trivial) fun json => .bind (hdir.adapt _) fun _ => ?_
  generalize (none : Option IoError) = last
  induction Persist.maxTries generalizing last with
  | zero => trivial
  | succ n ih =>
    have hwrite : ∀ tmp, AllOps FileOnly (writePrivate tmp json) := fun tmp =>
      .bind ⟨trivial, fun _ => trivial⟩ fun _ => .bind ⟨trivial, fun _ => trivial⟩
        fun _ => ⟨trivial, fun _ => trivial⟩
    refine .bind (allOps_lift ⟨trivial, fun _ => trivial⟩) fun tmp =>
      .bind (allOps_lift (hwrite tmp)) ?_
    rintro (e | _)
    · cases e with
      | alreadyExists => exact ih _
      | _ => trivial
    · exact publish_fileOnly _ _ _ _

/-- A key that is unsealed has not counted as a wrong PIN. -/
theorem unsealKey_sameCount {sealed : SealedObject} {pin : SecretBytes} (hl : SameCount l h) :
    wpe (machine E may) Eq (fun _ _ => True) (unsealKey sealed pin) (fun _ h => SameCount l h)
      (fun _ _ => True) h := by
  refine (wp_call_alone ..).2 fun f _ => ⟨trivial, ?_⟩
  cases f with
  | ok =>
    change outcome _ _ (h.tpm.unsealKey E sealed pin).1 (h.setTpm (h.tpm.unsealKey E sealed pin).2)
    unfold Tpm.unsealKey
    repeat' split
    all_goals trivial
  | _ => trivial

theorem sealKey_sameCount {entropy : Bytes} {pin key : SecretBytes} (hl : SameCount l h) :
    wpe (machine E may) Eq (fun _ _ => True) (sealKey entropy pin key) (fun _ h => SameCount l h)
      (fun _ _ => True) h := by
  refine (wp_call_alone ..).2 fun f _ => ⟨trivial, ?_⟩
  cases f with
  | ok =>
    change outcome _ _ (h.tpm.sealKey E entropy pin key) h
    unfold Tpm.sealKey
    split
    · trivial
    · exact hl
  | _ => trivial

/-- A reseal that succeeds has not presented a wrong PIN. -/
theorem reseal_sameCount {recovery newPin : SecretBytes} {entropy : Bytes} (hl : SameCount l h) :
    wpe (machine E may) Eq (fun _ _ => True) (reseal E proc recovery newPin entropy)
      (fun _ h => SameCount l h) (fun _ _ => True) h := by
  refine wpe_seq (P := fun _ h => SameCount l h) ((wpe_ensure ..).2 ⟨fun _ => hl, fun _ => trivial⟩)
    fun _ h hl => ?_
  refine wpe_seq (wpe_fileOnly (recoveredKey_fileOnly recovery) hl) fun key h hl => ?_
  refine wpe_seq ((wpe_adapt ..).2 (sealKey_sameCount hl)) fun sealed h hl => ?_
  refine wpe_seq ((wpe_adapt ..).2 (unsealKey_sameCount hl)) fun unsealed h hl => ?_
  refine wpe_seq (P := fun _ h => SameCount l h) ((wpe_ensure ..).2 ⟨fun _ => hl, fun _ => trivial⟩)
    fun _ h hl => ?_
  refine wpe_seq (P := fun _ h => SameCount l h) ((wpe_adapt ..).2 (ofExcept_spec (fun _ _ => hl)
    fun _ => trivial)) fun m h hl => ?_
  exact (wpe_adapt ..).2 (wpe_fileOnly (save_fileOnly m .metadata) hl)

end Count

/-! ## The clear -/

/-- The host after a TPM clear: another seed, no authValue, no failures counted. -/
def Host.clear (h : Host) (seed : ℕ) : Host :=
  { h with tpm := { seed := seed, lockoutAuth := [],
                    lockout := { h.tpm.lockout with counter := 0 } } }

/-- The arguments of an unenrollment with the new PIN and the recovery secret. -/
def leaving (args : EnrollArgs) (newPin password : SecretBytes) (face : Option String) :
    UnenrollArgs :=
  { pin := newPin, newPassword := password, recoverySecret := some args.draws.recoverySecret,
    face := face }

/-- Nothing of an enrollment is left, and every authorization on the way was right. -/
structure LeftClean (password : SecretBytes) (face : Option String) (v v' : View) : Prop where
  attempts : ∃ new, v'.attempts = new ++ v.attempts ∧
    ∀ presented held, (presented, held) ∈ new → presented = held
  credential : v'.credential = password
  files : ∀ a ∈ unenrolledFiles face, v'.files a = none
  unmarked : v'.Unmarked
  lockoutAuth : v'.lockoutAuth = []

/-- The enrollment of `args` works with the new PIN, and a failure-free unenroll leaves nothing of
it. -/
structure Restored (E : Primitives) (proc : Process) (args : EnrollArgs)
    (newPin password : SecretBytes) (face : Option String) (h : Host) : Prop where
  key : h.keyring.credential = args.draws.key
  unlocks : (faultless E (unlock E proc newPin).run h).1 = .ok ()
  opened : (faultless E (unlock E proc newPin).run h).2.keyring.locked = false
  unenrolls : (faultless E (unenroll E proc (leaving args newPin password face)).run h).1 = .ok ()
  left : LeftClean password face h.view
    (faultless E (unenroll E proc (leaving args newPin password face)).run h).2.view

section Restored

variable {E : Primitives} {proc : Process} {args : EnrollArgs} {h : Host}
  {newPin password : SecretBytes} {face : Option String}

/-- How a failure-free unenroll that returns has ended. -/
theorem faultless_unenroll {u : UnenrollArgs}
    (hok : (faultless E (unenroll E proc u).run h).1 = .ok ()) :
    ∃ v₁, TriedRelease E noFault (u.left h.view) u v₁ ∧
      (faultless E (unenroll E proc u).run h).2.view = v₁.removeAll (unenrolledFiles u.face) := by
  have hr : Returns (machine E noFault) (unenroll E proc u).run h (.ok ())
      (faultless E (unenroll E proc u).run h).2 := hok ▸ returns_eval (fun _ _ => rfl) _ _
  have hends := unenroll_ends hr
  generalize (faultless E (unenroll E proc u).run h).2.view = v' at hends ⊢
  cases hends with
  | left hr => exact ⟨_, hr, rfl⟩

theorem not_mem_unenrolledFiles (face : Option String) :
    Artifact.lockoutOwned ∉ unenrolledFiles face := by
  cases face <;> simp [unenrolledFiles]

theorem TriedRelease.eq_of_unmarked {may : Host → Op → Fault → Prop} {u : UnenrollArgs}
    {v v' : View} (h : TriedRelease E may v u v') (hm : v.Unmarked) : v' = v := by
  cases h with
  | skipped => rfl
  | wrong _ hmark => exact absurd hm hmark
  | released _ hmark => exact absurd hm hmark

theorem leftClean_of_unmarked (hm : h.view.Unmarked) (hauth : h.view.lockoutAuth = [])
    (hok : (faultless E (unenroll E proc (leaving args newPin password face)).run h).1 = .ok ()) :
    LeftClean password face h.view
      (faultless E (unenroll E proc (leaving args newPin password face)).run h).2.view := by
  obtain ⟨v₁, hr, hv⟩ := faultless_unenroll hok
  rw [hv, hr.eq_of_unmarked hm]
  refine ⟨⟨[], rfl, by simp⟩, rfl, fun a ha => ?_, ?_, hauth⟩
  · rw [View.files_removeAll]
    exact if_pos ha
  · rw [View.Unmarked, View.files_removeAll, if_neg (not_mem_unenrolledFiles _)]
    exact hm

/-- With a marker, and no authValue any more, unenrolling presents a wrong one. -/
theorem not_leftClean_of_marked (hplain : h.view.Plain) (hm : ¬ h.view.Unmarked)
    (hauth : h.view.lockoutAuth = [])
    (hok : (faultless E (unenroll E proc (leaving args newPin password face)).run h).1 = .ok ()) :
    ¬ LeftClean password face h.view
      (faultless E (unenroll E proc (leaving args newPin password face)).run h).2.view := by
  intro hclean
  obtain ⟨v₁, hr, hv⟩ := faultless_unenroll hok
  rw [hv] at hclean
  have hne := lockoutAuthOf_ne_nil E args.draws.recoverySecret
  cases hr with
  | skipped hunseen =>
    exact hm (hplain.eq_none_of_unseen (hunseen _ rfl fun _ _ _ hf => .inl hf))
  | wrong hsome =>
    obtain rfl := Option.some.inj hsome
    obtain ⟨new, hnew, hright⟩ := hclean.attempts
    have hattempts : (lockoutAuthOf E args.draws.recoverySecret, h.view.lockoutAuth) ::
        h.view.attempts = new ++ h.view.attempts := hnew
    obtain rfl : [_] = new := @List.append_cancel_right _ _ h.view.attempts _ hattempts
    exact hne ((hright _ _ (List.mem_singleton_self _)).trans hauth)
  | released hsome _ heq =>
    obtain rfl := Option.some.inj hsome
    exact hne (heq.symm.trans hauth)

end Restored

/-- **Sealing again after a TPM clear** restores the enrollment exactly when it left no marker of the
lockout hierarchy. -/
theorem restored_iff (E : Primitives) (proc : Process) (initial : SecretBytes) (args : EnrollArgs)
    (hist : History Call Reply) (s : Option String) (h₁ h₂ : Host) (seed : ℕ)
    (newPin password : SecretBytes) (entropy : Bytes) (face : Option String)
    (hs : Session (fun _ => machine E anyFault) (anyCall E proc) (TessFree initial)
      ((.enroll args, some (.ok s)) :: hist) h₁)
    (hr : Returns (machine E anyFault)
      (reseal E proc args.draws.recoverySecret newPin entropy).run (h₁.clear seed) (.ok ()) h₂)
    (hp : password ≠ []) (hstore : StoreReady face h₂) :
    Restored E proc args newPin password face h₂ ↔ h₁.view.Unmarked := by
  have hplain₁ := plain_session hs
  obtain ⟨v, hview, hvalid⟩ : ∃ v, h₁.view = v.after (plan E args v) ∧
      ∀ c ∈ plan E args v, Valid E args v.seed c := by
    cases hs with
    | done _ _ hret =>
      obtain ⟨r, hr', he⟩ := Returns.post (call_spec (.enroll args) rfl) hret
      generalize h₁.view = v' at he
      cases he with
      | enrolled _ hvalid => exact ⟨_, rfl, hvalid⟩
      | refused | failed => cases hr'
  have hplaced : Placed E args h₁.view := hview ▸ placed_after_plan hvalid
  obtain ⟨b, m, hb, hwraps⟩ := hplaced.recovery
  -- The reseal has put the key of the recovery blob under the new PIN.
  have hends := reseal_ends hr
  obtain ⟨bytes, hreseals, hview₂⟩ : ∃ bytes, Reseals E args.draws.recoverySecret newPin entropy
      (h₁.clear seed).view bytes ∧ h₂.view = (h₁.clear seed).view.place .metadata bytes := by
    generalize h₂.view = v₂ at hends
    cases hends with
    | resealed hb => exact ⟨_, hb, rfl⟩
  obtain ⟨key, hreads, hsealed⟩ := hreseals
  obtain rfl : key = args.draws.key := hwraps.only _ _ (hreads.bytes b m hb)
  have hmeta : h₂.files .metadata = some (.file bytes 0o600) :=
    (congrArg (View.files · .metadata) hview₂).trans (View.files_place_self ..)
  have hseed : h₂.tpm.seed = seed := congrArg View.seed hview₂
  have hcred : h₂.keyring.credential = args.draws.key :=
    (congrArg View.credential hview₂).trans hplaced.credential
  have hauth : h₂.view.lockoutAuth = [] := congrArg View.lockoutAuth hview₂
  have hopens : unsealBytes E h₂.tpm.seed bytes newPin = some args.draws.key :=
    hseed ▸ (seals_sealedBytes hsealed).opens
  have hcount : h₂.tpm.lockout.isLockedOut = false := by
    have hl := returns_ok (reseal_sameCount (h := h₁.clear seed) rfl) hr
    rw [hl]
    simp [Host.clear, LockoutState.isLockedOut]
  have hplain₂ : h₂.view.Plain := hview₂ ▸ View.Plain.place (v := (h₁.clear seed).view) hplain₁ _ _
  have hmark : h₂.view.Unmarked ↔ h₁.view.Unmarked := by
    rw [View.Unmarked, View.Unmarked, hview₂, View.files_place_of_ne _ _ (by decide)]
    rfl
  rw [← hmark]
  constructor
  · exact fun hr => by_contra fun hm =>
      not_leftClean_of_marked hplain₂ hm hauth hr.unenrolls hr.left
  · intro hm
    have hunlock := faultless_of_finishes
      (@finishes_unlock _ proc _ _ _ _ _ hmeta hopens hcount hcred)
    have hremovable : Removable face h₂ := ⟨fun a => hplain₂.not_dir a 0, hstore⟩
    obtain ⟨h₃, hun⟩ := @finishes_unenroll E proc _
      (leaving args newPin password face) _ _ _ hp hmeta hopens hcount hcred hremovable
    have hok := congrArg Prod.fst (faultless_of_finishes hun)
    exact ⟨hcred, congrArg Prod.fst hunlock, congrArg (·.2.keyring.locked) hunlock, hok,
      leftClean_of_unmarked hm hauth hok⟩

namespace Sample

/-- A fresh host whose lockout hierarchy has an authValue. -/
def freshWith (auth : SecretBytes) : Host := fresh.setLockoutAuth auth

/-- An enrollment on it. -/
def enrolledWith (auth : SecretBytes) : Reply × Host :=
  called anyFault (enrolling 1 2) (freshWith auth)

/-- A reseal after a TPM clear. -/
def resealedWith (auth : SecretBytes) : Except Error Unit × Host :=
  eval (machine sample anyFault) .ok
    (reseal sample (proc 1) (draws 1 2).recoverySecret pin []).run ((enrolledWith auth).2.clear 1)

theorem session_enrolledWith {auth : SecretBytes} {r : Reply} (hr : (enrolledWith auth).1 = r) :
    Session (fun _ => machine sample anyFault) (anyCall sample (proc 1)) (TessFree password)
      [(enrolling 1 2, some r)] (enrolledWith auth).2 :=
  hr ▸ .done (k := enrolling 1 2) (.start ⟨rfl, rfl, fun _ => rfl, rfl, rfl⟩) trivial
    (returns_called (fun _ _ => trivial) (enrolling 1 2) (freshWith auth))

theorem returns_resealedWith {auth : SecretBytes} {r : Except Error Unit}
    (hr : (resealedWith auth).1 = r) :
    Returns (machine sample anyFault)
      (reseal sample (proc 1) (draws 1 2).recoverySecret pin []).run ((enrolledWith auth).2.clear 1)
      r (resealedWith auth).2 :=
  hr ▸ returns_eval (fun _ _ => trivial) _ _

end Sample

open Sample in
theorem restored_foreign : Restored sample (proc 1) (enrollArgs password 1 2) pin password none
    (resealedWith [9]).2 := by
  have hr : (enrolledWith [9]).1 = .ok (some (encode (draws 1 2).recoverySecret)) := by
    decide +kernel
  have hr' : (resealedWith [9]).1 = .ok () := by decide +kernel
  have hfree : (enrolledWith [9]).2.view.files .lockoutOwned = none := by decide +kernel
  exact (restored_iff sample (proc 1) password (enrollArgs password 1 2) [] _ _ _ 1 pin password []
    none (session_enrolledWith hr) (returns_resealedWith hr') (by decide)
    fun _ h => nomatch h).2 hfree

open Sample in
/-- An enrollment that has bound the hierarchy: after the clear, unenrolling presents an authValue
that is not held. -/
theorem notRestored_bound : ∃ s h₁ h₂,
    Session (fun _ => machine sample anyFault) (anyCall sample (proc 1)) (TessFree password)
      [(enrolling 1 2, some (.ok s))] h₁ ∧
    Returns (machine sample anyFault)
      (reseal sample (proc 1) (draws 1 2).recoverySecret pin []).run (h₁.clear 1) (.ok ()) h₂ ∧
    ¬ Restored sample (proc 1) (enrollArgs password 1 2) pin password none h₂ := by
  have hr : (enrolledWith []).1 = .ok (some (encode (draws 1 2).recoverySecret)) := by
    decide +kernel
  have hr' : (resealedWith []).1 = .ok () := by decide +kernel
  refine ⟨_, _, _, session_enrolledWith hr, returns_resealedWith hr', fun h => ?_⟩
  have hmark : (faultless sample (unenroll sample (proc 1) (leaving (enrollArgs password 1 2) pin
      password none)).run (resealedWith []).2).2.view.files .lockoutOwned ≠ none := by decide +kernel
  exact hmark h.left.unmarked

end Tess

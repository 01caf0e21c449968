import Tess.Lifecycle.Readers

/-!
# Steps that other processes need not fear

Processes that run at the same time share the credential and the recovery blob: together they are
the *stake*, and it must never come apart. A step of a process is `Calm` when it leaves the stake,
the TPM's seed and the temporary files of the others alone, and keeps the sealed metadata, when it
is there, a file that opens to keys of `K` only. Most of what enrolling and unenrolling do is calm,
whatever the others do in between: this module says so for each part of the two.
-/

namespace Tess

open Files Effects Recovery

/-- The credential, and what opens it in the end. -/
def View.stake (v : View) : SecretBytes × Option (Node Path) := (v.credential, v.files .recovery)

/-- The file opens, on any TPM and with any PIN, to keys of `K` only. -/
def OpensWithin (E : Primitives) (K : SecretBytes → Prop) (bytes : Bytes) : Prop :=
  ∀ s p k, unsealBytes E s bytes p = some k → K k

/-- The sealed metadata is a file that opens to keys of `K` only, if it is there. -/
def View.MetadataWithin (E : Primitives) (K : SecretBytes → Prop) (v : View) : Prop :=
  ∀ n, v.files .metadata = some n → ∃ b m, n = .file b m ∧ OpensWithin E K b

/-- A step that the other processes need not fear. -/
structure Calm (E : Primitives) (K : SecretBytes → Prop) (pid : ℕ) (h h' : Host) : Prop where
  temps : ∀ a pid' tag, pid' ≠ pid → h'.at_ (.temp a pid' tag) = h.at_ (.temp a pid' tag)
  seed : h'.tpm.seed = h.tpm.seed
  stake : h'.view.stake = h.view.stake
  metadata : h.view.MetadataWithin E K → h'.view.MetadataWithin E K

variable {E : Primitives} {K : SecretBytes → Prop} {may : Host → Op → Fault → Prop}
  {rely : Host → Host → Prop} {pid : ℕ} {P : Host → Prop} {h h' : Host}

theorem Calm.refl (E : Primitives) (K : SecretBytes → Prop) (pid : ℕ) (h : Host) :
    Calm E K pid h h := ⟨fun _ _ _ _ => rfl, rfl, rfl, id⟩

/-- A change of the view that is none of the stake, the seed and the metadata. -/
theorem Step.calm {g : View → View} (hs : Step pid g h h')
    (hseed : (g h.view).seed = h.view.seed) (hstake : (g h.view).stake = h.view.stake)
    (hmeta : h.view.MetadataWithin E K → (g h.view).MetadataWithin E K) : Calm E K pid h h' where
  temps := hs.temps
  seed := (congrArg View.seed hs.view).trans hseed
  stake := (congrArg View.stake hs.view).trans hstake
  metadata := hs.view ▸ hmeta

theorem QuietStep.calm (hs : QuietStep pid h h') : Calm E K pid h h' :=
  Step.calm hs rfl rfl id

theorem metadataWithin_of_files {v v' : View} (hf : v'.files .metadata = v.files .metadata)
    (hv : v.MetadataWithin E K) : v'.MetadataWithin E K := fun n hn => hv n (hf ▸ hn)

/-! ## Calm operations -/

/-- Operations that are calm whenever they are made. -/
def CalmOp (pid : ℕ) : Op → Prop
  | .file (.removeFile (.main a)) => a ≠ .recovery
  | .file (.syncParentDir (.main _)) | .setLockoutAuth .. | .eprintln _ => True
  | o => Quiet pid o

theorem calmOp_of_quiet {o : Op} (ho : Quiet pid o) : CalmOp pid o := by
  unfold CalmOp
  split
  · obtain ⟨_, _, h⟩ := ho
    cases h
  · trivial
  · trivial
  · trivial
  · exact ho

theorem exec_calm {o : Op} (ho : CalmOp pid o) (f : Fault) (h : Host) :
    Calm E K pid h (exec E o f h).2 := by
  unfold CalmOp at ho
  split at ho
  · rename_i a
    rcases exec_removeFile E pid h f a with ⟨-, hs⟩ | ⟨-, -, hs⟩ | ⟨_, -, -, hs, -⟩
    · refine hs.calm rfl (Prod.ext rfl (Function.update_of_ne (Ne.symm ho) _ _)) fun hm n hn => ?_
      by_cases ha : a = .metadata
      · subst ha
        simp [View.remove] at hn
      · exact hm n ((Function.update_of_ne (Ne.symm ha) _ _).symm.trans hn)
    · exact hs.symm ▸ .refl E K pid h
    · exact hs.symm ▸ .refl E K pid h
  · rename_i a
    rcases @exec_syncParentDir E pid h a f with ⟨-, hs⟩ | ⟨_, -, hs⟩
    · exact hs.symm ▸ .refl E K pid h
    · exact hs.calm rfl rfl id
  · simp only [exec]
    split
    · exact .refl E K pid h
    · split
      · exact ⟨fun _ _ _ _ => rfl, rfl, rfl, id⟩
      · cases f <;> exact ⟨fun _ _ _ _ => rfl, rfl, rfl, id⟩
  · exact ⟨fun _ _ _ _ => rfl, rfl, rfl, id⟩
  · exact QuietStep.calm (exec_quiet E ho f h)

/-! ## Programs of calm operations -/

/-- An assertion that neither the others nor a calm step of the process can break. -/
structure Steady (E : Primitives) (K : SecretBytes → Prop) (pid : ℕ) (rely : Host → Host → Prop)
    (P : Host → Prop) : Prop where
  rely : ∀ h h', rely h h' → P h → P h'
  calm : ∀ h h', Calm E K pid h h' → P h → P h'

theorem Steady.stable (hP : Steady E K pid rely P) : Stable pid rely (Calm E K pid) P where
  rely := hP.rely
  quiet _ _ hs hPh := ⟨hs.calm, hP.calm _ _ hs.calm hPh⟩

theorem wp_calm (hP : Steady E K pid rely P) {α : Type} {p : Prog Op.Res α}
    (hp : p.All (CalmOp pid)) (h₀ : P h) :
    wp (machine E may) rely (Calm E K pid) p (fun _ => P) h :=
  wp_all hp hP.rely (fun h _ f ho _ hPh => ⟨exec_calm ho f h, hP.calm _ _ (exec_calm ho f h) hPh⟩)
    h₀

theorem wpe_calm (hP : Steady E K pid rely P) {ε α : Type} {x : ExceptT ε (Prog Op.Res) α}
    (hx : AllOps (CalmOp pid) x) (h₀ : P h) :
    wpe (machine E may) rely (Calm E K pid) x (fun _ => P) (fun _ => P) h :=
  wp_post (wp_calm hP hx h₀) fun r _ hr => by cases r <;> exact hr

theorem calm_of_quiet {ε α : Type} {x : ExceptT ε (Prog Op.Res) α} (hx : AllOps (Quiet pid) x) :
    AllOps (CalmOp pid) x := Prog.All.mono (fun _ => calmOp_of_quiet) hx

/-- Writing a file is calm, unless it is the recovery blob. -/
theorem calmPlace (ht : KeepsTemps pid rely) (hP : Steady E K pid rely P) {a : Artifact}
    {bytes : Bytes} (ha : a ≠ .recovery) (hm : a = .metadata → OpensWithin E K bytes) :
    PlaceRule may rely (Calm E K pid) pid a bytes P P P where
  temps := ht
  before := hP.stable
  after := hP.rely
  refl h _ := .refl E K pid h
  place _ h h' hPh _ hs := by
    have hcalm : Calm E K pid h h' := hs.calm rfl
      (Prod.ext rfl (Function.update_of_ne (Ne.symm ha) _ _)) fun hmeta n hn => by
        by_cases hne : a = .metadata
        · subst hne
          exact ⟨bytes, _, ((View.files_place_self ..).symm.trans hn |> Option.some.inj).symm,
            hm rfl⟩
        · exact hmeta n ((Function.update_of_ne (Ne.symm hne) _ _).symm.trans hn)
    exact ⟨hcalm, hP.calm _ _ hcalm hPh⟩
  spoil h h' hPh hs := by
    have hcalm : Calm E K pid h h' := hs.calm rfl rfl id
    exact ⟨hcalm, hP.calm _ _ hcalm hPh⟩

/-! ## Removing files and undoing the lockout -/

theorem allOps_ofExcept_bind {S : Op → Prop} {α β : Type} {r : Except Error α} {f : α → Io β}
    (hf : ∀ a, r = .ok a → AllOps S (f a)) : AllOps S (ofExcept r >>= f) := by
  cases r with
  | ok a => exact hf a rfl
  | error e => trivial

/-- A program that looks at the outcome of another one. -/
theorem all_run {S : Op → Prop} {ε α β : Type} {x : ExceptT ε (Prog Op.Res) α}
    {f : Except ε α → Prog Op.Res β} (hx : AllOps S x) (hf : ∀ r, (f r).All S) :
    (x.run >>= f).All S := Prog.All.bind hx hf

theorem eprintln_calm (text : String) : (eprintln text).All (CalmOp pid) :=
  (Prog.all_call _ _).2 trivial

theorem fsRemoveFile_calm {a : Artifact} (ha : a ≠ .recovery) :
    AllOps (CalmOp pid) (fsRemoveFile (.main a)) := ⟨ha, fun _ => trivial⟩

theorem removeFile_calm {a : Artifact} (ha : a ≠ .recovery) :
    AllOps (CalmOp pid) (removeFile a) :=
  all_run (fsRemoveFile_calm ha) fun r => by
    rcases r with (_ | _ | _ | _) | _ <;> trivial

theorem store_remove_calm (proc : Process) (username : String) :
    AllOps (CalmOp pid) (EnrollStore.remove E proc username) := by
  refine .bind (calm_of_quiet (ensureDir_all proc)) fun _ => allOps_ofExcept_bind fun a ha => ?_
  obtain rfl : a = .template username := by
    unfold EnrollStore.userPath at ha
    split at ha
    · exact (Except.ok.inj ha).symm
    · cases ha
  refine .bind (allOps_lift (fsRemoveFile_calm (a := .template username) (by simp))) fun r => ?_
  rcases r with (_ | _ | _ | _) | _ <;> trivial

theorem setLockoutAuth_calm (current new : SecretBytes) :
    AllOps (CalmOp pid) (setLockoutAuth current new) := ⟨trivial, fun _ => trivial⟩

theorem restoreLockoutAuth_calm (tx : Tx) : tx.restoreLockoutAuth.All (CalmOp pid) := by
  unfold Tx.restoreLockoutAuth
  cases tx.lockoutAuth with
  | none => trivial
  | some derived =>
    refine all_run (setLockoutAuth_calm _ _) fun r => ?_
    cases r with
    | error e => exact eprintln_calm _
    | ok u =>
      refine all_run (removeFile_calm (by simp)) fun r => ?_
      cases r with
      | error e => exact eprintln_calm _
      | ok u => trivial

theorem cleanupStep_calm {written : Bool} {x : Io Unit} (hx : AllOps (CalmOp pid) x)
    (cleanup : Except Error Unit) : (cleanupStep written x cleanup).All (CalmOp pid) := by
  unfold cleanupStep
  split
  · refine all_run hx fun r => ?_
    cases r <;> trivial
  · trivial

theorem releaseLockoutAuth_calm (proc : Process) (recovery : SecretBytes) :
    AllOps (CalmOp pid) (releaseLockoutAuth E proc recovery) := by
  refine .bind (allOps_lift ⟨trivial, fun _ => trivial⟩) fun owned => ?_
  cases owned with
  | false => trivial
  | true =>
    exact .bind ((calm_of_quiet (ofExcept_all _)).adapt _) fun _ =>
      .bind ((setLockoutAuth_calm _ _).adapt _)
      fun _ => (removeFile_calm (by simp)).adapt _

theorem tryRelease_calm (proc : Process) (recovery : Option SecretBytes) :
    (tryRelease E proc recovery).All (CalmOp pid) := by
  cases recovery with
  | none => trivial
  | some recovery =>
    refine all_run (releaseLockoutAuth_calm proc recovery) fun r => ?_
    cases r with
    | error e => exact eprintln_calm _
    | ok u => trivial

/-! ## The middle of the transaction -/

/-- What a rollback needs to know of the record between the recovery blob and the rekey. -/
structure Tx.Held (tx : Tx) : Prop where
  newKey : tx.newKey = none
  recoveryWritten : tx.recoveryWritten = true

/-- A part of the transaction that `P` survives, whatever has been recorded. -/
def Preserves (M : Machine Op.Res Host Fault) (rely guar : Host → Host → Prop) (P : Host → Prop)
    {α : Type} (x : TxIo α) : Prop :=
  ∀ tx h, tx.Held → P h → wpt M rely guar x (fun _ tx h => tx.Held ∧ P h)
    (fun _ tx h => tx.Held ∧ P h) tx h

section Preserves

variable {M : Machine Op.Res Host Fault} {guar : Host → Host → Prop} {α β : Type}

theorem Preserves.pure (a : α) : Preserves M rely guar P (pure a : TxIo α) :=
  fun _ _ ht h₀ => ⟨ht, h₀⟩

theorem Preserves.bind {x : TxIo α} {f : α → TxIo β} (hx : Preserves M rely guar P x)
    (hf : ∀ a, Preserves M rely guar P (f a)) : Preserves M rely guar P (x >>= f) :=
  fun tx h ht h₀ => wpt_seq (hx tx h ht h₀) fun a tx h hh => hf a tx h hh.1 hh.2

theorem Preserves.adapt {x : TxIo α} (hx : Preserves M rely guar P x) (f : Error → Error) :
    Preserves M rely guar P (ExceptT.adapt f x) :=
  fun tx h ht h₀ => (wpt_adapt ..).2 (hx tx h ht h₀)

theorem Preserves.lift {x : Io α}
    (hx : ∀ h, P h → wpe M rely guar x (fun _ => P) (fun _ => P) h) :
    Preserves M rely guar P (liftM x : TxIo α) :=
  fun _ h ht h₀ => (wpt_lift ..).2 (wpe_mono (hx h h₀) (fun _ _ hP => ⟨ht, hP⟩)
    fun _ _ hP => ⟨ht, hP⟩)

theorem Preserves.recorded {x : Io Unit} {f : Tx → Tx}
    (hx : ∀ h, P h → wpe M rely guar x (fun _ => P) (fun _ => P) h)
    (hf : ∀ tx : Tx, tx.Held → (f tx).Held) : Preserves M rely guar P (recorded x f) :=
  .bind (.lift hx) fun _ tx _ ht h₀ => (wpt_modify ..).2 ⟨hf tx ht, h₀⟩

end Preserves

section Middle

variable {args : EnrollArgs} {proc : Process} {seed : ℕ} (ht : KeepsTemps proc.pid rely)
  (hP : Steady E K proc.pid rely P)

include ht hP

theorem replaceFile_calm {a : Artifact} (ha : a ≠ .recovery) (hm : a ≠ .metadata) (bytes : Bytes)
    (h₀ : P h) :
    wpe (machine E may) rely (Calm E K proc.pid) (replaceFile proc a bytes) (fun _ => P)
      (fun _ => P) h :=
  wpe_mono (replaceFile_spec (calmPlace ht hP ha fun h => absurd h hm) rfl h₀) (fun _ _ => id)
    fun _ _ hP => hP.elim id id

/-- Sealing and saving is calm for the metadata of a key of `K`, and for a face credential. -/
theorem sealAndSave_calm (hseed : ∀ h, P h → h.tpm.seed = seed) {a : Artifact}
    (ha : a ≠ .recovery) (texts : SealTexts) (entropy : Bytes) {auth key : SecretBytes}
    (hm : a = .metadata → K key) (h₀ : P h) :
    wpe (machine E may) rely (Calm E K proc.pid) (sealAndSave E proc texts entropy auth key a)
      (fun _ => P) (fun _ => P) h := by
  refine wpe_mono (@sealAndSave_spec _ _ _ _ _ _ _ _ _ _ _
    ((sealedBytes E seed entropy auth key).getD []) _ _ hP.stable hseed (fun b hb => by simp [hb])
    (fun hb => calmPlace ht hP ha fun heq s p k hk => ?_) texts _ h₀) (fun _ _ => id)
    fun _ _ hP => hP.elim id id
  rw [((seals_sealedBytes hb).only s p k hk).2]
  exact hm heq

theorem store_save_calm (username : String) (t : FaceEnrollment) (h₀ : P h) :
    wpe (machine E may) rely (Calm E K proc.pid) (EnrollStore.save E proc username t) (fun _ => P)
      (fun _ => P) h := by
  refine wpe_mono (@store_save_spec _ _ _ _ _ _ _ _ ((E.enrollmentJson t).toOption.getD []) _
    (calmPlace ht hP (a := .template username) (by simp) (by simp)) proc rfl t (fun json hj => ?_) _
    h₀) (fun _ _ => id) fun _ _ hP => hP.elim id id
  simp [hj, Except.toOption]

theorem commitFace_calm (hseed : ∀ h, P h → h.tpm.seed = seed) (key : SecretBytes)
    (face : FaceEnroll) :
    Preserves (machine E may) rely (Calm E K proc.pid) P (commitFace E proc args key face) := by
  have hcapture : AllOps (Quiet proc.pid)
      (ExceptT.mk (call (Op.captureTemplate face.template)) : Io FaceEnrollment) :=
    ⟨trivial, fun _ => trivial⟩
  have hgenerate : AllOps (Quiet proc.pid) (generateKey args.draws.aFace) :=
    ⟨trivial, fun _ => trivial⟩
  unfold commitFace
  refine .bind (.lift fun h h₀ => wpe_quiet hP.stable (hcapture.adapt _) h₀) fun template => ?_
  refine .bind (.lift fun h h₀ => wpe_quiet hP.stable (hgenerate.adapt _) h₀) fun aFace => ?_
  refine .bind (.recorded (fun h h₀ => ?_) fun _ ht => ⟨ht.newKey, ht.recoveryWritten⟩) fun _ => ?_
  · exact sealAndSave_calm ht hP hseed (by simp) _ _ (by simp) h₀
  refine .bind (.recorded (fun h h₀ => ?_) fun _ ht => ⟨ht.newKey, ht.recoveryWritten⟩) fun _ => ?_
  · exact (wpe_adapt ..).2 (replaceFile_calm ht hP (by simp) (by simp) _ h₀)
  · exact .recorded (fun h h₀ => (wpe_adapt ..).2 (store_save_calm ht hP _ _ h₀))
      fun _ ht => ⟨ht.newKey, ht.recoveryWritten⟩

theorem commitFaceLeg_calm (hseed : ∀ h, P h → h.tpm.seed = seed) (key : SecretBytes) :
    Preserves (machine E may) rely (Calm E K proc.pid) P (commitFaceLeg E proc args key) := by
  unfold commitFaceLeg
  cases args.face with
  | none => exact .pure _
  | some face => exact (commitFace_calm ht hP hseed key face).adapt _

theorem bindLockout_calm (recovery : SecretBytes) :
    Preserves (machine E may) rely (Calm E K proc.pid) P (bindLockout E proc recovery) := by
  have hread : AllOps (Quiet proc.pid) lockoutAuthIsSet := ⟨trivial, fun _ => trivial⟩
  refine .bind (.lift fun h h₀ => wpe_quiet hP.stable (hread.adapt _) h₀) fun taken => ?_
  cases taken with
  | true => exact .lift fun h h₀ => wpe_calm hP (allOps_lift (eprintln_calm _)) h₀
  | false =>
    refine .bind (.lift fun h h₀ =>
      wpe_calm hP ((calm_of_quiet (ofExcept_all _)).adapt _) h₀) fun auth =>
      .bind (.recorded (fun h h₀ => wpe_calm hP ((setLockoutAuth_calm _ _).adapt _) h₀)
        fun _ ht => ⟨ht.newKey, ht.recoveryWritten⟩) fun _ => .lift fun h h₀ => ?_
    exact (wpe_adapt ..).2 (replaceFile_calm ht hP (by simp) (by simp) _ h₀)

end Middle

end Tess

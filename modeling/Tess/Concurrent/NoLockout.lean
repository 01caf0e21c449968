import Tess.Concurrent.Stake
import Tess.Lifecycle.KeyAgreement
import Tess.Lifecycle.Faultless

/-!
# No lockout among concurrent processes

The programs of a cohort keep its invariant, whatever the others do, as long as no recovery blob
is renamed over another one. A process comes to hold the stake by writing its recovery blob, or by
rekeying away from the key that a blob opens to, and lets it go by rekeying to the key, or by
removing the blob.

That condition is what the code does not ensure: an enrollment looks for the files of another one
before it writes its own, but another enrollment may write in between.
-/

namespace Tess

open Files Effects Recovery

section Programs

variable {ι : Type} {c : Crowd ι} {E : Primitives} {i : ι} {seed : ℕ} {args : EnrollArgs}
  {w : Host × Option ι}

/-! ## The recovery blob -/

theorem replaceFile_recovery {bytes : Bytes} (hblob : blobBytes E args.draws = some bytes)
    (hf : c.Fine E seed w.1) :
    wpe (tracked E i) (c.Rely E i) (c.Guarantee E i) (replaceFile (c.proc i) .recovery bytes)
      (fun _ => c.Placed E i args seed) (fun _ w => c.Fine E seed w.1) w := by
  refine wpe_seq ((wpe_adapt ..).2 (wpe_quiet_free (createDirAll_all (parent_dir _)) hf))
    fun _ w hf => ?_
  refine wpe_seq (P := fun p w => c.Fine E seed w.1 ∧ ∃ tag, p = .temp .recovery (c.proc i).pid tag)
    ((wpe_lift ..).2 (wp_free (tempSibling_spec (Crowd.Fine.steady _).stable _ rfl _ hf))) ?_
  rintro _ w ⟨hf, tag, rfl⟩
  refine wpe_seq (P := fun _ w => c.Fine E seed w.1 ∧
      w.1.at_ (.temp .recovery (c.proc i).pid tag) = some (.file bytes 0o600)) ((wpe_adapt ..).2
    (wpe_free (writePrivate_spec (Crowd.Fine.steady _).stable (Crowd.RelyFree.keepsTemps _) _ tag
      bytes hf))) ?_
  rintro _ w ⟨hf, htemp⟩
  exact publish_recovery _ _ hf hblob htemp

theorem backUp_concurrent (hf : c.Fine E seed w.1) :
    wpe (tracked E i) (c.Rely E i) (c.Guarantee E i)
      (backUp E (c.proc i) args args.draws.key args.draws.recoverySecret)
      (fun _ => c.Placed E i args seed) (fun _ w => c.Fine E seed w.1) w := by
  refine wpe_seq (P := fun blob w => wrapWith E args.draws.key args.draws.recoverySecret
      args.draws.salt args.draws.nonce = .ok blob ∧ c.Fine E seed w.1) ((wpe_adapt ..).2
    (wpe_free (wrapKey_spec (Crowd.Fine.steady _).stable hf))) ?_
  rintro blob w ⟨hblob, hf⟩
  refine wpe_seq (P := fun _ w => c.Fine E seed w.1)
    ((wpe_adapt ..).2 (ofExcept_spec (fun _ _ => hf) fun _ => hf)) fun _ w hf => ?_
  refine wpe_seq (P := fun _ w => c.Fine E seed w.1)
    ((wpe_ensure ..).2 ⟨fun _ => hf, fun _ => hf⟩) fun _ w hf => (wpe_adapt ..).2 ?_
  refine wpe_seq (P := fun json w => blobBytes E args.draws = some json ∧ c.Fine E seed w.1)
    (ofExcept_spec (fun json hj => ⟨blobBytes_eq hblob hj, hf⟩) fun _ => hf) ?_
  rintro json w ⟨hjson, hf⟩
  exact replaceFile_recovery hjson hf

/-! ## The transaction -/

/-- What a failed transaction leaves: it holds the stake if it has recorded the recovery blob, unless
it has rekeyed. -/
structure Undoable (c : Crowd ι) (E : Primitives) (i : ι) (args : EnrollArgs) (seed : ℕ) (tx : Tx)
    (w : Host × Option ι) : Prop where
  fine : c.Fine E seed w.1
  newKey : tx.newKey = none ∨ tx.newKey = some args.draws.key
  mine : tx.newKey = none → tx.recoveryWritten = true → c.Mine i w

theorem Crowd.Placed.undoable {tx : Tx} (hw : c.Placed E i args seed w) (ht : tx.Held) :
    Undoable c E i args seed tx w :=
  ⟨hw.fine, .inl ht.newKey, fun _ _ => hw.mine⟩

/-- A part of the transaction between the recovery blob and the rekey. -/
theorem Crowd.Placed.middle {x : TxIo Unit} {tx : Tx} (hw : c.Placed E i args seed w)
    (hx : ∀ s, Steady E c.Generated (c.proc i).pid (c.RelyMine E (c.proc i).pid)
        (fun h => c.Fine E seed h ∧ h.view.stake = s) →
      Preserves (machine E freeRecovery) (c.RelyMine E (c.proc i).pid)
        (Calm E c.Generated (c.proc i).pid) (fun h => c.Fine E seed h ∧ h.view.stake = s) x)
    (ht : tx.Held) :
    wpt (tracked E i) (c.Rely E i) (c.Guarantee E i) x
      (fun _ tx w => tx.Held ∧ c.Placed E i args seed w)
      (fun _ tx w => Undoable c E i args seed tx w) tx w := by
  obtain ⟨b, hb, hblob⟩ := hw.blob
  have hkeep : ∀ w' : Host × Option ι, (c.Fine E seed w'.1 ∧ w'.1.view.stake = w.1.view.stake) →
      c.Mine i w' → c.Placed E i args seed w' := fun w' ⟨hf, hs⟩ hm =>
    ⟨hf, hm, b, (congrArg Prod.snd hs).trans hb, hblob⟩
  have hwp := wp_mine (c := c) hw.mine
    (hx _ (Crowd.Fine.steady_stake _ _) tx w.1 ht ⟨hw.fine, rfl⟩)
  refine wp_post hwp ?_
  rintro ⟨r, tx'⟩ w' ⟨hr, hm⟩
  cases r with
  | ok u =>
    obtain ⟨ht', hf⟩ := hr
    exact ⟨ht', hkeep w' hf hm⟩
  | error e =>
    obtain ⟨ht', hf⟩ := hr
    exact (hkeep w' hf hm).undoable ht'

/-- The rekey to the generated key: the recovery blob in place opens to it. -/
theorem rekey_forward (hargs : c.Enrolls args) (hw : c.Placed E i args seed w) :
    wpe (tracked E i) (c.Rely E i) (c.Guarantee E i) (keyringRekey args.old args.draws.key true)
      (fun _ w => c.Fine E seed w.1) (fun _ => c.Placed E i args seed) w := by
  refine rekey_concurrent (P := c.Placed E i args seed) (fun w w' hr hp => ?_)
    (fun h a h' hp _ hs => ?_)
    (fun _ _ hp => hp) hw
  · obtain ⟨hs, ha⟩ := hr.mine hp.mine
    obtain ⟨b, hb, hblob⟩ := hp.blob
    exact ⟨hp.fine.rely hr, hp.mine.of_stake hs ha, b, (congrArg Prod.snd hs).trans hb, hblob⟩
  · obtain ⟨b, hb, hblob⟩ := hp.blob
    have hsound : c.Sound E (h.view.rekey args.draws.key true) :=
      ⟨.inr ⟨args, hargs, rfl, b, _, hb, (wraps_blobBytes hblob).opens⟩, hp.fine.sound.metadata⟩
    exact ⟨.of_step hs rfl (fun _ => hsound) fun _ => hp.mine.holder,
      show c.Sound E h'.view from hs.view ▸ hsound,
      (congrArg View.seed hs.view).trans hp.fine.seed⟩

theorem commit_concurrent (hargs : c.Enrolls args) (hf : c.Fine E seed w.1) :
    wpt (tracked E i) (c.Rely E i) (c.Guarantee E i)
      (commit E (c.proc i) args args.draws.key args.draws.recoverySecret)
      (fun _ _ w => c.Fine E seed w.1) (fun _ tx w => Undoable c E i args seed tx w) {} w := by
  have hgen : c.Generated args.draws.key := ⟨args, hargs, rfl⟩
  have hseed : ∀ s h, (c.Fine E seed h ∧ h.view.stake = s) → h.tpm.seed = seed :=
    fun _ _ hf => hf.1.seed
  unfold commit
  refine wpt_seq (P := fun _ tx w => tx.Held ∧ c.Placed E i args seed w) ?_ ?_
  · refine wpt_seq (P := fun _ tx w => tx = {} ∧ c.Placed E i args seed w) ((wpt_lift ..).2
      (wpe_mono (backUp_concurrent hf) (fun _ w hp => ⟨rfl, hp⟩) fun _ w hf =>
        ⟨hf, .inl rfl, fun _ h => nomatch h⟩)) ?_
    rintro _ _ w ⟨rfl, hp⟩
    exact (wpt_modify ..).2 ⟨⟨rfl, rfl⟩, hp⟩
  rintro _ tx w ⟨ht, hp⟩
  refine wpt_seq (hp.middle (fun s hs => .recorded (fun h hh => sealAndSave_calm
    (Crowd.RelyMine.keepsTemps _) hs (hseed s) (by simp) _ _ (fun _ => hgen) hh)
    fun _ ht => ⟨ht.newKey, ht.recoveryWritten⟩) ht) ?_
  rintro _ tx w ⟨ht, hp⟩
  refine wpt_seq (hp.middle (fun s hs => commitFaceLeg_calm (Crowd.RelyMine.keepsTemps _) hs
    (hseed s) _) ht) ?_
  rintro _ tx w ⟨ht, hp⟩
  refine wpt_seq (hp.middle (fun s hs => bindLockout_calm (Crowd.RelyMine.keepsTemps _) hs _) ht) ?_
  rintro _ tx w ⟨ht, hp⟩
  refine wpt_seq (P := fun _ tx w => tx.newKey = some args.draws.key ∧ c.Fine E seed w.1) ?_ ?_
  · refine wpt_seq (P := fun _ _ w => c.Fine E seed w.1) ((wpt_lift ..).2 ((wpe_adapt ..).2
      (wpe_mono (rekey_forward hargs hp) (fun _ _ h => h) fun _ _ hp => hp.undoable ht))) ?_
    exact fun _ tx w hf => (wpt_modify ..).2 ⟨rfl, hf⟩
  rintro _ tx w ⟨ht, hf⟩
  exact (wpt_lift ..).2 (wpe_mono (wpe_quiet_free (verifyRekeyed_all _) hf) (fun _ _ h => h)
    fun _ _ hf => ⟨hf, .inr ht, fun h => nomatch ht.symm.trans h⟩)

/-! ## Undoing it -/

/-- A rekey away from a generated key: its recovery blob is still there, and now the process holds
the stake. -/
theorem rekey_away {key new : SecretBytes} (hkey : ¬ c.Supplied key) (hnew : c.Supplied new)
    (hf : c.Fine E seed w.1) :
    wpe (tracked E i) (c.Rely E i) (c.Guarantee E i) (keyringRekey key new false)
      (fun _ w => c.Fine E seed w.1 ∧ c.Mine i w ∧ c.Backs E (w.1.view.files .recovery) key)
      (fun _ w => c.Fine E seed w.1) w := by
  refine rekey_concurrent (P := fun w => c.Fine E seed w.1) (fun w w' hr hf => hf.rely hr)
    (fun h a h' hf hc hs => ?_) (fun _ _ hf => hf) hf
  have hview := hs.view
  have hbacks : c.Backs E (h.view.files .recovery) key :=
    hc ▸ hf.sound.backed.resolve_left fun hp => hkey (hc ▸ hp)
  have hsound : c.Sound E (h.view.rekey new false) := ⟨.inl hnew, hf.sound.metadata⟩
  have hstake : h'.view.stake ≠ h.view.stake := fun h => by
    have := congrArg Prod.fst h
    simp only [View.stake, hview, hc, View.rekey] at this
    exact hkey (this ▸ hnew)
  have hblob : h'.view.files .recovery ≠ none := by
    obtain ⟨_, -, -, b, m, hb, -⟩ := hbacks
    rw [hview]
    exact fun hn => absurd (hb.symm.trans hn) (by simp)
  refine ⟨.of_step hs rfl (fun _ => hsound) fun hb => absurd (hc ▸ hb.password) hkey,
    ⟨hview ▸ hsound, (congrArg View.seed hview).trans hf.seed⟩,
    ⟨if_neg hstake, ⟨hview ▸ hnew, hblob⟩⟩, ?_⟩
  exact show c.Backs E (h'.view.files .recovery) key from hview ▸ hbacks

/-- A calm program, which gives up nothing that the process holds. -/
theorem wp_calm_held {α : Type} {p : Prog Op.Res α} {b : Prop}
    (hp : p.All (CalmOp (c.proc i).pid)) (hf : c.Fine E seed w.1) (hm : b → c.Mine i w) :
    wp (tracked E i) (c.Rely E i) (c.Guarantee E i) p
      (fun _ w => c.Fine E seed w.1 ∧ (b → c.Mine i w)) w := by
  by_cases hb : b
  · exact wp_post (wp_mine (hm hb) (wp_calm (Crowd.Fine.steady_stake _ _) hp ⟨hf, rfl⟩))
      fun _ _ h => ⟨h.1.1, fun _ => h.2⟩
  · exact wp_post (wp_free (wp_calm (Crowd.Fine.steady _) hp hf))
      fun _ _ h => ⟨h, fun hb' => absurd hb' hb⟩

theorem wpe_calm_held {ε α : Type} {x : ExceptT ε (Prog Op.Res) α} {b : Prop}
    (hx : AllOps (CalmOp (c.proc i).pid) x) (hf : c.Fine E seed w.1) (hm : b → c.Mine i w) :
    wpe (tracked E i) (c.Rely E i) (c.Guarantee E i) x
      (fun _ w => c.Fine E seed w.1 ∧ (b → c.Mine i w)) (fun _ w => c.Fine E seed w.1) w :=
  wp_post (wp_calm_held hx hf hm) fun r _ hr => by
    cases r with
    | ok u => exact hr
    | error e => exact hr.1

/-- Removing a recovery blob, when the process holds the stake. -/
theorem removeFile_recovery (hf : c.Fine E seed w.1) (hm : c.Mine i w) :
    wpe (tracked E i) (c.Rely E i) (c.Guarantee E i) (removeFile .recovery)
      (fun _ w => c.Fine E seed w.1) (fun _ w => c.Fine E seed w.1) w := by
  refine (wpe_mk ..).2 ((wp_bind ..).2 (wp_post (Q := fun _ w => c.Fine E seed w.1) ?_ ?_))
  · rintro ⟨h, a⟩ hw f -
    have hf' : c.Fine E seed h := hf.rely hw
    obtain ⟨hs, ha⟩ := hw.mine hm
    have hm' : c.Mine i (h, a) := hm.of_stake hs ha
    have hsame : (exec E (.file (.removeFile (.main .recovery))) f h).2 = h →
        c.Guarantee E i (h, a) ((tracked E i).exec (.file (.removeFile (.main .recovery))) f
          (h, a)).2 ∧ c.Fine E seed ((tracked E i).exec (.file (.removeFile (.main .recovery))) f
          (h, a)).2.1 := fun hs =>
      same_concurrent (Q := fun w : Host × Option ι => c.Fine E seed w.1) hs hf'
    rcases exec_removeFile E (c.proc i).pid h f .recovery with
      ⟨-, hstep⟩ | ⟨-, -, hs⟩ | ⟨_, -, -, hs, -⟩
    · have hmeta : (h.view.remove .recovery).files .metadata = h.view.files .metadata :=
        View.files_remove_of_ne _ (by simp)
      have hsound : c.Sound E (h.view.remove .recovery) :=
        ⟨.inl hm'.busy.password, metadataWithin_of_files hmeta hf'.sound.metadata⟩
      exact ⟨.of_step hstep rfl (fun _ => hsound) fun _ => hm'.holder,
        show c.Sound E _ from hstep.view ▸ hsound,
        (congrArg View.seed hstep.view).trans hf'.seed⟩
    · exact hsame hs
    · exact hsame hs
  · intro r w hf
    rcases r with (_ | _ | _ | _) | _ <;> exact hf

theorem removeArtifacts_concurrent (tx : Tx) (face : Option String) (hf : c.Fine E seed w.1)
    (hm : tx.recoveryWritten = true → c.Mine i w) :
    wp (tracked E i) (c.Rely E i) (c.Guarantee E i) (tx.removeArtifacts E (c.proc i) face)
      (fun _ w => c.Fine E seed w.1) w := by
  have hwritten : ∀ {a : Artifact} (what : String), a ≠ .recovery →
      AllOps (CalmOp (c.proc i).pid) (Tx.removeWritten (c.proc i) what a) :=
    fun _ ha => (removeFile_calm ha).adapt _
  have htemplate : (tx.removeEnrolledTemplate E (c.proc i) face).All (CalmOp (c.proc i).pid) := by
    cases face with
    | none => trivial
    | some username =>
      exact cleanupStep_calm (.bind ((store_remove_calm _ _).adapt _) fun _ => allOps_pure _) _
  refine (wp_bind ..).2 (wp_post (wp_calm_held htemplate hf hm) fun _ w ⟨hf, hm⟩ => ?_)
  refine (wp_bind ..).2 (wp_post (wp_calm_held (cleanupStep_calm (hwritten _ (by simp)) _) hf hm)
    fun _ w ⟨hf, hm⟩ => ?_)
  refine (wp_bind ..).2 (wp_post (wp_calm_held (cleanupStep_calm (hwritten _ (by simp)) _) hf hm)
    fun _ w ⟨hf, hm⟩ => ?_)
  refine (wp_bind ..).2 (wp_post (wp_calm_held (cleanupStep_calm (hwritten _ (by simp)) _) hf hm)
    fun cleanup w ⟨hf, hm⟩ => ?_)
  unfold cleanupStep
  split
  · rename_i hrec
    refine (wp_bind ..).2 ((wp_run ..).2 ((wpe_adapt ..).2 ?_))
    exact wpe_mono (removeFile_recovery hf (hm hrec)) (fun _ _ hf => hf) fun _ _ hf => hf
  · exact hf

theorem rollback_concurrent {tx : Tx} {old : SecretBytes} {face : Option String}
    (hkey : ¬ c.Supplied args.draws.key) (hold : c.Supplied old)
    (hu : Undoable c E i args seed tx w) :
    wp (tracked E i) (c.Rely E i) (c.Guarantee E i) (tx.rollback E (c.proc i) old face)
      (fun _ w => c.Fine E seed w.1) w := by
  have hrestore : wpe (tracked E i) (c.Rely E i) (c.Guarantee E i) (tx.restoreCredential old)
      (fun _ w => c.Fine E seed w.1 ∧ (tx.recoveryWritten = true → c.Mine i w))
      (fun _ w => c.Fine E seed w.1) w := by
    unfold Tx.restoreCredential
    rcases hu.newKey with hn | hn <;> rw [hn]
    · exact ⟨hu.fine, hu.mine hn⟩
    · exact (wpe_adapt ..).2 (wpe_mono (rekey_away hkey hold hu.fine)
        (fun _ _ h => ⟨h.1, fun _ => h.2.1⟩) fun _ _ hf => hf)
  refine (wp_bind ..).2 ((wp_run ..).2 (wpe_mono hrestore ?_ fun _ _ hf => hf))
  rintro _ w ⟨hf, hm⟩
  refine (wp_bind ..).2 (wp_post (wp_calm_held (restoreLockoutAuth_calm tx) hf hm)
    fun _ w ⟨hf, hm⟩ => ?_)
  refine (wp_bind ..).2 (wp_post (removeArtifacts_concurrent tx face hf hm) fun r w hf => ?_)
  cases r <;> exact hf

/-! ## The two programs -/

/-- Enrolling among other processes. -/
theorem enroll_concurrent (hkey : ¬ c.Supplied args.draws.key) (hold : c.Supplied args.old)
    (hargs : c.Enrolls args) (hf : c.Fine E seed w.1) :
    wpe (tracked E i) (c.Rely E i) (c.Guarantee E i) (enroll E (c.proc i) args)
      (fun _ w => c.Fine E seed w.1) (fun _ w => c.Fine E seed w.1) w := by
  have hexists : ∀ as : List Artifact, (anyExists as).All (Quiet (c.proc i).pid) := by
    intro as
    induction as with
    | nil => trivial
    | cons a as ih =>
      exact Prog.All.bind (p := pathExists (.main a)) ⟨trivial, fun _ => trivial⟩ fun b => by
        cases b with
        | false => exact ih
        | true => trivial
  have hunlock : AllOps (Quiet (c.proc i).pid) (keyringUnlock args.old) :=
    ⟨trivial, fun _ => trivial⟩
  refine wpe_seq (wpe_quiet_free (allOps_ensure _ _) hf) fun _ w hf => ?_
  refine wpe_seq (wpe_quiet_free (allOps_lift (hexists _)) hf) fun _ w hf => ?_
  refine wpe_seq (wpe_quiet_free (allOps_ensure _ _) hf) fun _ w hf => ?_
  refine wpe_seq (wpe_quiet_free (hunlock.adapt _) hf) fun _ w hf => ?_
  refine wpe_seq ((wpe_adapt ..).2 (wpe_free
    (generateKey_spec (Crowd.Fine.steady _).stable hf _))) ?_
  rintro _ w ⟨rfl, hf⟩
  refine wpe_seq ((wpe_adapt ..).2 (wpe_free
    (getrandom_spec (Crowd.Fine.steady _).stable hf _ _))) ?_
  rintro _ w ⟨rfl, hf⟩
  refine wpe_seq ((wpe_lift ..).2 (commit_concurrent hargs hf)) ?_
  rintro ⟨_ | _, tx⟩ w hr
  · refine wpe_seq ((wpe_lift ..).2 (rollback_concurrent hkey hold hr)) fun r w hf => ?_
    cases r with
    | restored | cleanupFailed => exact hf
    | restoreFailed e =>
      exact wpe_seq ((wpe_lift ..).2 (wp_free (wp_calm (Crowd.Fine.steady _) (eprintln_calm _) hf)))
        fun _ _ hf => hf
  · exact hr

/-- The sealed metadata of a sound host opens to generated keys. -/
theorem finds_metadata : Finds E .metadata (c.Fine E seed) (OpensWithin E c.Generated) := by
  intro h bytes hf hr
  have hr : (h.disk.stat (.main .metadata)).elim (.error .notFound) FileOp.readNode =
      .ok bytes := hr
  cases hn : h.view.files .metadata with
  | none =>
    rw [Disk.stat_of_none (Host.at_eq_none.1 hn)] at hr
    cases hr
  | some n =>
    obtain ⟨b, m, rfl, hopens⟩ := hf.sound.metadata n hn
    rw [Disk.stat_of_file (Host.at_eq_file.1 hn)] at hr
    exact Except.ok.inj hr ▸ hopens

/-- The password is confirmed, with the stake held, or the keyring is rekeyed back to the key that
the recovery blob still opens to. -/
theorem confirmPassword_concurrent {key newPassword : SecretBytes} (hf : c.Fine E seed w.1)
    (hm : c.Mine i w) (hb : c.Backs E (w.1.view.files .recovery) key) :
    wpe (tracked E i) (c.Rely E i) (c.Guarantee E i) (confirmPassword key newPassword)
      (fun _ w => c.Fine E seed w.1 ∧ c.Mine i w) (fun _ w => c.Fine E seed w.1) w := by
  have hverify : wp (tracked E i) (c.Rely E i) (c.Guarantee E i)
      (unlockAndVerify newPassword "restored password").run
      (fun _ w => (c.Fine E seed w.1 ∧ c.Mine i w) ∧ c.Backs E (w.1.view.files .recovery) key) w :=
    wp_post (wp_mine hm (wp_quiet (Crowd.Fine.steady_stake _ _).stable
      (unlockAndVerify_all _ _) ⟨hf, rfl⟩)) fun _ w' ⟨⟨hf, hs⟩, hm⟩ =>
        ⟨⟨hf, hm⟩, by rwa [show w'.1.view.files .recovery = _ from congrArg Prod.snd hs]⟩
  refine wpe_seq ((wpe_lift ..).2 hverify) ?_
  rintro (e | _) w ⟨hfm, hb⟩
  · refine wpe_seq (P := fun _ w => c.Fine E seed w.1) ((wpe_adapt ..).2 (rekey_concurrent
      (P := fun w => (c.Fine E seed w.1 ∧ c.Mine i w) ∧ c.Backs E (w.1.view.files .recovery) key)
      (fun w w' hr ⟨⟨hf, hm⟩, hb⟩ => ?_) (fun h a h' ⟨⟨hf, hm⟩, hb⟩ _ hs => ?_)
      (fun _ _ h => h.1.1) ⟨hfm, hb⟩)) fun _ _ hf => hf
    · obtain ⟨hs, ha⟩ := hr.mine hm
      exact ⟨⟨hf.rely hr, hm.of_stake hs ha⟩,
        by rwa [show w'.1.view.files .recovery = _ from congrArg Prod.snd hs]⟩
    · have hsound : c.Sound E (h.view.rekey key true) := ⟨.inr hb, hf.sound.metadata⟩
      exact ⟨.of_step hs rfl (fun _ => hsound) fun _ => hm.holder,
        show c.Sound E h'.view from hs.view ▸ hsound,
        (congrArg View.seed hs.view).trans hf.seed⟩
  · exact hfm

theorem removeBlobs_concurrent (face : Option String) (hf : c.Fine E seed w.1)
    (hm : c.Mine i w) :
    wpe (tracked E i) (c.Rely E i) (c.Guarantee E i) (removeBlobs E (c.proc i) face)
      (fun _ w => c.Fine E seed w.1) (fun _ w => c.Fine E seed w.1) w := by
  have hblob : ∀ {a : Artifact}, a ≠ .recovery →
      AllOps (CalmOp (c.proc i).pid) (removeBlob (c.proc i) a) :=
    fun ha => (removeFile_calm ha).adapt _
  have hfree : ∀ {x : Io Unit} {w : Host × Option ι}, AllOps (CalmOp (c.proc i).pid) x →
      c.Fine E seed w.1 → wpe (tracked E i) (c.Rely E i) (c.Guarantee E i) x
        (fun _ w => c.Fine E seed w.1) (fun _ w => c.Fine E seed w.1) w :=
    fun hx hf => wpe_free (wpe_calm (Crowd.Fine.steady _) hx hf)
  refine wpe_seq (wpe_calm_held (b := True) (hblob (by simp)) hf fun _ => hm) ?_
  rintro _ w ⟨hf, hm⟩
  refine wpe_seq ((wpe_adapt ..).2 (removeFile_recovery hf (hm trivial))) fun _ w hf => ?_
  refine wpe_seq (hfree (hblob (by simp)) hf) fun _ w hf => ?_
  refine wpe_seq (hfree (hblob (by simp)) hf) fun _ w hf => ?_
  cases face with
  | none => exact hf
  | some username =>
    exact hfree (.bind ((store_remove_calm _ _).adapt _) fun _ => allOps_pure _) hf

/-- Unenrolling among other processes. -/
theorem unenroll_concurrent {args : UnenrollArgs} (hfresh : ∀ k, c.Generated k → ¬ c.Supplied k)
    (hnew : c.Supplied args.newPassword) (hf : c.Fine E seed w.1) :
    wpe (tracked E i) (c.Rely E i) (c.Guarantee E i) (unenroll E (c.proc i) args)
      (fun _ w => c.Fine E seed w.1) (fun _ w => c.Fine E seed w.1) w := by
  refine wpe_seq (wpe_quiet_free (allOps_ensure _ _) hf) fun _ w hf => ?_
  refine wpe_seq (P := fun key w => c.Generated key ∧ c.Fine E seed w.1) (wpe_mono (wpe_free
    (unsealWithPin_finds (Crowd.Fine.steady _).stable (fun _ hf => hf.seed) finds_metadata args.pin
      hf)) (fun key w ⟨⟨b, hb, hk⟩, hf⟩ => ⟨hb _ _ _ hk, hf⟩) fun _ _ hf => hf) ?_
  rintro key w ⟨hkey, hf⟩
  refine wpe_seq (wpe_quiet_free (unlockAndVerify_all _ _) hf) fun _ w hf => ?_
  refine wpe_seq ((wpe_adapt ..).2 (rekey_away (hfresh key hkey) hnew hf)) ?_
  rintro _ w ⟨hf, hm, hb⟩
  refine wpe_seq (confirmPassword_concurrent hf hm hb) ?_
  rintro _ w ⟨hf, hm⟩
  refine wpe_seq ((wpe_lift ..).2
    (wp_calm_held (b := True) (tryRelease_calm _ _) hf fun _ => hm)) ?_
  rintro _ w ⟨hf, hm⟩
  exact (wpe_adapt ..).2 (removeBlobs_concurrent _ hf (hm trivial))

end Programs

/-! ## The cohort -/

/-- Every process of a cohort keeps the host sound. -/
theorem Cohort.job_concurrent {ι : Type} (c : Cohort ι) {E : Primitives} {i : ι} {seed : ℕ}
    {w : Host × Option ι} (hf : c.Fine E seed w.1) :
    wp (tracked E i) (c.Rely E i) (c.Guarantee E i) ((c.job i).call.prog E (c.proc i))
      (fun _ _ => True) w := by
  have hpass : c.Supplied (c.job i).password := .inr ⟨i, rfl⟩
  cases hjob : c.job i with
  | enroll args =>
    have hargs : c.Enrolls args := .inr ⟨i, hjob⟩
    refine (wp_run ..).2 (wpe_seq (P := fun _ _ => True) (wpe_mono (enroll_concurrent
      (c.fresh _ ⟨args, hargs, rfl⟩) (by rwa [hjob] at hpass) hargs hf) (fun _ _ _ => trivial)
      fun _ _ _ => trivial) fun _ _ _ => trivial)
  | unenroll args =>
    exact (wp_run ..).2 (wpe_seq (P := fun _ _ => True) (wpe_mono (unenroll_concurrent c.fresh
      (by rwa [hjob] at hpass) hf) (fun _ _ _ => trivial) fun _ _ _ => trivial)
      fun _ _ _ => trivial)

/-- **No lockout among concurrent processes.** However the operations of any processes that enroll
or unenroll interleave, and whatever faults they meet, but for ambiguous rekeys: as long as no
recovery blob is renamed over another one, the credential is a password that the user supplied, or
the key of an enrollment whose files open to it. -/
theorem noLockout_concurrent (E : Primitives) {ι : Type} [DecidableEq ι] (c : Cohort ι) (h : Host)
    (hsound : c.Sound E h.view) (ps : ι → Prog Op.Res Reply) (h' : Host)
    (hr : PoolReaches (fun _ => machine E freeRecovery)
      (fun i => (c.job i).call.prog E (c.proc i), h) (ps, h')) :
    c.Accessible E h'.view := by
  obtain ⟨a, hr⟩ := hr.aux (fun i => holder i) none
  have hsafe := @PoolReaches.safe _ _ _ _ _ _ _ (fun i => c.Rely E i) (fun i => c.Guarantee E i) _
    (fun w => c.Sound E w.1.view) (fun i _ _ _ => Crowd.Rely.trans) (fun i => Crowd.Rely.refl)
    (fun i j hne _ _ _ hg => hg.rely fun h => hne (c.pid_inj i j h))
    (fun i _ _ hs hg => hg.sound hs)
    _ _ _ _ hsound (fun i => @Cohort.job_concurrent _ c E i h.tpm.seed _ ⟨hsound, rfl⟩) hr
  exact hsafe.1.accessible

namespace Sample

/-- Two enrollments from the same password. -/
def rivals : Cohort Bool where
  proc b := proc (if b then 1 else 2)
  job b := .enroll (if b then enrollArgs password 1 2 else enrollArgs password 3 4)
  passwords p := p = password
  past _ := False
  pid_inj i j h := by cases i <;> cases j <;> simp_all [proc]
  fresh := by
    rintro k ⟨args, hf | ⟨i, hi⟩, rfl⟩ (hp | ⟨j, hp⟩)
    · exact hf
    · exact hf
    · cases i <;> cases hi <;> exact absurd hp (by decide)
    · cases i <;> cases hi <;> cases j <;> exact absurd hp (by decide)

/-- Both enrollments, before they start. -/
def bothEnroll : (Bool → Prog Op.Res Reply) × Host :=
  (fun b => (rivals.job b).call.prog sample (rivals.proc b), fresh)

/-- Both look for files, and the first one enrolls while the second one draws its key and writes its
recovery blob beside the one in place. -/
def apart : List (Bool × ℕ) := [(false, 5), (true, 34), (false, 9), (true, 26)]

theorem apart_admits :
    AdmitsTurns (fun _ => machine sample freeRecovery) .ok apart bothEnroll := by
  decide +kernel

/-- Both look for files, the first one enrolls up to its rekey, the second one puts its own files in
place, and the first one rekeys. -/
def rivalry : (Bool → Prog Op.Res Reply) × Host :=
  takeTurns (fun _ => machine sample noFault) .ok [(false, 5), (true, 34), (false, 20), (true, 1)]
    bothEnroll

theorem sound_fresh : rivals.Sound sample fresh.view := ⟨.inl (.inl rfl), fun _ hn => nomatch hn⟩

end Sample

open Sample in
theorem noLockout_rivals :
    rivals.Accessible sample
      (takeTurns (fun _ => machine sample freeRecovery) .ok apart bothEnroll).2.view :=
  noLockout_concurrent sample rivals fresh sound_fresh _ _ (poolReaches_takeTurns apart_admits .refl)

open Sample in
/-- The second enrollment has replaced the files of the first one, which then rekeys to a key that
no file holds. -/
theorem lockout_rivals : ∃ ps h,
    PoolReaches (fun _ => machine sample noFault)
      (fun b => (rivals.job b).call.prog sample (rivals.proc b), fresh) (ps, h) ∧
    ¬ rivals.Accessible sample h.view := by
  refine ⟨rivalry.1, rivalry.2,
    poolReaches_takeTurns (admitsTurns_of_may (fun _ _ _ => rfl) _ _) .refl, ?_⟩
  have hcred : rivalry.2.view.credential = List.replicate 32 1 := by decide +kernel
  have hrec : recoveryKey rivalry.2.view (List.replicate 32 2) ≠ some (List.replicate 32 1) := by
    decide +kernel
  have hpin : pinKey rivalry.2.view pin ≠ some (List.replicate 32 1) := by decide +kernel
  rintro ((hp | ⟨j, hp⟩) | ⟨args, hf | ⟨i, hi⟩, hc, hfile⟩)
  · exact absurd (hcred.symm.trans hp) (by decide)
  · cases j <;> exact absurd (hp.trans hcred) (by decide)
  · exact hf
  · cases i <;> cases hi
    · exact absurd (hcred.symm.trans hc) (by decide)
    · rcases hfile with ⟨b, m, hb, hk⟩ | ⟨b, m, hb, hk⟩
      · refine hrec ?_
        unfold recoveryKey
        rw [hb]
        exact hk
      · refine hpin ?_
        unfold pinKey
        rw [hb]
        exact hk

end Tess

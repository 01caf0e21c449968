import Tess.Enroll.Outcome
import Tess.Enroll.Sample

/-!
# What a failed enrollment leaves

For three things that a failed enrollment should not leave behind, exactly when it does not: a
keyring that nobody can open, files of its own or without those it replaced, a lockout hierarchy
with an authValue that nobody knows. Each condition is about what the environment did during the
run, which the events of the run record.
-/

namespace Tess

open Files Effects Recovery

/-- The events since `v`. -/
def View.since (v v' : View) : List Event := v'.events.take (v'.events.length - v.events.length)

theorem since_eq {v v' : View} {es : List Event} (h : v'.events = es ++ v.events) :
    v.since v' = es := by
  simp [View.since, h]

section Run

variable {E : Primitives} {proc : Process} {args : EnrollArgs} {h h' : Host}
  {r : Except Error String}

/-- How an enrollment that has returned has ended. -/
theorem enroll_ends (hr : Returns (machine E anyFault) (enroll E proc args).run h r h') :
    EnrollEnds E anyFault args h.view r h'.view :=
  Returns.post (Q := fun r h' => EnrollEnds E anyFault args h.view r h'.view)
    ((wp_run ..).2 (enroll_spec rfl)) hr

end Run

section Rollback

variable {may : Host → Op → Fault → Prop} {tx : Tx} {old : SecretBytes} {face : Option String}
  {v v' : View} {r : Rollback}

/-- The events of a rollback are those of undoing the credential and the lockout hierarchy. -/
theorem RolledBack.events (h : RolledBack may tx old face v r v') :
    ∃ es, v'.events = es ++ v.events ∧ ∀ e ∈ es,
      (∃ key, tx.newKey = some key ∧ e = .rekeyLate key old) ∨
      ∃ derived, tx.lockoutAuth = some derived ∧
        (e = .authLate derived [] ∨ e = .authRefused derived []) := by
  have hundone : ∀ {v'}, LockoutUndone may tx.lockoutAuth (tx.restored old v) v' →
      ∃ es, v'.events = es ++ v.events ∧ ∀ e ∈ es, ∃ derived, tx.lockoutAuth = some derived ∧
        (e = .authLate derived [] ∨ e = .authRefused derived []) := by
    intro v' hl
    have hrestored := tx.restored_events old v
    cases ha : tx.lockoutAuth with
    | none =>
      rw [ha] at hl
      obtain rfl := hl
      exact ⟨[], hrestored, by simp⟩
    | some derived =>
      rw [ha] at hl
      cases hl with
      | released | marked => exact ⟨[], hrestored, by simp⟩
      | late => exact ⟨[_], congrArg _ hrestored, fun e he =>
          ⟨derived, rfl, .inl (List.mem_singleton.mp he)⟩⟩
      | refused => exact ⟨[_], congrArg _ hrestored, fun e he =>
          ⟨derived, rfl, .inr (List.mem_singleton.mp he)⟩⟩
  cases h with
  | restored hl | cleanupFailed e hl hg =>
    obtain ⟨es, hes, hmem⟩ := hundone hl
    exact ⟨es, hes, fun e he => .inr (hmem e he)⟩
  | restoreFailed e hk => exact ⟨[], rfl, by simp⟩
  | restoredLate e hk hc => exact ⟨[_], rfl, fun e he =>
      .inl ⟨_, hk, List.mem_singleton.mp he⟩⟩

end Rollback

/-! ## The credential -/

/-- The credential can be opened after a run: it is the old one, or the generated key with both
files in place and the recovery secret disclosed by the run. -/
def NotStranded (E : Primitives) (args : EnrollArgs) (v : View) (r : Except Error String)
    (v' : View) : Prop :=
  v'.credential = args.old ∨
    v'.credential = args.draws.key ∧
    (∃ b m, v'.files .recovery = some (.file b m) ∧
      unwrapBytes E b args.draws.recoverySecret = some args.draws.key) ∧
    (∃ b m, v'.files .metadata = some (.file b m) ∧
      unsealBytes E v'.seed b args.pin = some args.draws.key) ∧
    (r = .ok (encode args.draws.recoverySecret) ∨
      v.revealed (encode args.draws.recoverySecret) < v'.revealed (encode args.draws.recoverySecret))

section Stranding

variable {E : Primitives} {may : Host → Op → Fault → Prop} {args : EnrollArgs} {v v₁ v₂ v' : View}
  {done rest : List Change} {tx : Tx}
  {r : Rollback}

theorem notStranded_after_plan {res : Except Error String}
    (hv : ∀ c ∈ plan E args v, Valid E args v.seed c)
    (hv' : v' = v.after (plan E args v) ∨
      v' = (v.after (plan E args v)).reveal (encode args.draws.recoverySecret))
    (hd : res = .ok (encode args.draws.recoverySecret) ∨
      v.revealed (encode args.draws.recoverySecret) < v'.revealed (encode args.draws.recoverySecret)) :
    NotStranded E args v res v' := by
  obtain ⟨b, hb, hblob⟩ := after_plan_recovery hv
  obtain ⟨m, hm, hseal⟩ := after_plan_metadata hv
  have hopens := (seals_sealedBytes hseal).opens
  rw [← View.after_seed v (plan E args v)] at hopens
  have hcred := (@after_plan_credential E args v).1
  rcases hv' with rfl | rfl <;>
    exact .inr ⟨hcred, ⟨b, _, hb, (wraps_blobBytes hblob).opens⟩, ⟨m, _, hm, hopens⟩, hd⟩

/-- Rolling back leaves the recovery secret as it was, unless the credential is not restored. -/
theorem RolledBack.revealed {old : SecretBytes} {face : Option String}
    (h : RolledBack may tx old face v r v') : v'.revealed = v.revealed := by
  cases h with
  | restored hl | cleanupFailed e hl hg =>
    exact hl.frame.revealed.trans (tx.restored_revealed old v)
  | restoreFailed | restoredLate => rfl

theorem Stopped.revealed (hs : Stopped E args v done rest v₁ tx) : v₁.revealed = v.revealed := by
  rcases hs.view with rfl | ⟨c, rest', -, -, hspoil⟩
  · exact View.after_revealed ..
  · cases c with
    | place | rekey =>
      obtain rfl := hspoil
      exact View.after_revealed ..
    | bind => rcases hspoil with rfl | rfl <;> exact View.after_revealed ..

theorem failed_notStranded_iff {err : Error} (hc : v.credential = args.old)
    (hs : Stopped E args v done rest v₁ tx) (hr : RolledBack may tx args.old args.user v₁ r v₂) :
    NotStranded E args v (.error err) (r.disclose (encode args.draws.recoverySecret) v₂) ↔
      args.draws.key = args.old ∨ .rekeyLate args.old args.draws.key ∉
        v.since (r.disclose (encode args.draws.recoverySecret) v₂) := by
  obtain ⟨es, hes, hcases⟩ := hs.credential
  obtain ⟨es', hes', hmem⟩ := hr.events
  have hsince : v.since (r.disclose (encode args.draws.recoverySecret) v₂) = es' ++ es :=
    since_eq (by rw [Rollback.disclose_events, hes', hes, List.append_assoc])
  -- An event of the rollback is the forward one only when the two keys are the same.
  have hback : .rekeyLate args.old args.draws.key ∈ es' → args.draws.key = args.old := fun h => by
    rcases hmem _ h with ⟨key, -, he⟩ | ⟨derived, -, he | he⟩
    · exact (Event.rekeyLate.inj he).2
    · cases he
    · cases he
  rw [hsince]
  rcases hcases with ⟨hn, hc₁, -, hnone⟩ | ⟨hn, hc₁, -, hevent⟩ | ⟨hn, rfl, hvalid, hnone⟩
  · have hcred : v₂.credential = args.old := by
      rcases hr.rollingBack.credential.2 with rfl | ⟨hc₂, -⟩ | ⟨key, hk, -⟩
      · exact hc₁.trans hc
      · rw [hc₂, Tx.restored, hn]
        exact hc₁.trans hc
      · rw [hn] at hk
        cases hk
    refine iff_of_true (.inl (by simpa using hcred)) ?_
    by_cases hk : args.draws.key = args.old
    · exact .inl hk
    · exact .inr (by simpa [hnone] using fun h => hk (hback h))
  · have hcred : v₂.credential = args.draws.key := by
      rcases hr.rollingBack.credential.2 with rfl | ⟨hc₂, -⟩ | ⟨key, hk, -⟩
      · exact hc₁
      · rw [hc₂, Tx.restored, hn]
        exact hc₁
      · rw [hn] at hk
        cases hk
    have hquiet : (r.disclose (encode args.draws.recoverySecret) v₂).revealed = v.revealed := by
      cases hr with
      | restoreFailed e hk | restoredLate e hk =>
        rw [hn] at hk
        cases hk
      | restored hl =>
        exact (@RolledBack.restored _ _ _ args.user _ _ hl).revealed.trans hs.revealed
      | cleanupFailed e hl hg =>
        exact (@RolledBack.cleanupFailed _ _ _ args.user _ _ _ e hl hg).revealed.trans hs.revealed
    constructor
    · rintro (hold | ⟨-, -, -, hd | hd⟩)
      · exact .inl (by rw [Rollback.disclose_credential, hcred] at hold; exact hold)
      · cases hd
      · rw [hquiet] at hd
        exact absurd hd (lt_irrefl _)
    · rintro (hk | hevent')
      · exact .inl (by rw [Rollback.disclose_credential, hcred, hk])
      · exact absurd (List.mem_append_right _ hevent) hevent'
  · have hright : args.draws.key = args.old ∨ .rekeyLate args.old args.draws.key ∉ es' ++ es := by
      by_cases hk : args.draws.key = args.old
      · exact .inl hk
      · exact .inr (by simpa [hnone] using fun h => hk (hback h))
    refine iff_of_true ?_ hright
    cases hr with
    | restored hl | cleanupFailed e hl hg =>
      exact .inl (hl.frame.credential.trans (by rw [Tx.restored, hn]; rfl))
    | restoreFailed e hk =>
      refine notStranded_after_plan hvalid (.inr rfl) (.inr ?_)
      simp [Rollback.disclose, View.reveal]
    | restoredLate e hk hck => exact .inl rfl

end Stranding

/-- **The keyring is not stranded** by an enrollment exactly when it started from the old credential
and its rekey did not take effect while reporting an error. -/
theorem notStranded_iff (E : Primitives) (proc : Process) (args : EnrollArgs) (h h' : Host)
    (r : Except Error String)
    (hr : Returns (machine E anyFault) (enroll E proc args).run h r h') :
    NotStranded E args h.view r h'.view ↔ h.view.credential = args.old ∧
      (args.draws.key = args.old ∨
        .rekeyLate args.old args.draws.key ∉ h.view.since h'.view) := by
  have hends := enroll_ends hr
  generalize h.view = v at hends ⊢
  generalize h'.view = v' at hends ⊢
  cases hends with
  | refused =>
    have hsince : v.since v = [] := since_eq rfl
    constructor
    · rintro (hc | ⟨-, -, -, hd | hd⟩)
      · exact ⟨hc, .inr (by simp [hsince])⟩
      · cases hd
      · exact absurd hd (lt_irrefl _)
    · exact fun ⟨hc, _⟩ => .inl hc
  | enrolled hstart hvalid =>
    obtain ⟨placed, hev, hmem⟩ := View.after_events (v := v) (nodup_targets_plan E args v)
    refine iff_of_true (notStranded_after_plan hvalid (.inl rfl) (.inl rfl))
      ⟨hstart.credential, .inr fun h => ?_⟩
    rw [since_eq hev] at h
    obtain ⟨_, _, _, h⟩ := (hmem _).1 h
    cases h
  | failed err hstart hs hrb =>
    rw [failed_notStranded_iff hstart.credential hs hrb]
    exact ⟨fun h => ⟨hstart.credential, h⟩, And.right⟩

open Sample in
theorem notStranded_iff_enrolled :
    NotStranded sample (enrollArgs password 1 2) fresh.view
      (eval (machine sample anyFault) .ok (enroll sample (proc 1) (enrollArgs password 1 2)).run
        fresh).1
      (eval (machine sample anyFault) .ok (enroll sample (proc 1) (enrollArgs password 1 2)).run
        fresh).2.view :=
  (notStranded_iff _ _ _ _ _ _ (returns_eval (fun _ _ => trivial) _ _)).2
    ⟨rfl, .inr (by decide +kernel)⟩

open Sample in
/-- The rekey takes effect and its reply is lost: the rollback removes the files of the key that is
now the credential. -/
theorem stranded_lateRekey : ∃ r h',
    Returns (machine sample anyFault) (enroll sample (proc 1) (enrollArgs password 1 2)).run fresh r
      h' ∧ ¬ NotStranded sample (enrollArgs password 1 2) fresh.view r h'.view := by
  obtain ⟨r, hr⟩ := Option.isSome_iff_exists.1
    (by decide +kernel : (enrollRun (enrollArgs password 1 2) (failing 34 .late)).1.returned.isSome)
  refine ⟨r, _, enrollRun_returns hr, ?_⟩
  have hc : (enrollRun (enrollArgs password 1 2) (failing 34 .late)).2.view.credential ≠
      password := by decide +kernel
  have hf : (enrollRun (enrollArgs password 1 2) (failing 34 .late)).2.view.files .recovery =
      none := by decide +kernel
  rintro (h | ⟨-, ⟨b, m, hb, -⟩, -⟩)
  · exact hc h
  · cases hf.symm.trans hb

/-! ## The files -/

/-- The files of an enrollment and of its user. -/
def EnrollArgs.ownFiles (args : EnrollArgs) : List Artifact :=
  [.recovery, .metadata, .metadataFace, .faceKey] ++ (args.user.map Artifact.template).toList

/-- The files and the credential are those before the enrollment. -/
structure AsBefore (args : EnrollArgs) (v v' : View) : Prop where
  files : ∀ a ∈ args.ownFiles, v'.files a = v.files a
  credential : v'.credential = args.old

/-- What a rollback cannot see: a rename replaced a file, or a rename or a rekey took effect in a
step that failed. -/
structure Unnoticed (args : EnrollArgs) (es : List Event) : Prop where
  /-- A file that was renamed into place and whose directory was synced replaced nothing. -/
  fresh : ∀ a was now, .placed a was now ∈ es → a ≠ .lockoutOwned → .unsynced a ∉ es → was = none
  /-- A file that was renamed into place and whose directory was not synced replaced its equal. -/
  same : ∀ a was now, .placed a was now ∈ es → a ≠ .lockoutOwned → .unsynced a ∈ es → was = now
  credential : args.draws.key = args.old ∨ .rekeyLate args.old args.draws.key ∉ es

section Files

variable {E : Primitives} {may : Host → Op → Fault → Prop} {args : EnrollArgs} {v v₁ v₂ : View}
  {done rest : List Change} {tx : Tx}

theorem mem_ownFiles {a : Artifact} {b : Bytes} (h : Change.place a b ∈ plan E args v)
    (ha : a ≠ .lockoutOwned) : a ∈ args.ownFiles := by
  cases a with
  | template u => simp [EnrollArgs.ownFiles, EnrollArgs.user, mem_plan_template h]
  | lockoutOwned => exact absurd rfl ha
  | _ => simp [EnrollArgs.ownFiles]

theorem not_lockoutOwned_of_mem_ownFiles {a : Artifact} (h : a ∈ args.ownFiles) :
    a ≠ .lockoutOwned := by
  rintro rfl
  simp [EnrollArgs.ownFiles] at h

/-- The view after a rollback that restored everything it knew of. -/
theorem restored_files (hs : Stopped E args v done rest v₁ tx)
    (hl : LockoutUndone may tx.lockoutAuth (tx.restored args.old v₁) v₂) {a : Artifact}
    (ha : a ≠ .lockoutOwned) :
    (v₂.removeAll (tx.written args.user)).files a =
      if Target.file a ∈ targets done then none else v₁.files a := by
  rw [View.files_removeAll, hl.frame.files a ha, tx.restored_files]
  refine if_congr ?_ rfl rfl
  exact hs.mem_written.trans (and_iff_right ha)

/-- Without ambiguity in the rekey, a rollback that restored everything restored the credential. -/
theorem restored_credential_iff {err : Error} (hc : v.credential = args.old)
    (hs : Stopped E args v done rest v₁ tx)
    (hr : RolledBack may tx args.old args.user v₁ .restored v₂) :
    v₂.credential = args.old ↔
      args.draws.key = args.old ∨ .rekeyLate args.old args.draws.key ∉ v.since v₂ := by
  refine Iff.trans ⟨.inl, ?_⟩ (@failed_notStranded_iff _ _ _ _ _ _ _ _ _ _ err hc hs hr)
  rintro (h | ⟨-, -, -, hd | hd⟩)
  · exact h
  · cases hd
  · exact absurd (hd.trans_eq (congrFun (hr.revealed.trans hs.revealed) _)) (lt_irrefl _)

theorem asBefore_of_restored_iff (hc : v.credential = args.old)
    (hs : Stopped E args v done rest v₁ tx)
    (hr : RolledBack may tx args.old args.user v₁ .restored v₂) :
    AsBefore args v v₂ ↔ Unnoticed args (v.since v₂) := by
  obtain ⟨es, late, hp⟩ := hs.placements
  obtain ⟨es', hes', hback⟩ := hr.events
  have hsince : v.since v₂ = es' ++ es := since_eq (by rw [hes', hp.events, List.append_assoc])
  have hcred := @restored_credential_iff _ _ _ _ _ _ _ _ _ [] hc hs hr
  rw [hsince] at hcred ⊢
  have hplaced : ∀ a was now, Event.placed a was now ∈ es' ++ es ↔ Event.placed a was now ∈ es :=
    fun a was now => List.mem_append.trans (or_iff_right fun h => by
      rcases hback _ h with ⟨_, _, h⟩ | ⟨_, _, h | h⟩ <;> cases h)
  have hunsynced : ∀ a, Event.unsynced a ∈ es' ++ es ↔ ∃ b, late = some (a, b) := fun a =>
    (List.mem_append.trans (or_iff_right fun h => by
      rcases hback _ h with ⟨_, _, h⟩ | ⟨_, _, h | h⟩ <;> cases h)).trans (hp.unsynced a)
  -- What is at each name: nothing where a file was recorded, a late file, or what was there.
  have hdone : ∀ a b, a ≠ .lockoutOwned → Change.place a b ∈ done → v₂.files a = none := by
    intro a b ha hb
    cases hr with
    | restored hl => rw [restored_files hs hl ha, if_pos (mem_targets_file.2 ⟨b, hb⟩)]
  have hlate : ∀ a b, a ≠ .lockoutOwned → late = some (a, b) →
      v₂.files a = some (.file b 0o600) := by
    intro a b ha hb
    obtain ⟨hnot, -, -, hfile⟩ := hp.spoiled a b hb
    cases hr with
    | restored hl => rw [restored_files hs hl ha, if_neg hnot, hfile]
  have hother : ∀ a, a ≠ .lockoutOwned → (∀ b, Change.place a b ∉ done) →
      (∀ b, late ≠ some (a, b)) → v₂.files a = v.files a := by
    intro a ha hnot hnl
    have hnot : Target.file a ∉ targets done := fun h =>
      have ⟨b, hb⟩ := mem_targets_file.1 h
      hnot b hb
    cases hr with
    | restored hl =>
      rw [restored_files hs hl ha, if_neg hnot, hp.others a hnl, View.after_files_of_not_mem hnot]
  constructor
  · refine fun h => ⟨fun a was now he ha hu => ?_, fun a was now he ha hu => ?_,
      hcred.1 h.credential⟩
    · obtain ⟨rfl, b, rfl, hb | hb⟩ := (hp.placed a was now).1 ((hplaced ..).1 he)
      · exact (h.files a (mem_ownFiles (hs.mem_plan hb) ha)).symm.trans (hdone a b ha hb)
      · exact absurd ((hunsynced a).2 ⟨b, hb⟩) hu
    · obtain ⟨b', hb'⟩ := (hunsynced a).1 hu
      obtain ⟨hnot, hmem, -⟩ := hp.spoiled a b' hb'
      obtain ⟨rfl, b, rfl, hb | hb⟩ := (hp.placed a was now).1 ((hplaced ..).1 he)
      · exact absurd (mem_targets_file.2 ⟨b, hb⟩) hnot
      · exact (h.files a (mem_ownFiles hmem ha)).symm.trans (hlate a b ha hb)
  · refine fun h => ⟨fun a hmem => ?_, hcred.2 h.credential⟩
    have ha := not_lockoutOwned_of_mem_ownFiles hmem
    by_cases hd : ∃ b, Change.place a b ∈ done
    · obtain ⟨b, hb⟩ := hd
      have hu : Event.unsynced a ∉ es' ++ es := fun hu =>
        have ⟨b', hb'⟩ := (hunsynced a).1 hu
        (hp.spoiled a b' hb').1 (mem_targets_file.2 ⟨b, hb⟩)
      have he := (hplaced ..).2 ((hp.placed a _ _).2 ⟨rfl, b, rfl, .inl hb⟩)
      exact (hdone a b ha hb).trans (h.fresh a _ _ he ha hu).symm
    · by_cases hl : ∃ b, late = some (a, b)
      · obtain ⟨b, hb⟩ := hl
        have he := (hplaced ..).2 ((hp.placed a _ _).2 ⟨rfl, b, rfl, .inr hb⟩)
        exact (hlate a b ha hb).trans (h.same a _ _ he ha ((hunsynced a).2 ⟨b, hb⟩)).symm
      · exact hother a ha (fun b hb => hd ⟨b, hb⟩) fun b hb => hl ⟨b, hb⟩

end Files

/-- **Atomicity on disk**: an enrollment that failed and reports a rollback left the files and the
credential as they were exactly when nothing went unnoticed. -/
theorem asBefore_iff (E : Primitives) (proc : Process) (args : EnrollArgs) (h h' : Host)
    (e : Error) (hr : Returns (machine E anyFault) (enroll E proc args).run h (.error e) h')
    (he : e.head? = some restoredText) :
    AsBefore args h.view h'.view ↔ Unnoticed args (h.view.since h'.view) := by
  have hends := enroll_ends hr
  generalize h.view = v at hends ⊢
  generalize h'.view = v' at hends ⊢
  cases hends with
  | refused hne => exact absurd he hne
  | @failed _ _ _ _ _ r err hstart hs hrb =>
    obtain rfl := Rollback.text_eq_restoredText.1 (Option.some.inj he)
    exact asBefore_of_restored_iff hstart.credential hs hrb

/-- The event is a rename onto a name that was free. -/
def Event.isFresh : Event → Bool
  | .placed _ none _ => true
  | _ => false

theorem unnoticed_of_fresh {args : EnrollArgs} {es : List Event}
    (h : ∀ e ∈ es, e.isFresh = true) : Unnoticed args es where
  fresh a was now he _ _ := by
    cases was with
    | none => rfl
    | some x => cases h _ he
  same a was now _ _ hu := by cases h _ hu
  credential := .inr fun hlate => by cases h _ hlate

open Sample in
/-- The rekey fails, when all the files have been placed. -/
theorem asBefore_iff_placed : ∃ e h',
    Returns (machine sample anyFault) (enroll sample (proc 1) (enrollArgs password 1 2)).run fresh
      (.error e) h' ∧ fresh.view.since h'.view ≠ [] ∧
      AsBefore (enrollArgs password 1 2) fresh.view h'.view := by
  obtain ⟨e, hr, he⟩ := failedWith_iff.1 (by decide +kernel :
    failedWith restoredText (enrollRun (enrollArgs password 1 2) (failing 37 .fail)).1 = true)
  have hplaced : fresh.view.since (enrollRun (enrollArgs password 1 2) (failing 37 .fail)).2.view ≠
      [] := by decide +kernel
  have hfresh : ∀ e ∈ fresh.view.since
      (enrollRun (enrollArgs password 1 2) (failing 37 .fail)).2.view, e.isFresh = true := by
    decide +kernel
  exact ⟨e, _, enrollRun_returns hr, hplaced,
    (asBefore_iff _ _ _ _ _ e (enrollRun_returns hr) he).2 (unnoticed_of_fresh hfresh)⟩

open Sample in
/-- The directory of the recovery blob is not synced: the blob is not recorded, and stays. -/
theorem leftover_unsynced : ∃ e h',
    Returns (machine sample anyFault) (enroll sample (proc 1) (enrollArgs password 1 2)).run fresh
      (.error e) h' ∧ e.head? = some restoredText ∧
      ¬ AsBefore (enrollArgs password 1 2) fresh.view h'.view := by
  obtain ⟨e, hr, he⟩ := failedWith_iff.1 (by decide +kernel :
    failedWith restoredText (enrollRun (enrollArgs password 1 2) (failing 15 .fail)).1 = true)
  refine ⟨e, _, enrollRun_returns hr, he, fun h => ?_⟩
  have hf : (enrollRun (enrollArgs password 1 2) (failing 15 .fail)).2.view.files .recovery ≠
      none := by decide +kernel
  exact hf (h.files .recovery (by decide +kernel))

/-! ## The lockout hierarchy -/

/-- A lockout hierarchy that the run left bound is bound to the recovery secret, which the run has
disclosed, and is marked as owned. -/
def NotOrphaned (E : Primitives) (args : EnrollArgs) (v : View) (r : Except Error String)
    (v' : View) : Prop :=
  v.lockoutAuth = [] → v'.lockoutAuth ≠ [] →
    v'.lockoutAuth = lockoutAuthOf E args.draws.recoverySecret ∧
    (r = .ok (encode args.draws.recoverySecret) ∨
      v.revealed (encode args.draws.recoverySecret) <
        v'.revealed (encode args.draws.recoverySecret)) ∧
    ∃ b m, v'.files .lockoutOwned = some (.file b m)

section Orphans

variable {E : Primitives} {may : Host → Op → Fault → Prop} {args : EnrollArgs} {v v₁ v₂ : View}
  {done rest : List Change} {tx : Tx}
  {r : Rollback}

/-- What a rollback does to a lockout hierarchy that was bound and recorded. -/
theorem bound_notOrphaned_iff {err : Error} {es : List Event}
    (hs : Stopped E args v done rest v₁ tx)
    (hr : RolledBack may tx args.old args.user v₁ r v₂) (hfree : v.lockoutAuth = [])
    (hsome : tx.lockoutAuth = some (lockoutAuthOf E args.draws.recoverySecret))
    (hheld : v₁.lockoutAuth = lockoutAuthOf E args.draws.recoverySecret)
    (hes : v₂.events = es ++ v₁.events) :
    NotOrphaned E args v (.error err) (r.disclose (encode args.draws.recoverySecret) v₂) ↔
      .authRefused (lockoutAuthOf E args.draws.recoverySecret) [] ∉ es := by
  have hne := lockoutAuthOf_ne_nil E args.draws.recoverySecret
  have hrestored := tx.restored_events args.old v₁
  -- A rollback that got as far as the lockout hierarchy discloses nothing.
  have hundone : ∀ {v' : View} {gone},
      LockoutUndone may tx.lockoutAuth (tx.restored args.old v₁) v' →
      (v'.removeAll gone).events = es ++ v₁.events →
      ((v'.removeAll gone).lockoutAuth = [] ↔
        .authRefused (lockoutAuthOf E args.draws.recoverySecret) [] ∉ es) := by
    intro v' gone hl hev
    rw [hsome] at hl
    cases hl with
    | released | marked =>
      obtain rfl : es = [] := List.append_cancel_right (hev.symm.trans hrestored)
      exact iff_of_true rfl (by simp)
    | late =>
      obtain rfl : es = [_] := @List.append_cancel_right _ _ v₁.events _ (hev.symm.trans
        (congrArg (List.cons _) hrestored))
      exact iff_of_true rfl (by simp)
    | refused =>
      obtain rfl : es = [_] := @List.append_cancel_right _ _ v₁.events _ (hev.symm.trans
        (congrArg (List.cons _) hrestored))
      refine iff_of_false (fun h => hne ?_) (by simp)
      exact (hheld.symm.trans (tx.restored_lockoutAuth args.old v₁).symm).trans h
  -- Without disclosure, nothing may be left bound.
  have hquiet : ∀ {v' : View}, v'.revealed = v.revealed →
      (NotOrphaned E args v (.error err) v' ↔ v'.lockoutAuth = []) := by
    intro v' hrev
    refine ⟨fun h => by_contra fun hb => ?_, fun h _ hb => absurd h hb⟩
    rcases (h hfree hb).2.1 with hd | hd
    · cases hd
    · exact absurd (hd.trans_eq (congrFun hrev _)) (lt_irrefl _)
  -- A rollback that could not put the credential back leaves everything, and discloses.
  have hleft : ∀ {v' : View} {key}, tx.newKey = some key → v'.lockoutAuth = v₁.lockoutAuth →
      v'.files = v₁.files → v'.revealed = v₁.revealed →
      NotOrphaned E args v (.error err) (v'.reveal (encode args.draws.recoverySecret)) := by
    intro v' key hk hauth hfiles hrev _ _
    refine ⟨hauth.trans hheld, .inr ?_, ?_⟩
    · simp [View.reveal, hrev, hs.revealed]
    · exact ⟨[], 0o600, by
        rw [← (@after_plan_lockout E args _ hfree).2, ← (hs.of_newKey hk).2, ← hfiles]
        rfl⟩
  cases hr with
  | restored hl =>
    exact (hquiet ((@RolledBack.restored _ _ _ args.user _ _ hl).revealed.trans hs.revealed)).trans
      (hundone hl hes)
  | cleanupFailed e hl hg =>
    exact (hquiet ((@RolledBack.cleanupFailed _ _ _ args.user _ _ _ e hl hg).revealed.trans
      hs.revealed)).trans (hundone hl hes)
  | restoreFailed e hk =>
    obtain rfl : es = [] := List.append_cancel_right hes.symm
    exact iff_of_true (hleft hk rfl rfl rfl) (by simp)
  | restoredLate e hk hc =>
    obtain rfl : es = [_] := @List.append_cancel_right _ _ v₁.events _ hes.symm
    exact iff_of_true (hleft hk rfl rfl rfl) (by simp)

/-- A rollback of a lockout hierarchy that is not recorded leaves it as it is. -/
theorem RolledBack.unbound {old : SecretBytes} {face : Option String}
    (h : RolledBack may tx old face v r v₂) (hn : tx.lockoutAuth = none) :
    v₂.lockoutAuth = v.lockoutAuth := by
  cases h with
  | restored hl | cleanupFailed e hl hg =>
    rw [hn] at hl
    obtain rfl := hl
    exact tx.restored_lockoutAuth old v
  | restoreFailed | restoredLate => rfl

theorem failed_notOrphaned_iff {err : Error} (hs : Stopped E args v done rest v₁ tx)
    (hr : RolledBack may tx args.old args.user v₁ r v₂) :
    NotOrphaned E args v (.error err) (r.disclose (encode args.draws.recoverySecret) v₂) ↔
      .authLate [] (lockoutAuthOf E args.draws.recoverySecret) ∉
        v.since (r.disclose (encode args.draws.recoverySecret) v₂) ∧
      .authRefused (lockoutAuthOf E args.draws.recoverySecret) [] ∉
        v.since (r.disclose (encode args.draws.recoverySecret) v₂) := by
  have hne := lockoutAuthOf_ne_nil E args.draws.recoverySecret
  obtain ⟨es, hes, hrefused, hcases⟩ := hs.lockout
  obtain ⟨es', hes', hmem⟩ := hr.events
  rw [@since_eq _ _ (es' ++ es) (by rw [Rollback.disclose_events, hes', hes, List.append_assoc])]
  -- The rollback changes the lockout hierarchy only when it is recorded, and never from empty.
  have hlate : Event.authLate [] (lockoutAuthOf E args.draws.recoverySecret) ∉ es' := fun h => by
    rcases hmem _ h with ⟨_, _, h⟩ | ⟨_, _, h | h⟩
    · cases h
    · exact hne (Event.authLate.inj h).2
    · cases h
  simp only [List.mem_append, hlate, hrefused _ hne, false_or, or_false]
  rcases hcases with ⟨hn, hkept, hfwd⟩ | ⟨hn, hfree, hheld, hfwd⟩ | ⟨hsome, hfree, hheld, hfwd⟩
  · refine iff_of_true (fun hempty hb => absurd ?_ hb) ⟨hfwd _, fun h => ?_⟩
    · rw [Rollback.disclose_lockoutAuth, hr.unbound hn, hkept, hempty]
    · rcases hmem _ h with ⟨_, _, h⟩ | ⟨_, hd, -⟩
      · cases h
      · rw [hn] at hd
        cases hd
  · refine iff_of_false (fun h => ?_) fun h => h.1 hfwd
    have hk : tx.newKey = none := by
      obtain ⟨-, -, ⟨hk, -⟩ | ⟨hk, -⟩ | ⟨-, hplan, -⟩⟩ := hs.credential
      · exact hk
      · exact hk
      · obtain ⟨placed, hplaced, hall⟩ := View.after_events (v := v) (nodup_targets_plan E args v)
        rw [← hplan, hes] at hplaced
        obtain ⟨_, _, _, he⟩ := (hall _).1 (List.append_cancel_right hplaced ▸ hfwd)
        cases he
    have hbound := (congrArg (· ≠ []) ((hr.unbound hn).trans hheld)).mpr hne
    rcases (h hfree (by rwa [Rollback.disclose_lockoutAuth])).2.1 with hd | hd
    · cases hd
    · refine absurd (hd.trans_eq ?_) (lt_irrefl _)
      cases r with
      | restored | cleanupFailed => exact congrFun (hr.revealed.trans hs.revealed) _
      | restoreFailed e =>
        cases hr with
        | restoreFailed e hk' | restoredLate e hk' =>
          rw [hk] at hk'
          cases hk'
  · rw [bound_notOrphaned_iff hs hr hfree hsome hheld hes']
    exact (and_iff_right (hfwd _)).symm

end Orphans

/-- **No orphaned authValue**: an enrollment leaves the lockout hierarchy free, or bound, marked and
with its secret disclosed, exactly when binding it did not take effect while reporting an error, and
restoring it to empty was not refused. -/
theorem notOrphaned_iff (E : Primitives) (proc : Process) (args : EnrollArgs) (h h' : Host)
    (r : Except Error String)
    (hr : Returns (machine E anyFault) (enroll E proc args).run h r h') :
    NotOrphaned E args h.view r h'.view ↔
      .authLate [] (lockoutAuthOf E args.draws.recoverySecret) ∉ h.view.since h'.view ∧
      .authRefused (lockoutAuthOf E args.draws.recoverySecret) [] ∉ h.view.since h'.view := by
  have hends := enroll_ends hr
  generalize h.view = v at hends ⊢
  generalize h'.view = v' at hends ⊢
  cases hends with
  | refused =>
    have hsince : v.since v = [] := since_eq rfl
    exact iff_of_true (fun hempty hb => absurd hempty hb) (by simp [hsince])
  | enrolled hstart hvalid =>
    obtain ⟨placed, hev, hmem⟩ := View.after_events (v := v) (nodup_targets_plan E args v)
    rw [since_eq hev]
    refine iff_of_true (fun hempty _ => ?_) ⟨fun h => ?_, fun h => ?_⟩
    · obtain ⟨hauth, hmark⟩ := @after_plan_lockout E args _ hempty
      exact ⟨hauth, .inl rfl, _, _, hmark⟩
    · obtain ⟨_, _, _, h⟩ := (hmem _).1 h
      cases h
    · obtain ⟨_, _, _, h⟩ := (hmem _).1 h
      cases h
  | failed err hstart hs hrb => exact failed_notOrphaned_iff hs hrb

open Sample in
theorem notOrphaned_iff_enrolled :
    NotOrphaned sample (enrollArgs password 1 2) fresh.view
      (eval (machine sample anyFault) .ok (enroll sample (proc 1) (enrollArgs password 1 2)).run
        fresh).1
      (eval (machine sample anyFault) .ok (enroll sample (proc 1) (enrollArgs password 1 2)).run
        fresh).2.view :=
  (notOrphaned_iff _ _ _ _ _ _ (returns_eval (fun _ _ => trivial) _ _)).2
    ⟨by decide +kernel, by decide +kernel⟩

open Sample in
/-- Binding the hierarchy takes effect and the reply is lost: nobody learns the authValue. -/
theorem orphaned_lateBinding : ∃ r h',
    Returns (machine sample anyFault) (enroll sample (proc 1) (enrollArgs password 1 2)).run fresh r
      h' ∧ ¬ NotOrphaned sample (enrollArgs password 1 2) fresh.view r h'.view := by
  obtain ⟨r, hr⟩ := Option.isSome_iff_exists.1
    (by decide +kernel : (enrollRun (enrollArgs password 1 2) (failing 26 .late)).1.returned.isSome)
  refine ⟨r, _, enrollRun_returns hr, fun h => ?_⟩
  have hauth :
      (enrollRun (enrollArgs password 1 2) (failing 26 .late)).2.view.lockoutAuth ≠ [] := by
    decide +kernel
  have hmark : (enrollRun (enrollArgs password 1 2) (failing 26 .late)).2.view.files
      .lockoutOwned = none := by decide +kernel
  obtain ⟨-, -, b, m, hb⟩ := h rfl hauth
  cases hmark.symm.trans hb

end Tess

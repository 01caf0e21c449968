import Tess.Lifecycle.KeyAgreement

/-!
# Authorizations against the lockout hierarchy

tess authorizes against the TPM's lockout hierarchy when it binds it, when it releases it and when it
resets a hard lockout. The marker file says that the authValue is the one of the recovery secret, and
it is trusted across calls: so it has to be gone before the next enrollment, to go whenever the
authValue is given up, and to be there when a hard lockout is reset. `settled` and `unmarked` say
exactly this of a session, and then every value presented is the one that is held.
-/

namespace Tess

open Files Effects Recovery

/-- The recovery secret that the latest enrollment to succeed has returned. -/
def latestSecret : History Call Reply → Option SecretBytes
  | [] => none
  | (.enroll args, some (.ok _)) :: _ => some args.draws.recoverySecret
  | _ :: hist => latestSecret hist

/-- The recovery secrets supplied to a call are the latest one. -/
def suppliesLatest (hist : History Call Reply) : Call → Prop
  | .unenroll args => ∀ recovery, args.recoverySecret = some recovery →
    latestSecret hist = some recovery
  | .runRecover recovery _ => latestSecret hist = some recovery
  | _ => True

/-- There is no marker of the lockout hierarchy. -/
def View.Unmarked (v : View) : Prop := v.files .lockoutOwned = none

/-- An enrollment that is not refused at once starts without a marker. -/
def unmarked (h : Host) : Call → Prop
  | .enroll args => h.view.Vacant args → h.view.Unmarked
  | _ => True

/-- While a marker is there, an existence check of an enrollment overlooks nothing, and a rollback
does not fail at what makes the marker true or removes it; releasing the hierarchy does not give up
the authValue and keep the marker; and a hard lockout is not reset without the marker. -/
def settled : Call → Host → Op → Fault → Prop
  | .enroll _, h, .file (.pathExists (.main a)), f =>
    f = .ok ∨ h.view.Unseen a ∨ h.view.Unmarked
  | .enroll _, h, .rekey _ _ false, f => f = .ok ∨ h.view.Unmarked
  | .enroll _, h, .setLockoutAuth (_ :: _) _, f => f = .ok ∨ h.view.Unmarked
  | .enroll _, h, .file (.removeFile (.main .lockoutOwned)), f => f = .ok ∨ h.view.Unmarked
  | .unenroll _, _, .setLockoutAuth _ _, f => f ≠ .late
  | .unenroll _, _, .file (.removeFile (.main .lockoutOwned)), f => f = .ok
  | .runRecover _ _, h, .resetLockout _, _ => ¬ h.view.Unmarked
  | _, _, _, _ => True

/-- Every authorization presented the authValue that was held, and a marker is there only while the
authValue is that of the latest recovery secret. -/
structure Authorized (E : Primitives) (hist : History Call Reply) (v : View) : Prop where
  attempts : ∀ presented held, (presented, held) ∈ v.attempts → presented = held
  marked : ¬ v.Unmarked → ∃ recovery, latestSecret hist = some recovery ∧
    v.lockoutAuth = lockoutAuthOf E recovery

/-- The invariant: the marker is also nothing that could not be removed. -/
structure Settled (E : Primitives) (hist : History Call Reply) (v : View) : Prop
    extends Authorized E hist v where
  plain : v.files .lockoutOwned ≠ some (.dir 0)

section Settled

variable {E : Primitives} {hist : History Call Reply} {v v' : View}

/-- What matters to the lockout hierarchy is as before, or the marker is gone. -/
structure SameLockout (v v' : View) : Prop where
  attempts : v'.attempts = v.attempts
  lockoutAuth : v'.lockoutAuth = v.lockoutAuth
  marker : v'.files .lockoutOwned = v.files .lockoutOwned

theorem Settled.of_unmarked (ha : ∀ p q, (p, q) ∈ v'.attempts → p = q) (hm : v'.Unmarked) :
    Settled E hist v' :=
  ⟨⟨ha, fun h => absurd hm h⟩, by rw [show v'.files .lockoutOwned = none from hm]; simp⟩

theorem Settled.same (h : Settled E hist v) (hs : SameLockout v v') : Settled E hist v' :=
  ⟨⟨hs.attempts ▸ h.attempts, fun hm => hs.lockoutAuth ▸ h.marked fun hn => hm
    (hs.marker.trans hn)⟩, hs.marker ▸ h.plain⟩

/-- A call that returns no new recovery secret. -/
theorem Settled.cons {c : Call} {r : Option Reply} (h : Settled E hist v)
    (hc : latestSecret ((c, r) :: hist) = latestSecret hist) : Settled E ((c, r) :: hist) v :=
  ⟨⟨h.attempts, hc ▸ h.marked⟩, h.plain⟩

theorem Settled.removeAll (h : Settled E hist v) (gone : List Artifact) :
    Settled E hist (v.removeAll gone) := by
  by_cases hg : Artifact.lockoutOwned ∈ gone
  · exact .of_unmarked h.attempts (by simp [View.Unmarked, View.files_removeAll, hg])
  · exact h.same ⟨rfl, rfl, by simp [View.files_removeAll, hg]⟩

/-- One more authorization, with the value that is held. -/
theorem View.attempt_right {auth : SecretBytes} (h : ∀ p q, (p, q) ∈ v.attempts → p = q)
    (ha : v.lockoutAuth = auth) : ∀ p q, (p, q) ∈ (v.attempt auth).attempts → p = q := by
  intro p q hp
  rcases List.mem_cons.mp hp with heq | hp
  · obtain ⟨rfl, rfl⟩ := Prod.mk.inj heq
    exact ha.symm
  · exact h p q hp

theorem Settled.attempt (h : Settled E hist v) : Settled E hist (v.attempt v.lockoutAuth) :=
  ⟨⟨View.attempt_right h.attempts rfl, h.marked⟩, h.plain⟩

/-! ## Enrolling -/

section Enroll

variable {args : EnrollArgs} {done rest : List Change} {tx : Tx}

/-- The marker is written after the hierarchy is bound. -/
theorem Stopped.marker (hs : Stopped E args v done rest v' tx) (hn : v.Unmarked)
    (hm : ¬ v'.Unmarked) :
    tx.lockoutAuth = some (lockoutAuthOf E args.draws.recoverySecret) := by
  obtain ⟨es, late, hp⟩ := hs.placements
  -- The marker is among the changes made, or it is the change that failed.
  have hstep : ∃ b, Change.place .lockoutOwned b ∈ done ∨ ∃ rest',
      rest = .place .lockoutOwned b :: rest' := by
    rcases hs.view with rfl | ⟨c, rest', hr, -, hspoil⟩
    · by_contra hno
      refine hm ((View.after_files_of_not_mem fun h => ?_).trans hn)
      obtain ⟨b, hb⟩ := mem_targets_file.1 h
      exact hno ⟨b, .inl hb⟩
    · by_contra hno
      have hafter : (v.after done).Unmarked := (View.after_files_of_not_mem fun h =>
        have ⟨b, hb⟩ := mem_targets_file.1 h
        hno ⟨b, .inl hb⟩).trans hn
      refine hm ?_
      cases c with
      | place a b =>
        obtain rfl := hspoil
        have hne : Artifact.lockoutOwned ≠ a := fun h => hno ⟨b, .inr ⟨rest', h ▸ hr⟩⟩
        exact (View.files_place_of_ne _ _ hne).trans hafter
      | rekey =>
        obtain rfl := hspoil
        exact hafter
      | bind => rcases hspoil with rfl | rfl <;> exact hafter
  obtain ⟨b, hb⟩ := hstep
  have hmem : Change.place .lockoutOwned b ∈ plan E args v := by
    rw [hs.split]
    rcases hb with hb | ⟨rest', rfl⟩
    · exact List.mem_append_left _ hb
    · simp
  have hfree := mem_plan_lockoutOwned hmem
  rcases hs.lockoutAuth with ⟨hnot, -⟩ | ⟨-, -, hsome⟩
  case inr => exact hsome
  obtain ⟨pre, post, hplan, hpre⟩ := @plan_eq_bind E args _ hfree
  exact absurd (mem_targets_lockout.2 ⟨_, mem_of_append_eq (hs.split.symm.trans hplan) hb (hpre b)
    nofun⟩) hnot

theorem Stopped.attempts (hs : Stopped E args v done rest v' tx)
    (h : ∀ p q, (p, q) ∈ v.attempts → p = q) : ∀ p q, (p, q) ∈ v'.attempts → p = q := by
  have hbind : ∀ {w : View}, w.attempts = v.attempts → v.lockoutAuth = [] → w.lockoutAuth =
      v.lockoutAuth → ∀ p q, (p, q) ∈ (w.attempt []).attempts → p = q := by
    intro w hw hfree hauth
    exact View.attempt_right (hw ▸ h) (hauth.trans hfree)
  have hafter : (Target.lockout ∉ targets done → (v.after done).attempts = v.attempts ∧
      (v.after done).lockoutAuth = v.lockoutAuth) ∧
      ∀ p q, (p, q) ∈ (v.after done).attempts → p = q := by
    refine ⟨fun hn => (View.after_lockoutAuth_of_not_mem hn).symm, ?_⟩
    by_cases hd : Target.lockout ∈ targets done
    · obtain ⟨auth, hauth⟩ := mem_targets_lockout.1 hd
      rw [(View.after_lockoutAuth_of_mem hs.nodup hauth).2]
      exact hbind (w := v) rfl (mem_plan_bind (hs.mem_plan hauth)).1 rfl
    · rw [(View.after_lockoutAuth_of_not_mem hd).2]
      exact h
  rcases hs.view with rfl | ⟨c, rest', hr, -, hspoil⟩
  · exact hafter.2
  · cases c with
    | place | rekey =>
      obtain rfl := hspoil
      exact hafter.2
    | bind auth =>
      obtain ⟨hsame, hauth⟩ := hafter.1 (hs.not_mem_targets hr)
      have hfree := (mem_plan_bind (hs.next_mem_plan hr)).1
      rcases hspoil with rfl | rfl <;> exact hbind hsame hfree hauth

/-- After a rollback that fails at nothing that matters, there is no marker. -/
theorem RolledBack.unmarked {r : Rollback}
    (hs : Stopped E args v done rest v₁ tx)
    (hr : RolledBack (settled (.enroll args)) tx args.old args.user v₁ r v')
    (hn : v.Unmarked) (ha : ∀ p q, (p, q) ∈ v.attempts → p = q) :
    v'.Unmarked ∧ ∀ p q, (p, q) ∈ v'.attempts → p = q := by
  have hattempts := hs.attempts ha
  have hfiles := tx.restored_files args.old v₁
  have hsame := tx.restored_attempts args.old v₁
  have hundone : ∀ {v₂}, LockoutUndone (settled (.enroll args)) tx.lockoutAuth
      (tx.restored args.old v₁) v₂ → v₂.Unmarked ∧ ∀ p q, (p, q) ∈ v₂.attempts → p = q := by
    intro v₂ hl
    cases ht : tx.lockoutAuth with
    | none =>
      rw [ht] at hl
      obtain rfl := hl
      refine ⟨by_contra fun hm => ?_, hsame ▸ hattempts⟩
      have hm : ¬ v₁.Unmarked := fun h => hm ((congrFun hfiles _).trans h)
      rw [hs.marker hn hm] at ht
      cases ht
    | some derived =>
      rw [ht] at hl
      have hheld : v₁.lockoutAuth = derived := (hs.holds derived ht).2
      have hright : ∀ p q, (p, q) ∈ ((tx.restored args.old v₁).attempt derived).attempts →
          p = q :=
        View.attempt_right (hsame ▸ hattempts)
          ((tx.restored_lockoutAuth args.old v₁).trans hheld)
      obtain ⟨c, cs, rfl⟩ : ∃ c cs, derived = c :: cs := by
        rcases hs.lockoutAuth with ⟨-, hnone⟩ | ⟨-, -, hsome⟩
        · rw [hnone] at ht
          cases ht
        · obtain rfl := Option.some.inj (hsome.symm.trans ht)
          exact List.exists_cons_of_ne_nil (lockoutAuthOf_ne_nil E _)
      cases hl with
      | released => exact ⟨by simp [View.Unmarked, View.remove], hright⟩
      | marked hf =>
        refine ⟨by_contra fun hm => ?_, hright⟩
        rcases hf with ⟨f, hne, h, hv, hsettled⟩ | hdir
        · exact hm (hv ▸ (hsettled.resolve_left hne))
        · have hdir : v₁.files .lockoutOwned = some (.dir 0) :=
            (congrFun hfiles _).symm.trans hdir
          rcases hs.files_valid hn with hnone | ⟨b, hb, -⟩
          · rw [hdir] at hnone
            cases hnone
          · rw [hdir] at hb
            cases hb
      | late hf =>
        obtain ⟨h, hv, hsettled⟩ := hf
        exact ⟨hv ▸ hsettled.resolve_left (by decide), hright⟩
      | refused hf =>
        obtain ⟨f, hne, h, hv, hsettled⟩ := hf
        exact ⟨hv ▸ hsettled.resolve_left hne, hright⟩
  have hcleaned : ∀ {v₂ : View} {gone}, (v₂.Unmarked ∧ ∀ p q, (p, q) ∈ v₂.attempts → p = q) →
      (v₂.removeAll gone).Unmarked ∧ ∀ p q, (p, q) ∈ (v₂.removeAll gone).attempts → p = q :=
    fun h => ⟨by
      rw [View.Unmarked, View.files_removeAll]
      split
      · rfl
      · exact h.1, h.2⟩
  -- A rollback that cannot put the credential back fails at it, so there was no marker.
  have hcredential : ∀ {key}, tx.newKey = some key → v₁.credential = key := by
    intro key hk
    obtain ⟨rfl, rfl⟩ := hs.of_newKey hk
    exact after_plan_credential.1
  cases hr with
  | restored hl => exact hcleaned (hundone hl)
  | cleanupFailed e hl hg => exact hcleaned (hundone hl)
  | restoreFailed e hk hf =>
    obtain ⟨f, hne, h, hv, hsettled⟩ := hf.resolve_left (not_not.2 (hcredential hk))
    exact ⟨hv ▸ hsettled.resolve_left hne, hattempts⟩
  | restoredLate e hk hc hf =>
    obtain ⟨h, hv, hsettled⟩ := hf
    exact ⟨(show v₁.Unmarked from hv ▸ hsettled.resolve_left (by decide)), hattempts⟩

/-- An enrollment that starts its transaction has seen that it is not refused. -/
theorem Started.unmarked (hs : Started (settled (.enroll args)) args v)
    (hn : v.Vacant args → v.Unmarked) : v.Unmarked := by
  by_contra hm
  refine hm (hn (hs.vacant fun a _ h f hv hf => ?_))
  subst hv
  exact hf.imp_right fun hf => hf.resolve_right hm

theorem EnrollEnds.settled {r : Except Error String} (h : Settled E hist v)
    (hn : v.Vacant args → v.Unmarked)
    (he : EnrollEnds E (Tess.settled (.enroll args)) args v r v') :
    Settled E ((.enroll args, some (r.map some)) :: hist) v' := by
  cases he with
  | refused => exact h.cons rfl
  | enrolled hstart hvalid =>
    have hn := hstart.unmarked hn
    have hs : Stopped E args v (plan E args v) [] (v.after (plan E args v))
        (Tx.after {} (plan E args v)) := ⟨by simp, hvalid, rfl, .inl rfl⟩
    have hright := hs.attempts h.attempts
    by_cases hfree : v.lockoutAuth = []
    · obtain ⟨hauth, hmark⟩ := @after_plan_lockout E args _ hfree
      exact ⟨⟨hright, fun _ => ⟨_, rfl, hauth⟩⟩, by simp [hmark]⟩
    · refine .of_unmarked hright ((View.after_files_of_not_mem fun hmem => ?_).trans hn)
      obtain ⟨b, hb⟩ := mem_targets_file.1 hmem
      exact hfree (mem_plan_lockoutOwned hb)
  | failed err hstart hs hr =>
    obtain ⟨hm, ha⟩ := hr.unmarked hs (hstart.unmarked hn) h.attempts
    exact .of_unmarked (by simpa using ha) (by simpa [View.Unmarked] using hm)

end Enroll

/-! ## The other calls -/

theorem ResealEnds.sameLockout {recovery newPin : SecretBytes} {entropy : Bytes}
    {r : Except Error Unit} (he : ResealEnds E v recovery newPin entropy r v') :
    SameLockout v v' := by
  cases he with
  | failed => exact ⟨rfl, rfl, rfl⟩
  | @unsynced bytes | @resealed bytes =>
    have hne : Artifact.lockoutOwned ≠ .metadata := nofun
    exact ⟨rfl, rfl, View.files_place_of_ne v bytes hne⟩

theorem RecoverEnds.settled {recovery : SecretBytes} {resealing : Option (SecretBytes × Bytes)}
    {r : Except Error Unit} (h : Settled E hist v) (hr : latestSecret hist = some recovery)
    (he : RecoverEnds E (Tess.settled (.runRecover recovery resealing)) v recovery resealing r v') :
    Settled E hist v' := by
  have htried : ∀ {v₁}, TriedReset E (Tess.settled (.runRecover recovery resealing)) v recovery v₁ →
      Settled E hist v₁ := fun ht => by
    cases ht with
    | skipped => exact h
    | tried hf =>
      obtain ⟨f, h', hv, hm⟩ := hf
      obtain ⟨recovery', hlatest, hauth⟩ := h.marked (hv ▸ hm)
      obtain rfl := Option.some.inj (hlatest.symm.trans hr)
      exact hauth ▸ h.attempt
  cases he with
  | failed e ht | recovered ht => exact htried ht
  | resealed ht _ he => exact (htried ht).same he.sameLockout

theorem UnenrollEnds.settled {args : UnenrollArgs} {r : Except Error Unit} (h : Settled E hist v)
    (hr : ∀ recovery, args.recoverySecret = some recovery → latestSecret hist = some recovery)
    (he : UnenrollEnds E (Tess.settled (.unenroll args)) v args r v') : Settled E hist v' := by
  have hleft : Settled E hist (args.left v) := h.same ⟨rfl, rfl, rfl⟩
  have htried : ∀ {v₁}, TriedRelease E (Tess.settled (.unenroll args)) (args.left v) args v₁ →
      Settled E hist v₁ := fun ht => by
    cases ht with
    | skipped => exact hleft
    | wrong hsome hm hne =>
      obtain ⟨recovery', hlatest, hauth⟩ := hleft.marked hm
      obtain rfl := Option.some.inj (hlatest.symm.trans (hr _ hsome))
      exact absurd hauth hne
    | released hsome hm heq hrel =>
      have hattempt := heq ▸ hleft.attempt
      cases hrel with
      | released => exact .of_unmarked hattempt.attempts (by simp [View.Unmarked, View.remove])
      | marked hf =>
        rcases hf with ⟨f, hne, h', -, hsettled⟩ | hdir
        · exact absurd hsettled hne
        · exact absurd hdir h.plain
      | late hf =>
        obtain ⟨h', -, hsettled⟩ := hf
        exact absurd rfl hsettled
      | refused => exact hattempt.same ⟨rfl, rfl, rfl⟩
  cases he with
  | failed => exact h
  | late | stranded | restored | restoredLate => exact h.same ⟨rfl, rfl, rfl⟩
  | leftover _ ht => exact (htried ht).removeAll _
  | left ht => exact (htried ht).removeAll _

end Settled

/-! ## Sessions -/

/-- **Authorizations are right** in every session in which the recovery secrets supplied are the
latest, enrollments that are not refused at once start without a marker, and nothing fails that
keeps the marker true. -/
theorem authorized_session (E : Primitives) (proc : Process) (initial : SecretBytes)
    (hist : History Call Reply) (h : Host)
    (hs : Session (fun c => machine E (settled c))
      (service E proc (fun hist h c => suppliesLatest hist c ∧ unmarked h c) fun _ => False)
      (TessFree initial) hist h) :
    Authorized E hist h.view := by
  suffices hI : True ∧ Settled E hist h.view from hI.2.toAuthorized
  refine session_invariant (P := fun _ => True) (I := Settled E) (fun _ _ _ _ _ _ => trivial)
    (fun h hf => ?_) (fun _ _ _ _ _ _ hf => hf.elim) ?_ hs
  · refine ⟨trivial, .of_unmarked (fun p q hp => ?_) (hf.files .lockoutOwned)⟩
    have hnone : h.view.attempts = [] := hf.attempts
    rw [hnone] at hp
    cases hp
  · rintro hist c h h' r hI ⟨hlatest, hunmarked⟩ - he
    cases c with
    | enroll args =>
      obtain ⟨r, rfl, he⟩ := he
      exact he.settled hI hunmarked
    | unlock | unlockWithFace | recover =>
      rw [show h'.view = h.view from he]
      exact hI.cons rfl
    | reseal =>
      obtain ⟨r, rfl, he⟩ := he
      exact (hI.same he.sameLockout).cons rfl
    | runRecover =>
      obtain ⟨r, rfl, he⟩ := he
      exact (he.settled hI hlatest).cons rfl
    | unenroll =>
      obtain ⟨r, rfl, he⟩ := he
      exact (he.settled hI hlatest).cons rfl

open Sample in
theorem authorized_enrolled :
    Authorized sample
      [(enrolling 1 2, some (called (settled (enrolling 1 2)) (enrolling 1 2) fresh).1)]
      (called (settled (enrolling 1 2)) (enrolling 1 2) fresh).2.view := by
  have hok : ∀ h o, settled (enrolling 1 2) h o .ok := fun _ o => by
    unfold settled enrolling
    split <;> simp_all
  exact authorized_session _ (proc 1) password _ _ (.done (k := enrolling 1 2)
    (.start tessFree_fresh) ⟨trivial, fun _ => rfl⟩ (returns_called hok (enrolling 1 2) fresh))

namespace Sample

def enrolled : Reply × Host := called anyFault (enrolling 1 2) fresh

/-- The enrollment is left without its recovery secret. -/
def abandoned : Reply × Host := called anyFault (unenrolling none) enrolled.2

def reenrolled : Reply × Host := called anyFault (enrolling 3 4) abandoned.2

/-- The second enrollment is left with its recovery secret. -/
def released : Reply × Host :=
  called anyFault (unenrolling (some (List.replicate 32 4))) reenrolled.2

/-- Any calls with the latest recovery secret, under any faults. -/
abbrev LatestSession (hist : History Call Reply) (h : Host) : Prop :=
  Session (fun _ => machine sample anyFault)
    (service sample (proc 1) (fun hist _ c => suppliesLatest hist c) fun _ => True)
    (TessFree password) hist h

theorem LatestSession.called {hist : History Call Reply} {h : Host} (hs : LatestSession hist h)
    {c : Call} (hc : suppliesLatest hist c) :
    LatestSession ((c, some (Sample.called anyFault c h).1) :: hist)
      (Sample.called anyFault c h).2 :=
  .done hs hc (returns_called (fun _ _ => trivial) c h)

end Sample

open Sample in
/-- Unenrolling without the recovery secret leaves the marker, the next enrollment finds the
hierarchy taken, and its recovery secret is presented for the one that is held. -/
theorem unauthorized_reenrolled :
    ∃ hist h, LatestSession hist h ∧ ¬ Authorized sample hist h.view := by
  have hs : LatestSession _ reenrolled.2 :=
    ((LatestSession.called (.start tessFree_fresh) (c := enrolling 1 2) trivial).called
      (c := unenrolling none) fun _ h => nomatch h).called (c := enrolling 3 4) trivial
  have hlatest : latestSecret [(enrolling 3 4, some reenrolled.1), (unenrolling none,
      some abandoned.1), (enrolling 1 2, some enrolled.1)] = some (List.replicate 32 4) := by
    decide +kernel
  refine ⟨_, released.2, hs.called (c := unenrolling (some (List.replicate 32 4))) fun _ h =>
    Option.some.inj h ▸ hlatest, fun h => ?_⟩
  have hmem : (List.replicate 32 4, List.replicate 32 2) ∈ released.2.view.attempts := by
    decide +kernel
  have hne : (List.replicate 32 4 : SecretBytes) ≠ List.replicate 32 2 := by decide
  exact hne (h.attempts _ _ hmem)

end Tess

import Tess.Lifecycle.Sessions

/-!
# There is always a way in

After any calls, each of them possibly stopped at any operation, the credential of the keyring is a
password that the user supplied, or it is the key of an enrollment whose files open it: the
recovery blob with the recovery secret, and the sealed metadata with its PIN for as long as the
recovery secret has not been disclosed.
-/

namespace Tess

open Files Effects Recovery

/-- A rekey that is reported as failed has not taken effect. -/
def noLateRekey (_ : Host) (o : Op) (f : Fault) : Prop :=
  ∀ old new generated, o = .rekey old new generated → f ≠ .late

instance (h : Host) (o : Op) (f : Fault) : Decidable (noLateRekey h o f) :=
  match o with
  | .rekey old new generated =>
    decidable_of_iff (f ≠ .late) ⟨fun hf _ _ _ _ => hf, fun hf => hf old new generated rfl⟩
  | .file _ | .getrandom _ | .generateKey _ | .tpmSeal .. | .tpmUnseal .. | .lockoutAuthIsSet
  | .setLockoutAuth .. | .readCaps | .resetLockout _ | .unlock _ | .isLocked | .captureTemplate _
  | .verifyItem | .eprintln _ => isTrue nofun

/-- No rekey took effect and was reported as failed. -/
def View.NoLate (v : View) : Prop := ∀ old new, Event.rekeyLate old new ∉ v.events

theorem noLate_exec {E : Primitives} {h : Host} {o : Op} {f : Fault} (hm : noLateRekey h o f)
    (h₀ : h.view.NoLate) : (exec E o f h).2.view.NoLate := by
  intro old new hmem
  obtain ⟨added, hev, hrec⟩ := exec_events E o f h
  rw [hev] at hmem
  rcases List.mem_append.mp hmem with hmem | hmem
  · have hrec := hrec _ hmem
    cases o with
    | rekey old' new' generated =>
      cases f with
      | late => exact hm _ _ _ rfl rfl
      | _ => exact hrec
    | setLockoutAuth => cases f <;> cases hrec
    | file => rcases hrec with ⟨_, _, _, h⟩ | ⟨_, h⟩ <;> cases h
    | _ => exact hrec
  · exact h₀ old new hmem

/-! ## The ways in -/

/-- The new PIN of a call that may rewrite the sealed metadata. -/
def Call.newPin : Call → Option SecretBytes
  | .reseal _ newPin _ => some newPin
  | .runRecover _ resealing => resealing.map Prod.fst
  | _ => none

/-- Whether a call has returned without an error. -/
def succeeded : Option Reply → Bool
  | some (.ok _) => true
  | _ => false

/-- The PINs that the metadata of an enrollment may be sealed under after some calls: the one of
the latest reseal that succeeded, or a later one whose reseal did not. -/
def sealPins (pin : SecretBytes) : History Call Reply → List SecretBytes
  | [] => [pin]
  | (c, r) :: post =>
    match c.newPin with
    | none => sealPins pin post
    | some newPin => if succeeded r then [newPin] else newPin :: sealPins pin post

/-- The passwords a user has supplied: the initial one, those enrollments replaced, and those that
unenrolling restored. -/
def Supplied (initial : SecretBytes) : History Call Reply → SecretBytes → Prop
  | [], p => p = initial
  | (.enroll args, _) :: hist, p => p = args.old ∨ Supplied initial hist p
  | (.unenroll args, _) :: hist, p => p = args.newPassword ∨ Supplied initial hist p
  | _ :: hist, p => Supplied initial hist p

theorem Supplied.cons {initial p : SecretBytes} {hist : History Call Reply}
    (h : Supplied initial hist p) (c : Call) (r : Option Reply) :
    Supplied initial ((c, r) :: hist) p := by
  cases c <;> first | exact h | exact .inr h

/-- The recovery secret of an enrollment has been returned or printed. -/
def Disclosed (args : EnrollArgs) (r : Option Reply) (v : View) : Prop :=
  succeeded r = true ∨ 0 < v.revealed (encode args.draws.recoverySecret)

/-- The credential is the key of an enrollment, and its files open it. -/
structure WayIn (E : Primitives) (args : EnrollArgs) (r : Option Reply)
    (post : History Call Reply) (v : View) : Prop where
  credential : v.credential = args.draws.key
  recovery : ∃ b m, v.files .recovery = some (.file b m) ∧
    unwrapBytes E b args.draws.recoverySecret = some args.draws.key
  metadata : ¬ Disclosed args r v → ∃ b m, v.files .metadata = some (.file b m) ∧
    ∃ pin ∈ sealPins args.pin post, unsealBytes E v.seed b pin = some args.draws.key

/-- **No lockout**: the credential is known to the user, or there is a way in to it. -/
def NoLockout (E : Primitives) (initial : SecretBytes) (hist : History Call Reply) (v : View) :
    Prop :=
  Supplied initial hist v.credential ∨
    ∃ post args r pre, hist = post ++ (.enroll args, r) :: pre ∧ WayIn E args r post v

/-! ## What the calls do to the credential -/

section Calls

variable {E : Primitives} {may : Host → Op → Fault → Prop} {args : EnrollArgs} {v v' : View}

/-- The files of an enrollment, as it wrote them, and its credential. -/
structure Placed (E : Primitives) (args : EnrollArgs) (v : View) : Prop where
  credential : v.credential = args.draws.key
  recovery : ∃ b m, v.files .recovery = some (.file b m) ∧
    Wraps E b args.draws.key args.draws.recoverySecret
  metadata : ∃ b m, v.files .metadata = some (.file b m) ∧
    Seals E v.seed b args.draws.key args.pin

theorem placed_after_plan (hv : ∀ c ∈ plan E args v, Valid E args v.seed c) :
    Placed E args (v.after (plan E args v)) := by
  obtain ⟨b, hb, hblob⟩ := after_plan_recovery hv
  obtain ⟨m, hm, hseal⟩ := after_plan_metadata hv
  exact ⟨after_plan_credential.1, ⟨b, _, hb, wraps_blobBytes hblob⟩,
    ⟨m, _, hm, by rw [View.after_seed]; exact seals_sealedBytes hseal⟩⟩

/-- Unless a rekey is ambiguous, an enrollment that is rolling back has the old credential, or
has all its files. -/
theorem RollingBack.placed {done rest : List Change} {v₁ : View} {tx : Tx}
    (hc : v.credential = args.old) (hs : Stopped E args v done rest v₁ tx)
    (hr : RollingBack tx args.old args.user v₁ v') (hl : v'.NoLate) :
    v'.credential = args.old ∨ Placed E args v' := by
  obtain ⟨hev, hcred⟩ := hr.credential
  have hlate : ∀ {o n}, Event.rekeyLate o n ∉ v₁.events := fun h => hl _ _ (hev h)
  obtain ⟨es, hes, hcases⟩ := hs.credential
  rcases hcases with ⟨hn, hc₁, -⟩ | ⟨-, -, -, hevent⟩ | ⟨hn, hplan, hvalid, -⟩
  · refine .inl ?_
    rcases hcred with rfl | ⟨hc', -⟩ | ⟨key, hk, -⟩
    · exact hc₁.trans hc
    · rw [hc', Tx.restored, hn]
      exact hc₁.trans hc
    · rw [hn] at hk
      cases hk
  · exact absurd (hes ▸ List.mem_append_left _ hevent) hlate
  · rcases hcred with rfl | ⟨hc', -⟩ | ⟨key, -, -, rfl⟩
    · exact .inr (hplan ▸ placed_after_plan hvalid)
    · exact .inl (by rw [hc', Tx.restored, hn]; rfl)
    · exact absurd List.mem_cons_self (hl key args.old)

/-- Disclosing the recovery secret does not touch the way in. -/
theorem Placed.disclose (h : Placed E args v) (display : String) (r : Rollback) :
    Placed E args (r.disclose display v) := by
  cases r <;> exact ⟨h.credential, h.recovery, h.metadata⟩

theorem EnrollEnds.placed {r : Except Error String} (h : EnrollEnds E may args v r v')
    (hl : v'.NoLate) : v' = v ∨ v'.credential = args.old ∨ Placed E args v' := by
  cases h with
  | refused => exact .inl rfl
  | enrolled hstart hvalid => exact .inr (.inr (placed_after_plan hvalid))
  | @failed _ _ _ v₂ _ r err hstart hs hr =>
    have hl₂ : v₂.NoLate := by cases r <;> exact hl
    refine .inr ((hr.rollingBack.placed hstart.credential hs hl₂).imp (fun hc => ?_)
      fun hp => hp.disclose _ _)
    cases r <;> exact hc

theorem EnrollAmid.placed (h : EnrollAmid E may args v v') (hl : v'.NoLate) :
    v' = v ∨ v'.credential = args.old ∨ Placed E args v' := by
  cases h with
  | here => exact .inl rfl
  | committing hstart hs => exact .inr (RollingBack.here.placed hstart.credential hs hl)
  | rolling hstart hs hr => exact .inr (hr.placed hstart.credential hs hl)
  | ended h => exact h.placed hl

/-- The credential and the ways to it are as before. -/
structure SameWays (v v' : View) : Prop where
  credential : v'.credential = v.credential
  seed : v'.seed = v.seed
  revealed : v'.revealed = v.revealed
  recovery : v'.files .recovery = v.files .recovery
  metadata : v'.files .metadata = v.files .metadata

theorem SameWays.refl (v : View) : SameWays v v := ⟨rfl, rfl, rfl, rfl, rfl⟩

/-- Unenrolling changes nothing about the ways in, or it has put the password in place. -/
theorem UnenrollEnds.ways {args : UnenrollArgs} {r : Except Error Unit}
    (h : UnenrollEnds E may v args r v') (hl : v'.NoLate) :
    SameWays v v' ∨ v'.credential = args.newPassword := by
  cases h with
  | failed => exact .inl (.refl v)
  | late => exact absurd List.mem_cons_self (hl _ _)
  | stranded => exact .inr rfl
  | restored => exact .inl ⟨rfl, rfl, rfl, rfl, rfl⟩
  | restoredLate => exact absurd List.mem_cons_self (hl _ _)
  | leftover _ hr => exact .inr hr.frame.credential
  | left hr => exact .inr hr.frame.credential

end Calls

/-! ## The invariant -/

section Invariant

variable {E : Primitives} {initial : SecretBytes} {hist : History Call Reply} {v v' : View}

/-- A way in, with what makes it one: the recovery blob and the metadata open to no other key. -/
structure Kept (E : Primitives) (args : EnrollArgs) (r : Option Reply)
    (post : History Call Reply) (v : View) : Prop where
  credential : v.credential = args.draws.key
  recovery : ∃ b m, v.files .recovery = some (.file b m) ∧
    Wraps E b args.draws.key args.draws.recoverySecret
  metadata : ¬ Disclosed args r v → ∃ b m, v.files .metadata = some (.file b m) ∧
    ∃ pin ∈ sealPins args.pin post, Seals E v.seed b args.draws.key pin

/-- The invariant of sessions. -/
def Safe (E : Primitives) (initial : SecretBytes) (hist : History Call Reply) (v : View) : Prop :=
  Supplied initial hist v.credential ∨
    ∃ post args r pre, hist = post ++ (.enroll args, r) :: pre ∧ Kept E args r post v

theorem Safe.noLockout (h : Safe E initial hist v) : NoLockout E initial hist v := by
  refine h.imp id ?_
  rintro ⟨post, args, r, pre, hhist, hk⟩
  obtain ⟨b, m, hb, hw⟩ := hk.recovery
  refine ⟨post, args, r, pre, hhist, hk.credential, ⟨b, m, hb, hw.opens⟩, fun hd => ?_⟩
  obtain ⟨b, m, hb, pin, hpin, hseals⟩ := hk.metadata hd
  exact ⟨b, m, hb, pin, hpin, hseals.opens⟩

theorem Safe.sameWays (h : Safe E initial hist v) (hw : SameWays v v') :
    Safe E initial hist v' := by
  rcases h with h | ⟨post, args, r, pre, hhist, hk⟩
  · exact .inl (hw.credential ▸ h)
  · refine .inr ⟨post, args, r, pre, hhist, hw.credential.trans hk.credential,
      hw.recovery ▸ hk.recovery, fun hd => ?_⟩
    rw [hw.metadata, hw.seed]
    exact hk.metadata fun hd' => hd (by unfold Disclosed at *; rwa [hw.revealed])

theorem sealPins_subset (pin : SecretBytes) {c : Call} {r : Option Reply}
    (hc : c.newPin = none ∨ succeeded r = false) (post : History Call Reply) :
    sealPins pin post ⊆ sealPins pin ((c, r) :: post) := by
  intro p hp
  unfold sealPins
  cases hn : c.newPin with
  | none => exact hp
  | some newPin =>
    rw [hn] at hc
    simp only [hc.resolve_left (by simp)]
    exact List.mem_cons_of_mem _ hp

/-- A call that rewrites nothing, or fails. -/
theorem Safe.cons (h : Safe E initial hist v) {c : Call} {r : Option Reply}
    (hc : c.newPin = none ∨ succeeded r = false) : Safe E initial ((c, r) :: hist) v := by
  rcases h with h | ⟨post, args, r', pre, rfl, hk⟩
  · exact .inl (h.cons c r)
  · refine .inr ⟨(c, r) :: post, args, r', pre, rfl, hk.credential, hk.recovery, fun hd => ?_⟩
    obtain ⟨b, m, hb, pin, hpin, hseals⟩ := hk.metadata hd
    exact ⟨b, m, hb, pin, sealPins_subset _ hc _ hpin, hseals⟩

/-- An enrollment, wherever it is stopped. -/
theorem Safe.enroll (h : Safe E initial hist v) {args : EnrollArgs} {r : Option Reply}
    (hv : v' = v ∨ v'.credential = args.old ∨ Placed E args v') :
    Safe E initial ((.enroll args, r) :: hist) v' := by
  rcases hv with rfl | hc | hp
  · exact h.cons (.inl rfl)
  · exact .inl (.inl hc)
  · obtain ⟨b, m, hb, hseals⟩ := hp.metadata
    exact .inr ⟨[], args, r, hist, rfl, hp.credential, hp.recovery, fun _ =>
      ⟨b, m, hb, args.pin, List.mem_singleton_self _, hseals⟩⟩

/-- A reseal, wherever it is stopped: the key it seals again is the one in the recovery blob. -/
theorem Safe.reseal (h : Safe E initial hist v) {c : Call} {recovery newPin : SecretBytes}
    {entropy : Bytes} {r : Except Error Unit} {r' : Option Reply} (hc : c.newPin = some newPin)
    (hr : succeeded r' = true → r = .ok ())
    (hv : ResealEnds E v recovery newPin entropy r v') :
    Safe E initial ((c, r') :: hist) v' := by
  have hplaced : ∀ {bytes}, Reseals E recovery newPin entropy v bytes →
      Safe E initial ((c, r') :: hist) (v.place .metadata bytes) := by
    rintro bytes ⟨key, hreads, hsealed⟩
    rcases h with h | ⟨post, args, r'', pre, rfl, hk⟩
    · exact .inl (h.cons c r')
    · obtain ⟨b, m, hb, hw⟩ := hk.recovery
      obtain rfl := hw.only _ _ (hreads.bytes b m hb)
      refine .inr ⟨(c, r') :: post, args, r'', pre, rfl, hk.credential, ⟨b, m, hb, hw⟩, fun _ =>
        ⟨bytes, _, View.files_place_self .., newPin, ?_, seals_sealedBytes hsealed⟩⟩
      unfold sealPins
      simp only [hc]
      split <;> simp
  cases hv with
  | failed => exact h.cons (.inr (by cases hs : succeeded r' <;> simp_all))
  | unsynced e hb => exact (hplaced hb).sameWays ⟨rfl, rfl, rfl, rfl, rfl⟩
  | resealed hb => exact hplaced hb

theorem TriedReset.sameWays {recovery : SecretBytes} (h : TriedReset E may v recovery v') :
    SameWays v v' := by
  cases h <;> exact ⟨rfl, rfl, rfl, rfl, rfl⟩

theorem Safe.runRecover (h : Safe E initial hist v) {recovery : SecretBytes}
    {resealing : Option (SecretBytes × Bytes)} {r : Except Error Unit} {r' : Option Reply}
    (hr : succeeded r' = true → r = .ok ()) (hv : RecoverEnds E may v recovery resealing r v') :
    Safe E initial ((.runRecover recovery resealing, r') :: hist) v' := by
  cases hv with
  | failed e ht =>
    exact (h.sameWays ht.sameWays).cons (.inr (by cases hs : succeeded r' <;> simp_all))
  | recovered ht hn =>
    exact (h.sameWays ht.sameWays).cons (.inl (by simp [Call.newPin, hn]))
  | resealed ht hn hv =>
    exact (h.sameWays ht.sameWays).reseal (by simp [Call.newPin, hn]) hr hv

theorem Safe.unenroll (h : Safe E initial hist v) {args : UnenrollArgs} {r : Option Reply}
    (hv : SameWays v v' ∨ v'.credential = args.newPassword) :
    Safe E initial ((.unenroll args, r) :: hist) v' := by
  rcases hv with hw | hc
  · exact (h.sameWays hw).cons (.inl rfl)
  · exact .inl (.inl hc)

end Invariant

/-! ## Sessions -/

/-- The keyring has a password, and there are no files of tess. -/
structure TessFree (initial : SecretBytes) (h : Host) : Prop where
  credential : h.keyring.credential = initial
  generated : h.keyring.generated = false
  files : ∀ a, h.files a = none
  attempts : h.attempts = []
  events : h.events = []

/-- Any call, stopped anywhere. -/
def anyCall (E : Primitives) (proc : Process) : Service Op.Res Host Reply Call :=
  service E proc (fun _ _ _ => True) fun _ => True

theorem succeeded_map {α : Type} {f : α → Option String} {r : Except Error α} :
    succeeded (some (r.map f)) = true ↔ ∃ a, r = .ok a := by
  cases r <;> simp [succeeded, Except.map]

/-- **No lockout.** After any calls with any arguments and any faults but ambiguous rekeys, each
call possibly stopped at any of its operations, the credential is a password the user supplied, or
the files of an enrollment give access to it. -/
theorem noLockout_session (E : Primitives) (proc : Process) (initial : SecretBytes)
    (hist : History Call Reply) (h : Host)
    (hs : Session (fun _ => machine E noLateRekey) (anyCall E proc) (TessFree initial) hist h) :
    NoLockout E initial hist h.view := by
  refine (session_invariant (P := View.NoLate) (I := Safe E initial) (fun _ h o f => noLate_exec)
    (fun h hf => ⟨fun _ _ => ?_, .inl hf.credential⟩) ?_ ?_ hs).2.noLockout
  · simp [Host.view, hf.events]
  · intro hist c h h' hI _ _ hl ha
    cases c with
    | enroll args => exact hI.enroll (ha.placed hl)
    | unlock | unlockWithFace | recover =>
      rw [show h'.view = h.view from ha]
      exact hI.cons (.inl rfl)
    | reseal =>
      obtain ⟨r, ha⟩ := ha
      exact hI.reseal rfl (by simp [succeeded]) ha
    | runRecover =>
      obtain ⟨r, ha⟩ := ha
      exact hI.runRecover (by simp [succeeded]) ha
    | unenroll =>
      obtain ⟨r, ha⟩ := ha
      exact hI.unenroll (ha.ways hl)
  · intro hist c h h' r hI _ hl he
    cases c with
    | enroll args =>
      obtain ⟨r, rfl, he⟩ := he
      exact hI.enroll (he.placed hl)
    | unlock | unlockWithFace | recover =>
      rw [show h'.view = h.view from he]
      exact hI.cons (.inl rfl)
    | reseal =>
      obtain ⟨r, rfl, he⟩ := he
      exact hI.reseal rfl (fun hs => (succeeded_map.1 hs).choose_spec) he
    | runRecover =>
      obtain ⟨r, rfl, he⟩ := he
      exact hI.runRecover (fun hs => (succeeded_map.1 hs).choose_spec) he
    | unenroll =>
      obtain ⟨r, rfl, he⟩ := he
      exact hI.unenroll (he.ways hl)

theorem tessFree_fresh : TessFree Sample.password Sample.fresh := ⟨rfl, rfl, fun _ => rfl, rfl, rfl⟩

open Sample in
theorem noLockout_enrolled :
    NoLockout sample password [(enrolling 1 2, some (called noLateRekey (enrolling 1 2) fresh).1)]
      (called noLateRekey (enrolling 1 2) fresh).2.view := by
  have hok : ∀ h o, noLateRekey h o .ok := fun _ _ _ _ _ _ => by decide
  exact noLockout_session _ (proc 1) _ _ _
    (.done (.start tessFree_fresh) trivial (returns_called hok (enrolling 1 2) fresh))

end Tess

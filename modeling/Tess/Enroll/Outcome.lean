import Tess.Enroll.Stops

/-!
# How an enrollment ends

`EnrollEnds` lists the views an enrollment on its own returns in, with its result: refused, with
nothing changed; enrolled, with every change of the plan made; or failed, with the transaction
stopped somewhere and rolled back in one of three ways. `EnrollAmid` lists the views on the way.
`enroll_spec` is the proof, for any faults of any operation.
-/

namespace Tess

open Files Effects Recovery

/-! ## The outcomes -/

namespace Rollback

/-- The message of a failed enrollment. -/
def text : Rollback → String
  | restored => restoredText
  | cleanupFailed e => cleanupFailedText e
  | restoreFailed e => restoreFailedText e

/-- The recovery secret is disclosed when the credential could not be put back. -/
def disclose (display : String) : Rollback → View → View
  | restoreFailed _, v => v.reveal display
  | _, v => v

@[simp] theorem disclose_events (display : String) (r : Rollback) (v : View) :
    (r.disclose display v).events = v.events := by cases r <;> rfl

@[simp] theorem disclose_credential (display : String) (r : Rollback) (v : View) :
    (r.disclose display v).credential = v.credential := by cases r <;> rfl

@[simp] theorem disclose_files (display : String) (r : Rollback) (v : View) :
    (r.disclose display v).files = v.files := by cases r <;> rfl

@[simp] theorem disclose_seed (display : String) (r : Rollback) (v : View) :
    (r.disclose display v).seed = v.seed := by cases r <;> rfl

@[simp] theorem disclose_attempts (display : String) (r : Rollback) (v : View) :
    (r.disclose display v).attempts = v.attempts := by cases r <;> rfl

@[simp] theorem disclose_lockoutAuth (display : String) (r : Rollback) (v : View) :
    (r.disclose display v).lockoutAuth = v.lockoutAuth := by cases r <;> rfl

theorem text_eq_restoredText {r : Rollback} : r.text = restoredText ↔ r = restored := by
  cases r with
  | restored => simp [text]
  | cleanupFailed e => simp [text, cleanupFailedText_ne]
  | restoreFailed e => simp [text, restoreFailedText_ne]

end Rollback

/-- Nothing is found at the name of `a`. -/
def View.Unseen (v : View) (a : Artifact) : Prop := ∀ n, v.files a = some n → ∃ p, n = .symlink p

/-- The existence check of `a` does not overlook it in `v`. -/
def HonestCheck (may : Host → Op → Fault → Prop) (v : View) (a : Artifact) : Prop :=
  ∀ h f, h.view = v → may h (.file (.pathExists (.main a))) f → f = .ok ∨ v.Unseen a

/-- An enrollment is not refused at once: it is given the credential, and there are no files. -/
structure View.Vacant (v : View) (args : EnrollArgs) : Prop where
  credential : v.credential = args.old
  unseen : ∀ a ∈ enrollmentFiles, v.Unseen a

/-- What an enrollment that starts its transaction has seen. -/
structure Started (may : Host → Op → Fault → Prop) (args : EnrollArgs) (v : View) : Prop where
  credential : v.credential = args.old
  unseen : ∀ a ∈ enrollmentFiles, HonestCheck may v a → v.Unseen a

theorem Started.vacant {may : Host → Op → Fault → Prop} {args : EnrollArgs} {v : View}
    (hs : Started may args v) (hc : ∀ a ∈ enrollmentFiles, HonestCheck may v a) : v.Vacant args :=
  ⟨hs.credential, fun a ha => hs.unseen a ha (hc a ha)⟩

/-- The user of the face leg. -/
def EnrollArgs.user (args : EnrollArgs) : Option String := args.face.map FaceEnroll.username

section Ends

variable (E : Primitives) (may : Host → Op → Fault → Prop) (args : EnrollArgs) (v : View)

/-- The views an enrollment returns in. -/
inductive EnrollEnds : Except Error String → View → Prop
  | refused {e : Error} (he : e.head? ≠ some restoredText) : EnrollEnds (.error e) v
  | enrolled (hstart : Started may args v) (hvalid : ∀ c ∈ plan E args v, Valid E args v.seed c) :
      EnrollEnds (.ok (encode args.draws.recoverySecret)) (v.after (plan E args v))
  | failed {done rest : List Change} {v₁ v₂ : View} {tx : Tx} {r : Rollback} (err : Error)
      (hstart : Started may args v) (hs : Stopped E args v done rest v₁ tx)
      (hr : RolledBack may tx args.old args.user v₁ r v₂) :
      EnrollEnds (.error (r.text :: err)) (r.disclose (encode args.draws.recoverySecret) v₂)

/-- The views on the way. -/
inductive EnrollAmid : View → Prop
  | here : EnrollAmid v
  | committing {done rest : List Change} {v₁ : View} {tx : Tx} (hstart : Started may args v)
      (hs : Stopped E args v done rest v₁ tx) : EnrollAmid v₁
  | rolling {done rest : List Change} {v₁ v₂ : View} {tx : Tx} (hstart : Started may args v)
      (hs : Stopped E args v done rest v₁ tx) (hr : RollingBack tx args.old args.user v₁ v₂) :
      EnrollAmid v₂
  | ended {r : Except Error String} {v' : View} (h : EnrollEnds E may args v r v') : EnrollAmid v'

end Ends

/-! ## The enrollment -/

section Enroll

variable {E : Primitives} {may : Host → Op → Fault → Prop} {args : EnrollArgs} {proc : Process}
  {v : View} {h : Host}

/-- An existence check that succeeds is right. -/
theorem files_ne_none_of_exists {a : Artifact} {f : Fault}
    (hb : (FileOp.exec (.pathExists (.main a)) f h.disk).1 = true) : h.view.files a ≠ none := by
  intro hn
  have hn : h.disk.node (.main a) = none := Host.at_eq_none.1 hn
  cases f <;> simp [FileOp.exec, Disk.stat_of_none hn] at hb

theorem pathExists_spec {a : Artifact} {G : Host → Host → Prop} (hG : ∀ h h', h'.view = v → G h h')
    (hv : h.view = v) :
    wp (machine E may) Eq G (pathExists (.main a))
      (fun b h' => h'.view = v ∧ (b = true → v.files a ≠ none) ∧
        (b = false → HonestCheck may v a → v.Unseen a)) h := by
  subst hv
  refine (wp_call_alone ..).2 fun f hf => ?_
  have hview : (exec E (.file (.pathExists (.main a))) f h).2.view = h.view :=
    (exec_quiet E (o := .file (.pathExists (.main a))) trivial f h : QuietStep 0 _ _).view
  refine ⟨hG _ _ hview, hview, files_ne_none_of_exists, fun hb honest n hn => ?_⟩
  rcases honest h f rfl hf with rfl | hunseen
  case inr => exact hunseen n hn
  have hb : (h.disk.stat (.main a)).isSome = false := hb
  obtain ⟨n', hn', rfl⟩ : ∃ n', h.disk.node (.main a) = some n' ∧ n'.entry = n := by
    simpa [Host.view, Host.files, Host.at_] using hn
  cases n' with
  | symlink p => exact ⟨p, rfl⟩
  | file | dir => simp [Disk.stat, Disk.maxLinks, Disk.follow, hn'] at hb

theorem anyExists_spec {G : Host → Host → Prop} (hG : ∀ h h', h'.view = v → G h h')
    (as : List Artifact) (hv : h.view = v) :
    wp (machine E may) Eq G (anyExists as)
      (fun b h' => h'.view = v ∧ (b = false → ∀ a ∈ as, HonestCheck may v a → v.Unseen a)) h := by
  induction as generalizing h with
  | nil => exact ⟨hv, by simp⟩
  | cons a as ih =>
    refine (wp_bind ..).2 (wp_post (pathExists_spec hG hv) ?_)
    rintro (_ | _) h' ⟨hv, -, hb⟩
    · exact wp_post (ih hv) fun b h' ⟨hv, hall⟩ => ⟨hv, fun hf a' ha' honest => by
        rcases List.mem_cons.mp ha' with rfl | ha'
        · exact hb rfl honest
        · exact hall hf a' ha' honest⟩
    · exact ⟨hv, by simp⟩

/-- The message with the recovery secret discloses it. -/
theorem eprintln_spec (display : String) {Q : Host → Prop} {G : Host → Host → Prop}
    (hQ : ∀ h', h'.view = h.view.reveal display → G h h' ∧ Q h') :
    wp (machine E may) Eq G (eprintln (criticalText display)) (fun _ => Q) h := by
  refine (wp_call_alone ..).2 fun f _ => hQ _ ?_
  have hr : (fun d => (criticalText display :: h.printed).count (criticalText d)) =
      fun d => h.printed.count (criticalText d) + if d = display then 1 else 0 := by
    funext d
    simp only [List.count_cons, beq_iff_eq, criticalText_inj, @eq_comm _ display]
  change Host.view { h with printed := _ } = _
  simp only [Host.view, hr]
  rfl

/-- After a failed transaction, the rollback, and the disclosure when it failed as well. -/
theorem afterFailure_spec {done rest : List Change} {tx : Tx} (err : Error)
    (hstart : Started may args v) (hs : Stopped E args v done rest h.view tx) :
    wpe (machine E may) Eq (fun _ h' => EnrollAmid E may args v h'.view)
      (afterFailure E proc args (encode args.draws.recoverySecret) tx err)
      (fun s h' => EnrollEnds E may args v (.ok s) h'.view)
      (fun e h' => EnrollEnds E may args v (.error e) h'.view) h := by
  refine wpe_seq ((wpe_lift ..).2 (wp_mono (@rollback_spec _ _ _ _ _ _ _ args.user hs.holds rfl)
    (fun _ h' hr => .rolling hstart hs hr) fun _ _ => id)) ?_
  rintro (_ | e | e) h' hr
  · exact .failed err hstart hs hr
  · exact .failed err hstart hs hr
  · have hended : EnrollEnds E may args v (.error (restoreFailedText e :: err))
        (h'.view.reveal (encode args.draws.recoverySecret)) := .failed err hstart hs hr
    refine wpe_seq (P := fun _ h'' => h''.view = h'.view.reveal (encode args.draws.recoverySecret))
      ((wpe_lift ..).2 (eprintln_spec _ fun h'' hv => ⟨?_, hv⟩)) fun _ h'' hv => ?_
    · exact .ended (show EnrollEnds E may args v _ h''.view from hv ▸ hended)
    · exact show EnrollEnds E may args v _ h''.view from hv ▸ hended

/-- The transaction, started in `v`. -/
theorem commit_spec (hstart : Started may args v) (hv : h.view = v) :
    wp (machine E may) Eq (fun _ h' => EnrollAmid E may args v h'.view)
      ((commit E proc args args.draws.key args.draws.recoverySecret).run.run {})
      (outcomeState
        (fun _ _ h' => h'.view = v.after (plan E args v) ∧ ∀ c ∈ plan E args v, Valid E args v.seed c)
        fun _ tx h' => ∃ done rest, Stopped E args v done rest h'.view tx) h := by
  refine wp_mono (runs_commit h hv) (fun _ h' hw => ?_) ?_
  · obtain ⟨tx, hhalt⟩ := hw {}
    obtain ⟨done, rest, hs⟩ := stopped_of_halted hhalt
    exact .committing hstart hs
  · rintro ⟨_ | _, tx⟩ h' hr
    · exact stopped_of_halted hr
    · exact ⟨hr.2.view, hr.2.valid⟩

/-- **Enrollment**, under any faults: how it ends, and the views on the way. -/
theorem enroll_spec (hv : h.view = v) :
    wpe (machine E may) Eq (fun _ h' => EnrollAmid E may args v h'.view) (enroll E proc args)
      (fun s h' => EnrollEnds E may args v (.ok s) h'.view)
      (fun e h' => EnrollEnds E may args v (.error e) h'.view) h := by
  have hG : ∀ h h' : Host, h'.view = v → EnrollAmid E may args v h'.view := fun _ _ hv => hv ▸ .here
  have hstable : Stable proc.pid Eq (fun _ h' => EnrollAmid E may args v h'.view)
      fun h => h.view = v := stable_view _ hG
  have hrefused : ∀ {what : String} {e : Error} {h' : Host}, h'.view = v → what ≠ restoredText →
      EnrollEnds E may args v (.error (what :: e)) h'.view := fun hv hne =>
    hv ▸ .refused fun h => hne (Option.some.inj h)
  refine wpe_seq (P := fun _ h => h.view = v) ((wpe_ensure ..).2 ⟨fun _ => hv, fun _ => ?_⟩)
    fun _ h hv => ?_
  · exact hrefused hv (by decide)
  refine wpe_seq ((wpe_lift ..).2 (anyExists_spec hG enrollmentFiles hv)) ?_
  rintro taken h ⟨hv, hunseen⟩
  refine wpe_seq (P := fun _ h => h.view = v ∧
      ∀ a ∈ enrollmentFiles, HonestCheck may v a → v.Unseen a)
    ((wpe_ensure ..).2 ⟨fun hf => ⟨hv, hunseen hf⟩, fun _ => hrefused hv
      (alreadyEnrolledText_ne proc)⟩) ?_
  rintro _ h ⟨hv, hunseen⟩
  refine wpe_seq (P := fun _ h => h.view = v ∧ Started may args v) ((wpe_adapt ..).2 (wpe_mono
    (keyringUnlock_spec hstable hv args.old) (fun _ h hc => ⟨hc.2, ?_, hunseen⟩)
    fun e h hv => hrefused hv (by decide))) ?_
  · exact (congrArg View.credential hc.2).symm.trans hc.1
  rintro _ h ⟨hv, hstart⟩
  refine wpe_seq ((wpe_adapt ..).2 (wpe_mono (generateKey_spec hstable hv _) (fun _ _ => id)
    fun e h hv => hrefused hv (by decide))) ?_
  rintro _ h ⟨rfl, hv⟩
  refine wpe_seq ((wpe_adapt ..).2 (wpe_mono (getrandom_spec hstable hv _ _) (fun _ _ => id)
    fun e h hv => hrefused hv (by decide))) ?_
  rintro _ h ⟨rfl, hv⟩
  refine wpe_seq ((wpe_lift ..).2 (commit_spec hstart hv)) ?_
  rintro ⟨_ | _, tx⟩ h hr
  · obtain ⟨done, rest, hs⟩ := hr
    exact afterFailure_spec _ hstart hs
  · obtain ⟨hv, hvalid⟩ := hr
    exact show EnrollEnds E may args v _ h.view from hv ▸ .enrolled hstart hvalid

end Enroll

end Tess

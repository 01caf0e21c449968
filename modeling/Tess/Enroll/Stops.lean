import Tess.Enroll.Rollback

/-!
# Where an enrollment stops

No two changes of the plan have the same target: a file, the lockout authValue, the credential. So
the view after some of the changes, and what is recorded of them, can be read off the list of
changes made, without their order.

* `Stopped` says that the plan is split into the changes made and recorded, and the rest.
* `View.after` is the view after some changes.
* `Stopped.mem_written` and `Stopped.newKey` say what a rollback will undo.
-/

namespace Tess

open Files Effects

/-! ## Targets -/

/-- What a change sets. -/
inductive Target where
  | file (a : Artifact)
  | lockout
  | credential
  deriving DecidableEq

def Change.target : Change → Target
  | place a _ => .file a
  | bind _ => .lockout
  | rekey .. => .credential

/-- The targets of some changes. -/
abbrev targets (cs : List Change) : List Target := cs.map Change.target

theorem mem_targets_file {a : Artifact} {cs : List Change} :
    Target.file a ∈ targets cs ↔ ∃ b, Change.place a b ∈ cs := by
  simp only [targets, List.mem_map]
  constructor
  · rintro ⟨c, hc, ht⟩
    cases c with
    | place a' b =>
      obtain rfl : a' = a := by simpa [Change.target] using ht
      exact ⟨b, hc⟩
    | bind | rekey => cases ht
  · rintro ⟨b, hb⟩
    exact ⟨_, hb, rfl⟩

theorem mem_targets_lockout {cs : List Change} :
    Target.lockout ∈ targets cs ↔ ∃ auth, Change.bind auth ∈ cs := by
  simp only [targets, List.mem_map]
  constructor
  · rintro ⟨c, hc, ht⟩
    cases c with
    | bind auth => exact ⟨auth, hc⟩
    | place | rekey => cases ht
  · rintro ⟨auth, h⟩
    exact ⟨_, h, rfl⟩

theorem mem_targets_credential {cs : List Change} :
    Target.credential ∈ targets cs ↔ ∃ old key, Change.rekey old key ∈ cs := by
  simp only [targets, List.mem_map]
  constructor
  · rintro ⟨c, hc, ht⟩
    cases c with
    | rekey old key => exact ⟨old, key, hc⟩
    | place | bind => cases ht
  · rintro ⟨old, key, h⟩
    exact ⟨_, h, rfl⟩

section Plan

variable (E : Primitives) (args : EnrollArgs) (v : View)

theorem nodup_targets_plan : (targets (plan E args v)).Nodup := by
  unfold plan faceSteps lockoutSteps
  cases args.face <;> by_cases hheld : v.lockoutAuth = [] <;>
    simp [hheld, targets, Change.target, recoveryStep, metadataStep, rekeyStep]

/-- The credential is changed last. -/
theorem plan_eq_append :
    ∃ cs, plan E args v = cs ++ [rekeyStep args] ∧ Target.credential ∉ targets cs := by
  refine ⟨recoveryStep E args :: metadataStep E args v.seed ::
    (faceSteps E args v.seed ++ lockoutSteps E args v.lockoutAuth), by simp [plan], ?_⟩
  unfold faceSteps lockoutSteps
  cases args.face <;> by_cases hheld : v.lockoutAuth = [] <;>
    simp [hheld, targets, Change.target, recoveryStep, metadataStep]

variable {E args v}

theorem mem_plan_rekey {old key : SecretBytes} (h : Change.rekey old key ∈ plan E args v) :
    old = args.old ∧ key = args.draws.key := by
  unfold plan faceSteps lockoutSteps at h
  cases hf : args.face <;> by_cases hheld : v.lockoutAuth = [] <;>
    simpa [hf, hheld, recoveryStep, metadataStep, rekeyStep] using h

theorem mem_plan_bind {auth : SecretBytes} (h : Change.bind auth ∈ plan E args v) :
    v.lockoutAuth = [] ∧ auth = lockoutAuthOf E args.draws.recoverySecret := by
  unfold plan faceSteps lockoutSteps at h
  cases hf : args.face <;> by_cases hheld : v.lockoutAuth = [] <;>
    simp [hf, hheld, recoveryStep, metadataStep, rekeyStep] at h
  all_goals exact ⟨hheld, h⟩

theorem mem_plan_template {u : String} {b : Bytes}
    (h : Change.place (.template u) b ∈ plan E args v) :
    args.face.map FaceEnroll.username = some u := by
  unfold plan faceSteps lockoutSteps at h
  cases hf : args.face <;> by_cases hheld : v.lockoutAuth = [] <;>
    simp [hf, hheld, recoveryStep, metadataStep, rekeyStep] at h
  all_goals simp [h.1]

/-- What comes before in a list is in every part of it that holds, or ends before, what comes
after. -/
theorem mem_of_append_eq {α : Type} {done rest pre post : List α} {x y : α}
    (h : done ++ rest = pre ++ x :: post) (hy : y ∈ done ∨ ∃ rest', rest = y :: rest')
    (hpre : y ∉ pre) (hne : y ≠ x) : x ∈ done := by
  rcases List.append_eq_append_iff.mp h with ⟨mid, rfl, hrest⟩ | ⟨mid, rfl, hx⟩
  · rcases hy with hy | ⟨rest', rfl⟩
    · exact absurd (List.mem_append_left _ hy) hpre
    · cases mid with
      | nil => exact absurd (List.cons.inj hrest).1 hne
      | cons z mid =>
        obtain ⟨rfl, -⟩ := List.cons.inj hrest
        exact absurd (by simp) hpre
  · cases mid with
    | nil =>
      rcases hy with hy | ⟨rest', rfl⟩
      · exact absurd (by simpa using hy) hpre
      · exact absurd (List.cons.inj hx).1.symm hne
    | cons z mid =>
      obtain ⟨rfl, -⟩ := List.cons.inj hx
      simp

/-- The lockout hierarchy is marked after it is bound. -/
theorem plan_eq_bind (hfree : v.lockoutAuth = []) :
    ∃ pre post, plan E args v =
        pre ++ .bind (lockoutAuthOf E args.draws.recoverySecret) :: post ∧
      ∀ b, Change.place .lockoutOwned b ∉ pre := by
  refine ⟨recoveryStep E args :: metadataStep E args v.seed :: faceSteps E args v.seed,
    [.place .lockoutOwned [], rekeyStep args], by simp [plan, lockoutSteps, hfree], fun b => ?_⟩
  unfold faceSteps
  cases args.face <;> simp [recoveryStep, metadataStep]

theorem mem_plan_lockoutOwned {b : Bytes}
    (h : Change.place .lockoutOwned b ∈ plan E args v) : v.lockoutAuth = [] := by
  by_contra hheld
  unfold plan faceSteps lockoutSteps at h
  cases hf : args.face <;> simp [hf, hheld, recoveryStep, metadataStep, rekeyStep] at h

end Plan

/-! ## After some changes -/

namespace View

/-- The view after some changes. -/
def after (v : View) (cs : List Change) : View := cs.foldl (fun v c => c.apply v) v

variable {cs : List Change} {v : View}

@[simp] theorem after_nil (v : View) : v.after [] = v := rfl

@[simp] theorem after_cons (v : View) (c : Change) (cs : List Change) :
    v.after (c :: cs) = (c.apply v).after cs := rfl

@[simp] theorem after_seed (v : View) (cs : List Change) : (v.after cs).seed = v.seed := by
  induction cs generalizing v with
  | nil => rfl
  | cons c cs ih => exact (ih _).trans (apply_seed c v)

@[simp] theorem after_revealed (v : View) (cs : List Change) :
    (v.after cs).revealed = v.revealed := by
  induction cs generalizing v with
  | nil => rfl
  | cons c cs ih => exact (ih _).trans (by cases c <;> rfl)

theorem after_files_of_not_mem {a : Artifact} (h : Target.file a ∉ targets cs) :
    (v.after cs).files a = v.files a := by
  induction cs generalizing v with
  | nil => rfl
  | cons c cs ih =>
    simp only [targets, List.map_cons, List.mem_cons, not_or] at h
    refine (ih h.2).trans ?_
    cases c with
    | place a' b => exact Function.update_of_ne (fun h' => h.1 (by rw [h']; rfl)) _ _
    | bind | rekey => rfl

theorem after_files_of_mem {a : Artifact} {b : Bytes} (hn : (targets cs).Nodup)
    (h : Change.place a b ∈ cs) : (v.after cs).files a = some (.file b 0o600) := by
  induction cs generalizing v with
  | nil => cases h
  | cons c cs ih =>
    simp only [targets, List.map_cons, List.nodup_cons] at hn
    rcases List.mem_cons.mp h with rfl | h
    · rw [after_cons, after_files_of_not_mem hn.1]
      exact Function.update_self ..
    · exact ih hn.2 h

theorem after_credential_of_not_mem (h : Target.credential ∉ targets cs) :
    (v.after cs).credential = v.credential ∧ (v.after cs).generated = v.generated := by
  induction cs generalizing v with
  | nil => exact ⟨rfl, rfl⟩
  | cons c cs ih =>
    simp only [targets, List.map_cons, List.mem_cons, not_or] at h
    obtain ⟨h₁, h₂⟩ := ih (v := c.apply v) h.2
    cases c with
    | place | bind => exact ⟨h₁, h₂⟩
    | rekey => exact absurd rfl h.1

theorem after_credential_of_mem {old key : SecretBytes} (hn : (targets cs).Nodup)
    (h : Change.rekey old key ∈ cs) :
    (v.after cs).credential = key ∧ (v.after cs).generated = true := by
  induction cs generalizing v with
  | nil => cases h
  | cons c cs ih =>
    simp only [targets, List.map_cons, List.nodup_cons] at hn
    rcases List.mem_cons.mp h with rfl | h
    · exact after_credential_of_not_mem hn.1
    · exact ih hn.2 h

theorem after_lockoutAuth_of_not_mem (h : Target.lockout ∉ targets cs) :
    (v.after cs).lockoutAuth = v.lockoutAuth ∧ (v.after cs).attempts = v.attempts := by
  induction cs generalizing v with
  | nil => exact ⟨rfl, rfl⟩
  | cons c cs ih =>
    simp only [targets, List.map_cons, List.mem_cons, not_or] at h
    obtain ⟨h₁, h₂⟩ := ih (v := c.apply v) h.2
    cases c with
    | place | rekey => exact ⟨h₁, h₂⟩
    | bind => exact absurd rfl h.1

theorem after_lockoutAuth_of_mem {auth : SecretBytes} (hn : (targets cs).Nodup)
    (h : Change.bind auth ∈ cs) : (v.after cs).lockoutAuth = auth ∧
      (v.after cs).attempts = ([], v.lockoutAuth) :: v.attempts := by
  induction cs generalizing v with
  | nil => cases h
  | cons c cs ih =>
    simp only [targets, List.map_cons, List.nodup_cons] at hn
    rcases List.mem_cons.mp h with rfl | hbind
    · exact after_lockoutAuth_of_not_mem hn.1
    · obtain ⟨h₁, h₂⟩ := ih (v := c.apply v) hn.2 hbind
      cases c with
      | place | rekey => exact ⟨h₁, h₂⟩
      | bind auth' => exact absurd (mem_targets_lockout.2 ⟨auth, hbind⟩) hn.1

/-- Each placement is recorded with what it replaced, and nothing else happens. -/
theorem after_events (hn : (targets cs).Nodup) :
    ∃ new, (v.after cs).events = new ++ v.events ∧ ∀ e, e ∈ new ↔
      ∃ a b, Change.place a b ∈ cs ∧ e = .placed a (v.files a) (some (.file b 0o600)) := by
  induction cs generalizing v with
  | nil => exact ⟨[], rfl, by simp⟩
  | cons c cs ih =>
    simp only [targets, List.map_cons, List.nodup_cons] at hn
    obtain ⟨new, hnew, hmem⟩ := ih (v := c.apply v) hn.2
    cases c with
    | bind | rekey =>
      refine ⟨new, hnew, ?_⟩
      simp only [List.mem_cons, reduceCtorEq, false_or]
      exact hmem
    | place a₀ b₀ =>
      refine ⟨new ++ [.placed a₀ (v.files a₀) (some (.file b₀ 0o600))], by
        rw [after_cons, hnew, List.append_assoc]; rfl, fun e => ?_⟩
      have hother : ∀ a b, Change.place a b ∈ cs → (Change.apply (.place a₀ b₀) v).files a =
          v.files a := fun a b hab => Function.update_of_ne (fun heq : a = a₀ => hn.1
          (mem_targets_file.2 ⟨b, heq ▸ hab⟩)) _ _
      rw [List.mem_append, List.mem_singleton, hmem]
      constructor
      · rintro (⟨a, b, hab, rfl⟩ | rfl)
        · exact ⟨a, b, List.mem_cons_of_mem _ hab, by rw [hother a b hab]⟩
        · exact ⟨a₀, b₀, List.mem_cons_self, rfl⟩
      · rintro ⟨a, b, hab, rfl⟩
        rcases List.mem_cons.mp hab with heq | hab
        · cases heq
          exact .inr rfl
        · exact .inl ⟨a, b, hab, by rw [hother a b hab]⟩

end View

/-! ## What is recorded -/

/-- The artifact, up to the user of a template. -/
def Artifact.kind : Artifact → Artifact
  | template _ => template ""
  | a => a

namespace Tx

/-- What is recorded after some changes. -/
def after (t : Tx) (cs : List Change) : Tx := cs.foldl (fun t c => c.record t) t

/-- Whether a file is recorded as written. -/
def flag (tx : Tx) : Artifact → Bool
  | .recovery => tx.recoveryWritten
  | .metadata => tx.metadataWritten
  | .metadataFace => tx.faceMetadataWritten
  | .faceKey => tx.faceKeyWritten
  | .template _ => tx.faceStoreEnrolled
  | .lockoutOwned => false

theorem mem_recordedFile {written : Bool} {a b : Artifact} :
    a ∈ recordedFile written b ↔ written = true ∧ a = b := by
  cases written <;> simp [recordedFile]

theorem mem_written {tx : Tx} {face : Option String} {a : Artifact} :
    a ∈ tx.written face ↔ tx.flag a = true ∧ ∀ u, a = .template u → face = some u := by
  cases face <;> cases a <;>
    simp [written, enrolledTemplate, mem_recordedFile, flag]
  exact fun _ => eq_comm

theorem flag_record {t : Tx} {c : Change} {a : Artifact} :
    (c.record t).flag a = true ↔
      t.flag a = true ∨ a ≠ .lockoutOwned ∧ ∃ a' b, c = .place a' b ∧ a'.kind = a.kind := by
  cases c with
  | place a' b => cases a' <;> cases a <;> simp [Change.record, flag, Artifact.kind]
  | bind | rekey => cases a <;> simp [Change.record, flag]

theorem flag_after {t : Tx} {cs : List Change} {a : Artifact} :
    (t.after cs).flag a = true ↔ t.flag a = true ∨
      a ≠ .lockoutOwned ∧ ∃ a' b, Change.place a' b ∈ cs ∧ a'.kind = a.kind := by
  induction cs generalizing t with
  | nil => simp [after]
  | cons c cs ih =>
    have := ih (t := c.record t)
    rw [flag_record] at this
    refine this.trans ?_
    constructor
    · rintro ((h | ⟨hne, a', b, rfl, hk⟩) | ⟨hne, a', b, hmem, hk⟩)
      · exact .inl h
      · exact .inr ⟨hne, a', b, List.mem_cons_self, hk⟩
      · exact .inr ⟨hne, a', b, List.mem_cons_of_mem _ hmem, hk⟩
    · rintro (h | ⟨hne, a', b, hmem, hk⟩)
      · exact .inl (.inl h)
      · rcases List.mem_cons.mp hmem with rfl | hmem
        · exact .inl (.inr ⟨hne, a', b, rfl, hk⟩)
        · exact .inr ⟨hne, a', b, hmem, hk⟩

theorem after_newKey_of_not_mem {t : Tx} {cs : List Change} (h : Target.credential ∉ targets cs) :
    (t.after cs).newKey = t.newKey := by
  induction cs generalizing t with
  | nil => rfl
  | cons c cs ih =>
    simp only [targets, List.map_cons, List.mem_cons, not_or] at h
    refine (ih (t := c.record t) h.2).trans ?_
    cases c with
    | place a b => cases a <;> rfl
    | bind => rfl
    | rekey => exact absurd rfl h.1

theorem after_newKey_of_mem {t : Tx} {cs : List Change} {old key : SecretBytes}
    (hn : (targets cs).Nodup) (h : Change.rekey old key ∈ cs) :
    (t.after cs).newKey = some key := by
  induction cs generalizing t with
  | nil => cases h
  | cons c cs ih =>
    simp only [targets, List.map_cons, List.nodup_cons] at hn
    rcases List.mem_cons.mp h with rfl | h
    · exact after_newKey_of_not_mem hn.1
    · exact ih hn.2 h

theorem after_lockoutAuth_of_not_mem {t : Tx} {cs : List Change} (h : Target.lockout ∉ targets cs) :
    (t.after cs).lockoutAuth = t.lockoutAuth := by
  induction cs generalizing t with
  | nil => rfl
  | cons c cs ih =>
    simp only [targets, List.map_cons, List.mem_cons, not_or] at h
    refine (ih (t := c.record t) h.2).trans ?_
    cases c with
    | place a b => cases a <;> rfl
    | rekey => rfl
    | bind => exact absurd rfl h.1

theorem after_lockoutAuth_of_mem {t : Tx} {cs : List Change} {auth : SecretBytes}
    (hn : (targets cs).Nodup) (h : Change.bind auth ∈ cs) :
    (t.after cs).lockoutAuth = some auth := by
  induction cs generalizing t with
  | nil => cases h
  | cons c cs ih =>
    simp only [targets, List.map_cons, List.nodup_cons] at hn
    rcases List.mem_cons.mp h with rfl | h
    · exact after_lockoutAuth_of_not_mem hn.1
    · exact ih hn.2 h

end Tx

/-! ## The place of the stop -/

/-- What a change that fails leaves of `w`, and the events it records, when `v` is what the
transaction started in. -/
def Change.Leaves (v w : View) : Change → View → List Event → Prop
  | place a b, v', es => v' = (w.place a b).push (.unsynced a) ∧
    es = [.unsynced a, .placed a (v.files a) (some (.file b 0o600))]
  | bind auth, v', es =>
    v' = ((w.attempt []).setAuth auth).push (.authLate [] auth) ∧ es = [.authLate [] auth] ∨
      v' = (w.attempt []).push (.authRefused [] auth) ∧ es = [.authRefused [] auth]
  | rekey old key, v', es =>
    v' = (w.rekey key true).push (.rekeyLate old key) ∧ es = [.rekeyLate old key]

/-- The transaction of an enrollment started in `v` stopped in `v'`: the changes `done` are made
and recorded, and the next one may have left a trace. -/
structure Stopped (E : Primitives) (args : EnrollArgs) (v : View) (done rest : List Change)
    (v' : View) (tx : Tx) : Prop where
  split : plan E args v = done ++ rest
  valid : ∀ c ∈ done, Valid E args v.seed c
  recorded : tx = Tx.after {} done
  view : v' = v.after done ∨
    ∃ c rest', rest = c :: rest' ∧ Valid E args v.seed c ∧ c.spoil (v.after done) v'

/-- The files of a transaction that has stopped: those of the changes made, and perhaps one, `late`,
whose step failed after its rename. The events say which, and what was there before. -/
structure Placements (E : Primitives) (args : EnrollArgs) (v : View) (done : List Change) (v' : View)
    (es : List Event) (late : Option (Artifact × Bytes)) : Prop where
  events : v'.events = es ++ v.events
  spoiled : ∀ a b, late = some (a, b) → Target.file a ∉ targets done ∧
    Change.place a b ∈ plan E args v ∧ Valid E args v.seed (.place a b) ∧
    v'.files a = some (.file b 0o600)
  others : ∀ a, (∀ b, late ≠ some (a, b)) → v'.files a = (v.after done).files a
  placed : ∀ a was now, .placed a was now ∈ es ↔ was = v.files a ∧
    ∃ b, now = some (.file b 0o600) ∧ (Change.place a b ∈ done ∨ late = some (a, b))
  unsynced : ∀ a, .unsynced a ∈ es ↔ ∃ b, late = some (a, b)

theorem stopped_of_halted {E : Primitives} {args : EnrollArgs} {v v' : View} {tx : Tx}
    (h : (enrollment E args v.seed).Halted (plan E args v) v {} v' tx) :
    ∃ done rest, Stopped E args v done rest v' tx :=
  have ⟨done, rest, hsplit, hvalid, ht, hv⟩ := h.prefix
  ⟨done, rest, hsplit, hvalid, ht, hv⟩

namespace Stopped

variable {E : Primitives} {args : EnrollArgs} {v v' : View} {done rest : List Change} {tx : Tx}
  (hs : Stopped E args v done rest v' tx)

include hs

theorem nodup : (targets done).Nodup := by
  have h := nodup_targets_plan E args v
  rw [hs.split, targets, List.map_append] at h
  exact (List.nodup_append.mp h).1

theorem mem_plan {c : Change} (h : c ∈ done) : c ∈ plan E args v := by
  rw [hs.split]
  exact List.mem_append_left _ h

/-- The target of the next change has not been set. -/
theorem not_mem_targets {c : Change} {rest' : List Change} (hr : rest = c :: rest') :
    c.target ∉ targets done := by
  have h := nodup_targets_plan E args v
  rw [hs.split, targets, List.map_append, hr] at h
  exact fun hmem => (List.nodup_append.mp h).2.2 _ hmem _ (by simp) rfl

theorem next_mem_plan {c : Change} {rest' : List Change} (hr : rest = c :: rest') :
    c ∈ plan E args v := by
  rw [hs.split, hr]
  simp

/-- Once the credential is changed, everything is. -/
theorem rest_eq_nil (h : Target.credential ∈ targets done) : rest = [] := by
  obtain ⟨cs, hplan, hcs⟩ := plan_eq_append E args v
  rcases List.eq_nil_or_concat rest with rfl | ⟨rest', c, rfl⟩
  · rfl
  · have heq : done ++ rest' = cs := by
      have := hs.split.symm.trans hplan
      rw [List.concat_eq_append, ← List.append_assoc] at this
      exact (List.append_inj' this rfl).1
    exact absurd (by rw [← heq, targets, List.map_append]; exact List.mem_append_left _ h) hcs

theorem mem_written {a : Artifact} : a ∈ tx.written (args.face.map FaceEnroll.username) ↔
    a ≠ .lockoutOwned ∧ Target.file a ∈ targets done := by
  rw [Tx.mem_written, hs.recorded, Tx.flag_after, mem_targets_file]
  have huser : ∀ u b, Change.place (.template u) b ∈ done →
      args.face.map FaceEnroll.username = some u := fun u b h => mem_plan_template (hs.mem_plan h)
  constructor
  · rintro ⟨h | ⟨hne, a', b, hmem, hk⟩, hu⟩
    · cases a <;> cases h
    · refine ⟨hne, b, ?_⟩
      cases a with
      | template u =>
        cases a' with
        | template u' =>
          rw [← Option.some.inj ((hu u rfl).symm.trans (huser u' b hmem))] at hmem
          exact hmem
        | _ => cases hk
      | _ => cases a' <;> first | exact hmem | cases hk
  · rintro ⟨hne, b, hmem⟩
    exact ⟨.inr ⟨hne, a, b, hmem, rfl⟩, fun u ha => huser u b (ha ▸ hmem)⟩

/-- What the rollback does with the credential. -/
theorem newKey : (Target.credential ∉ targets done ∧ tx.newKey = none ∨
    Target.credential ∈ targets done ∧ rest = [] ∧ tx.newKey = some args.draws.key) := by
  rw [hs.recorded]
  by_cases h : Target.credential ∈ targets done
  · obtain ⟨old, key, hmem⟩ := mem_targets_credential.1 h
    obtain ⟨-, rfl⟩ := mem_plan_rekey (hs.mem_plan hmem)
    exact .inr ⟨h, hs.rest_eq_nil h, Tx.after_newKey_of_mem hs.nodup hmem⟩
  · exact .inl ⟨h, Tx.after_newKey_of_not_mem h⟩

/-- What the rollback does with the lockout hierarchy. -/
theorem lockoutAuth : (Target.lockout ∉ targets done ∧ tx.lockoutAuth = none ∨
    Target.lockout ∈ targets done ∧ v.lockoutAuth = [] ∧
      tx.lockoutAuth = some (lockoutAuthOf E args.draws.recoverySecret)) := by
  rw [hs.recorded]
  by_cases h : Target.lockout ∈ targets done
  · obtain ⟨auth, hmem⟩ := mem_targets_lockout.1 h
    obtain ⟨hfree, rfl⟩ := mem_plan_bind (hs.mem_plan hmem)
    exact .inr ⟨h, hfree, Tx.after_lockoutAuth_of_mem hs.nodup hmem⟩
  · exact .inl ⟨h, Tx.after_lockoutAuth_of_not_mem h⟩

/-- What a step that fails leaves does not concern what is recorded. -/
theorem holds : Holds tx v' := by
  rintro derived hd
  rcases hs.lockoutAuth with ⟨-, hnone⟩ | ⟨hmem, -, hsome⟩
  · rw [hnone] at hd
    cases hd
  obtain rfl := Option.some.inj (hsome.symm.trans hd)
  refine ⟨(deriveLockoutAuth_ok E _).2.le, ?_⟩
  obtain ⟨auth, hauth⟩ := mem_targets_lockout.1 hmem
  have hafter := View.after_lockoutAuth_of_mem (v := v) hs.nodup hauth
  obtain ⟨-, rfl⟩ := mem_plan_bind (hs.mem_plan hauth)
  rcases hs.view with rfl | ⟨c, rest', hr, -, hspoil⟩
  · exact hafter.1
  · have hc := hs.not_mem_targets hr
    cases c with
    | place a b =>
      obtain rfl := hspoil
      exact hafter.1
    | rekey old key =>
      obtain rfl := hspoil
      exact hafter.1
    | bind auth => exact absurd hmem hc

/-- What is recorded of the transaction: a placement for each file of the changes made, and the
trace of the next change when it failed. -/
theorem events : ∃ trace placed, v'.events = trace ++ placed ++ v.events ∧
    (∀ e, e ∈ placed ↔ ∃ a b, Change.place a b ∈ done ∧
      e = .placed a (v.files a) (some (.file b 0o600))) ∧
    (trace = [] ∧ v' = v.after done ∨ ∃ c rest', rest = c :: rest' ∧ Valid E args v.seed c ∧
      c.Leaves v (v.after done) v' trace) := by
  obtain ⟨placed, hplaced, hmem⟩ := View.after_events (v := v) hs.nodup
  rcases hs.view with rfl | ⟨c, rest', hr, hvalid, hspoil⟩
  · exact ⟨[], placed, hplaced, hmem, .inl ⟨rfl, rfl⟩⟩
  · obtain ⟨trace, htrace, hev⟩ : ∃ trace, c.Leaves v (v.after done) v' trace ∧
        v'.events = trace ++ (v.after done).events := by
      cases c with
      | place a b =>
        obtain rfl := hspoil
        refine ⟨_, ⟨rfl, rfl⟩, ?_⟩
        rw [← View.after_files_of_not_mem (v := v) (hs.not_mem_targets hr)]
        rfl
      | bind auth =>
        rcases hspoil with rfl | rfl
        · exact ⟨_, .inl ⟨rfl, rfl⟩, rfl⟩
        · exact ⟨_, .inr ⟨rfl, rfl⟩, rfl⟩
      | rekey old key =>
        obtain rfl := hspoil
        exact ⟨_, ⟨rfl, rfl⟩, rfl⟩
    exact ⟨trace, placed, by rw [hev, hplaced, List.append_assoc], hmem,
      .inr ⟨c, rest', hr, hvalid, htrace⟩⟩

/-- The credential where the transaction stopped: unchanged, changed by a rekey that was reported as
failed, or changed with everything else in place. The events say which. -/
theorem credential : ∃ es, v'.events = es ++ v.events ∧
    ((tx.newKey = none ∧ v'.credential = v.credential ∧ v'.generated = v.generated ∧
      ∀ o n, Event.rekeyLate o n ∉ es) ∨
    (tx.newKey = none ∧ v'.credential = args.draws.key ∧ v'.generated = true ∧
      Event.rekeyLate args.old args.draws.key ∈ es) ∨
    (tx.newKey = some args.draws.key ∧ v' = v.after (plan E args v) ∧
      (∀ c ∈ plan E args v, Valid E args v.seed c) ∧ ∀ o n, Event.rekeyLate o n ∉ es)) := by
  obtain ⟨trace, placed, hev, hplaced, htrace⟩ := hs.events
  have hnone : ∀ o n, Event.rekeyLate o n ∉ placed := fun o n h => by
    obtain ⟨_, _, _, h⟩ := (hplaced _).1 h
    cases h
  refine ⟨trace ++ placed, hev, ?_⟩
  rcases hs.newKey with ⟨hmem, hn⟩ | ⟨hmem, hrest, hn⟩
  · obtain ⟨hc, hg⟩ := View.after_credential_of_not_mem (v := v) hmem
    rcases htrace with ⟨rfl, rfl⟩ | ⟨c, rest', hr, -, hleaves⟩
    · exact .inl ⟨hn, hc, hg, hnone⟩
    · cases c with
      | place a b =>
        obtain ⟨rfl, rfl⟩ := hleaves
        exact .inl ⟨hn, hc, hg, by simpa using hnone⟩
      | bind auth =>
        rcases hleaves with ⟨rfl, rfl⟩ | ⟨rfl, rfl⟩ <;>
          exact .inl ⟨hn, hc, hg, by simpa using hnone⟩
      | rekey old key =>
        obtain ⟨rfl, rfl⟩ := hleaves
        obtain ⟨rfl, rfl⟩ := mem_plan_rekey (hs.next_mem_plan hr)
        exact .inr (.inl ⟨hn, rfl, rfl, by simp⟩)
  · have hsplit := hs.split
    rw [hrest, List.append_nil] at hsplit
    rcases htrace with ⟨rfl, rfl⟩ | ⟨c, rest', hr, -⟩
    · exact .inr (.inr ⟨hn, by rw [hsplit], hsplit ▸ hs.valid, hnone⟩)
    · rw [hrest] at hr
      cases hr

/-- The transaction has a new credential only where everything else is in place. -/
theorem of_newKey {key : SecretBytes} (hk : tx.newKey = some key) :
    args.draws.key = key ∧ v' = v.after (plan E args v) := by
  obtain ⟨-, -, ⟨hn, -⟩ | ⟨hn, -⟩ | ⟨hn, hplan, -⟩⟩ := hs.credential
  · rw [hn] at hk
    cases hk
  · rw [hn] at hk
    cases hk
  · exact ⟨Option.some.inj (hn.symm.trans hk), hplan⟩

/-- The lockout authValue where the transaction stopped: unchanged, changed by a call that was
reported as failed, or changed and recorded. -/
theorem lockout : ∃ es, v'.events = es ++ v.events ∧
    (∀ auth, auth ≠ [] → Event.authRefused auth [] ∉ es) ∧
    ((tx.lockoutAuth = none ∧ v'.lockoutAuth = v.lockoutAuth ∧
      ∀ auth, Event.authLate [] auth ∉ es) ∨
    (tx.lockoutAuth = none ∧ v.lockoutAuth = [] ∧
      v'.lockoutAuth = lockoutAuthOf E args.draws.recoverySecret ∧
      Event.authLate [] (lockoutAuthOf E args.draws.recoverySecret) ∈ es) ∨
    (tx.lockoutAuth = some (lockoutAuthOf E args.draws.recoverySecret) ∧ v.lockoutAuth = [] ∧
      v'.lockoutAuth = lockoutAuthOf E args.draws.recoverySecret ∧
      ∀ auth, Event.authLate [] auth ∉ es)) := by
  obtain ⟨trace, placed, hev, hplaced, htrace⟩ := hs.events
  have hlate : ∀ auth, Event.authLate [] auth ∉ placed := fun auth h => by
    obtain ⟨_, _, _, h⟩ := (hplaced _).1 h
    cases h
  have hrefused : ∀ auth, Event.authRefused auth [] ∉ placed := fun auth h => by
    obtain ⟨_, _, _, h⟩ := (hplaced _).1 h
    cases h
  refine ⟨trace ++ placed, hev, ?_⟩
  rcases hs.lockoutAuth with ⟨hmem, hn⟩ | ⟨hmem, hfree, hsome⟩
  · have ha := (View.after_lockoutAuth_of_not_mem (v := v) hmem).1
    rcases htrace with ⟨rfl, rfl⟩ | ⟨c, rest', hr, -, hleaves⟩
    · exact ⟨fun auth _ => hrefused auth, .inl ⟨hn, ha, hlate⟩⟩
    · cases c with
      | place | rekey =>
        obtain ⟨rfl, rfl⟩ := hleaves
        exact ⟨by simpa using fun auth _ => hrefused auth, .inl ⟨hn, ha, by simpa using hlate⟩⟩
      | bind auth =>
        obtain ⟨hfree, rfl⟩ := mem_plan_bind (hs.next_mem_plan hr)
        rcases hleaves with ⟨rfl, rfl⟩ | ⟨rfl, rfl⟩
        · exact ⟨by simpa using fun auth _ => hrefused auth, .inr (.inl ⟨hn, hfree, rfl, by simp⟩)⟩
        · refine ⟨fun auth hne => ?_, .inl ⟨hn, ha, by simpa using hlate⟩⟩
          simp [hrefused, hne]
  · have hheld := (hs.holds _ hsome).2
    rcases htrace with ⟨rfl, -⟩ | ⟨c, rest', hr, -, hleaves⟩
    · exact ⟨fun auth _ => hrefused auth, .inr (.inr ⟨hsome, hfree, hheld, hlate⟩)⟩
    · cases c with
      | place | rekey =>
        obtain ⟨-, rfl⟩ := hleaves
        exact ⟨by simpa using fun auth _ => hrefused auth,
          .inr (.inr ⟨hsome, hfree, hheld, by simpa using hlate⟩)⟩
      | bind auth => exact absurd hmem (hs.not_mem_targets hr)

/-- The files where the transaction stopped. -/
theorem placements : ∃ es late, Placements E args v done v' es late := by
  obtain ⟨trace, placed, hev, hplaced, htrace⟩ := hs.events
  have hmem : ∀ a was now, Event.placed a was now ∈ placed ↔ was = v.files a ∧
      ∃ b, now = some (.file b 0o600) ∧ Change.place a b ∈ done := fun a was now => by
    rw [hplaced]
    constructor
    · rintro ⟨a', b, hb, he⟩
      obtain ⟨rfl, rfl, rfl⟩ := Event.placed.inj he
      exact ⟨rfl, b, rfl, hb⟩
    · rintro ⟨rfl, b, rfl, hb⟩
      exact ⟨a, b, hb, rfl⟩
  have hsync : ∀ a, Event.unsynced a ∉ placed := fun a h => by
    obtain ⟨_, _, _, h⟩ := (hplaced _).1 h
    cases h
  have hquiet (h₁ : ∀ a was now, Event.placed a was now ∉ trace)
      (h₂ : ∀ a, Event.unsynced a ∉ trace) (hf : v'.files = (v.after done).files) :
      ∃ es late, Placements E args v done v' es late :=
    ⟨trace ++ placed, none, hev, by simp, fun a _ => by rw [hf], fun a was now => by
      simp [h₁, hmem], fun a => by simp [h₂, hsync]⟩
  rcases htrace with ⟨rfl, rfl⟩ | ⟨c, rest', hr, hvalid, hleaves⟩
  · exact hquiet (by simp) (by simp) rfl
  · cases c with
    | place a₀ b₀ =>
      obtain ⟨rfl, rfl⟩ := hleaves
      have hnot : Target.file a₀ ∉ targets done := hs.not_mem_targets hr
      refine ⟨_, some (a₀, b₀), hev, ?_, fun a ha => ?_, fun a was now => ?_, fun a => ?_⟩
      · rintro a b h
        obtain ⟨rfl, rfl⟩ := Prod.mk.inj (Option.some.inj h)
        exact ⟨hnot, hs.next_mem_plan hr, hvalid, View.files_place_self ..⟩
      · exact View.files_place_of_ne _ _ fun h => ha b₀ (by rw [h])
      · simp only [List.cons_append, List.nil_append, List.mem_cons, reduceCtorEq, false_or, hmem,
          Event.placed.injEq, Option.some.injEq, Prod.mk.injEq]
        constructor
        · rintro (⟨rfl, rfl, rfl⟩ | ⟨rfl, b, rfl, hb⟩)
          · exact ⟨rfl, b₀, rfl, .inr ⟨rfl, rfl⟩⟩
          · exact ⟨rfl, b, rfl, .inl hb⟩
        · rintro ⟨rfl, b, rfl, hb | ⟨rfl, rfl⟩⟩
          · exact .inr ⟨rfl, b, rfl, hb⟩
          · exact .inl ⟨rfl, rfl, rfl⟩
      · simp [hsync, eq_comm]
    | bind auth =>
      rcases hleaves with ⟨rfl, rfl⟩ | ⟨rfl, rfl⟩ <;> exact hquiet (by simp) (by simp) rfl
    | rekey old key =>
      obtain ⟨rfl, rfl⟩ := hleaves
      exact hquiet (by simp) (by simp) rfl

end Stopped

section Plan

variable {E : Primitives} {args : EnrollArgs} {v : View}

/-- After the whole plan, the credential is the generated key. -/
theorem after_plan_credential :
    (v.after (plan E args v)).credential = args.draws.key ∧
      (v.after (plan E args v)).generated = true :=
  View.after_credential_of_mem (nodup_targets_plan E args v)
    (show rekeyStep args ∈ plan E args v by simp [plan])

/-- After the whole plan, a lockout hierarchy that was free is bound, and marked. -/
theorem after_plan_lockout (hfree : v.lockoutAuth = []) :
    (v.after (plan E args v)).lockoutAuth = lockoutAuthOf E args.draws.recoverySecret ∧
      (v.after (plan E args v)).files .lockoutOwned = some (.file [] 0o600) := by
  have hbind : Change.bind (lockoutAuthOf E args.draws.recoverySecret) ∈ plan E args v := by
    simp [plan, lockoutSteps, hfree]
  have hmark : Change.place .lockoutOwned [] ∈ plan E args v := by
    simp [plan, lockoutSteps, hfree]
  exact ⟨(View.after_lockoutAuth_of_mem (nodup_targets_plan E args v) hbind).1,
    View.after_files_of_mem (nodup_targets_plan E args v) hmark⟩

/-- After the whole plan, the recovery blob is there. -/
theorem after_plan_recovery (hv : ∀ c ∈ plan E args v, Valid E args v.seed c) :
    ∃ b, (v.after (plan E args v)).files .recovery = some (.file b 0o600) ∧
      blobBytes E args.draws = some b := by
  have hmem : recoveryStep E args ∈ plan E args v := by simp [plan]
  exact ⟨_, View.after_files_of_mem (nodup_targets_plan E args v) hmem, hv _ hmem⟩

/-- After the whole plan, the sealed metadata is there. -/
theorem after_plan_metadata (hv : ∀ c ∈ plan E args v, Valid E args v.seed c) :
    ∃ b, (v.after (plan E args v)).files .metadata = some (.file b 0o600) ∧
      sealedBytes E v.seed args.draws.pinEntropy args.pin args.draws.key = some b := by
  have hmem : metadataStep E args v.seed ∈ plan E args v := by simp [plan]
  exact ⟨_, View.after_files_of_mem (nodup_targets_plan E args v) hmem, hv _ hmem⟩

end Plan

end Tess

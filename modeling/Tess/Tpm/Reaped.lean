import Tess.Effects.Loops
import Tess.Enroll.Sample
import Tess.Tpm.Reset

/-!
# What a reset comes to

The calls of a reset and the moves of the child interleave in any order. Throughout, what was done to
the TPM is what the child has presented, and it presents no more than once, and nothing but a first
part of the authValue. A reset that reports success has presented all of it, and the counter is zero;
one that fails may have come too late to stop the child. Either way the child has exited and was
waited for, and the deadline was kept.
-/

namespace Tess

namespace Reset

open Files Effects

/-- What a program comes to, whatever the child does and whichever call fails. -/
abbrev Run {α : Type} (x : Io α) (Q : α → World → Prop) (F : Stop Error → World → Prop)
    (w : World) : Prop :=
  wpe machine Eq (fun _ _ => True) x Q F w

/-! ## The moves of the child -/

/-- What was done to the TPM is what the child has presented. -/
structure Sound (auth : SecretBytes) (w₀ w : World) (c : Child) : Prop where
  child : w.child = some c
  input : c.input <+: auth
  closed : c.presented ≠ none → c.closed = true
  before : c.presented = none → w.tpm = w₀.tpm ∧ w.attempts = w₀.attempts
  attempts : c.presented ≠ none → w.attempts = (c.input, w₀.tpm.lockoutAuth) :: w₀.attempts
  refused : c.presented = some false → w.tpm = w₀.tpm
  done : c.presented = some true → w.tpm = cleared w₀.tpm ∧ c.input = w₀.tpm.lockoutAuth
  success : ∀ s, c.status = some s → s.success = true → c.presented = some true

/-- How a child goes on. -/
structure Goes (c c' : Child) : Prop where
  input : c'.input = c.input
  closed : c'.closed = c.closed
  presented : c.presented ≠ none → c'.presented = c.presented
  status : ∀ s, c.status = some s → c'.status = some s
  reaped : c'.reaped = c.reaped

section Moves

variable {auth : SecretBytes} {w₀ w w' : World} {c c' : Child}

theorem Goes.refl (c : Child) : Goes c c := ⟨rfl, rfl, fun _ => rfl, fun _ => id, rfl⟩

theorem Goes.trans {c'' : Child} (h : Goes c c') (h' : Goes c' c'') : Goes c c'' where
  input := h'.input.trans h.input
  closed := h'.closed.trans h.closed
  presented hp := by rw [h'.presented (by rwa [h.presented hp]), h.presented hp]
  status s hs := h'.status s (h.status s hs)
  reaped := h'.reaped.trans h.reaped

theorem Sound.move (h : Sound auth w₀ w c) (hm : Move w w') :
    ∃ c', Sound auth w₀ w' c' ∧ Goes c c' := by
  cases hm with
  | tick t => exact ⟨c, { h with }, .refl c⟩
  | present done hc hrun hclosed honce hauth =>
    obtain rfl := Option.some.inj (h.child.symm.trans hc)
    obtain ⟨htpm, hatt⟩ := h.before honce
    refine ⟨_, ⟨rfl, h.input, fun _ => hclosed, nofun, fun _ => ?_, ?_, ?_, ?_⟩,
      ⟨rfl, rfl, fun hp => absurd honce hp, fun _ => id, rfl⟩⟩
    · change (c.input, w.tpm.lockoutAuth) :: w.attempts = _
      rw [htpm, hatt]
    · intro hd
      obtain rfl := Option.some.inj hd
      exact htpm
    · intro hd
      obtain rfl := Option.some.inj hd
      exact ⟨congrArg cleared htpm, htpm ▸ hauth rfl⟩
    · intro s hs
      cases hrun.symm.trans hs
  | exit status hc hrun hdone =>
    obtain rfl := Option.some.inj (h.child.symm.trans hc)
    refine ⟨_, { h with child := rfl, success := ?_ }, ⟨rfl, rfl, fun _ => rfl, ?_, rfl⟩⟩
    · intro s hs hsuccess
      obtain rfl := Option.some.inj hs
      exact hdone hsuccess
    · intro s hs
      cases hrun.symm.trans hs

/-- Between two calls, the child goes on. -/
theorem Sound.moves (h : Sound auth w₀ w c) (hm : Relation.ReflTransGen Move w w') :
    ∃ c', Sound auth w₀ w' c' ∧ Goes c c' := by
  induction hm with
  | refl => exact ⟨c, h, .refl c⟩
  | tail _ hstep ih =>
    obtain ⟨c₁, h₁, hgoes⟩ := ih
    obtain ⟨c₂, h₂, hnext⟩ := h₁.move hstep
    exact ⟨c₂, h₂, hgoes.trans hnext⟩

/-- Between two calls, time passes that nobody has slept. -/
theorem clock_moves (hm : Relation.ReflTransGen Move w w') :
    w.clock ≤ w'.clock ∧ w'.slept = w.slept := by
  induction hm with
  | refl => exact ⟨le_rfl, rfl⟩
  | tail _ hstep ih =>
    cases hstep with
    | tick t => exact ⟨ih.1.trans (Nat.le_add_right ..), ih.2⟩
    | present => exact ih
    | exit => exact ih

/-- Before the child is there, nothing moves but the clock. -/
theorem childless_moves (hm : Relation.ReflTransGen Move w w') (h : w.child = none) :
    w'.child = none ∧ w'.tpm = w.tpm ∧ w'.attempts = w.attempts := by
  induction hm with
  | refl => exact ⟨h, rfl, rfl⟩
  | tail _ hstep ih =>
    cases hstep with
    | tick t => exact ih
    | present done hc => cases ih.1.symm.trans hc
    | exit status hc => cases ih.1.symm.trans hc

end Moves

/-! ## Calls -/

/-- The child is sound and as `P` says, and of the time that may be slept `n` is left. -/
structure Holds (auth : SecretBytes) (w₀ : World) (n : ℕ) (P : Child → Prop) (w : World) : Prop where
  child : ∃ c, Sound auth w₀ w c ∧ P c
  slept : w.slept + n ≤ w₀.slept + resetTimeout

/-- What stays true of a child that goes on. -/
def Stable (P : Child → Prop) : Prop := ∀ c c', Goes c c' → P c → P c'

section Calls

variable {auth : SecretBytes} {w₀ w w' : World} {n : ℕ} {P P' : Child → Prop}

theorem Holds.mono (h : Holds auth w₀ n P w) (hP : ∀ c, P c → P' c) : Holds auth w₀ n P' w := by
  obtain ⟨⟨c, hc, hp⟩, hs⟩ := h
  exact ⟨⟨c, hc, hP c hp⟩, hs⟩

theorem Holds.later {m : ℕ} (h : Holds auth w₀ n P w) (hm : m ≤ n) : Holds auth w₀ m P w :=
  ⟨h.child, (Nat.add_le_add_left hm _).trans h.slept⟩

theorem Holds.moves (h : Holds auth w₀ n P w) (hP : Stable P)
    (hm : Relation.ReflTransGen Move w w') : Holds auth w₀ n P w' := by
  obtain ⟨⟨c, hc, hp⟩, hs⟩ := h
  obtain ⟨c', hc', hgoes⟩ := hc.moves hm
  refine ⟨⟨c', hc', hP c c' hgoes hp⟩, ?_⟩
  rw [(clock_moves hm).2]
  exact hs

/-- A call finds the child gone on. -/
theorem run_ask {α : Type} {o : Op} {f : o.Res → Except (Stop Error) α} {Q : α → World → Prop}
    {F : Stop Error → World → Prop} (hP : Stable P) (h : Holds auth w₀ n P w)
    (hcall : ∀ c : Choice, w.clock ≤ c.before.clock → Possible c.before o →
      Holds auth w₀ n P c.before → outcome Q F (f (exec o c).1) (exec o c).2) :
    Run (ask o f) Q F w := by
  refine wpe_ask ?_
  rintro w rfl c ⟨hm, hposs⟩
  exact ⟨trivial, hcall c (clock_moves hm).1 hposs (h.moves hP hm)⟩

/-- What the call does to a child. -/
theorem Holds.onChild (h : Holds auth w₀ n P w) {f : Child → Child}
    (hf : ∀ c, Sound auth w₀ w c → P c → Sound auth w₀ (w.onChild f) (f c) ∧ P' (f c)) :
    Holds auth w₀ n P' (w.onChild f) := by
  obtain ⟨⟨c, hc, hp⟩, hs⟩ := h
  exact ⟨⟨f c, hf c hc hp⟩, hs⟩

/-- The same, when the program goes on with the answer. -/
theorem run_ask_bind {α β : Type} {o : Op} {f : o.Res → Except (Stop Error) α} {g : α → Io β}
    {Q : β → World → Prop} {F : Stop Error → World → Prop} (hP : Stable P) (h : Holds auth w₀ n P w)
    (hcall : ∀ c : Choice, w.clock ≤ c.before.clock → Possible c.before o →
      Holds auth w₀ n P c.before →
      outcome (fun a => Run (g a) Q F) F (f (exec o c).1) (exec o c).2) :
    Run (ask o f >>= g) Q F w :=
  (wpe_bind ..).2 (run_ask hP h hcall)

/-- The reset has failed, and was not cut short. -/
def Over (auth : SecretBytes) (w₀ : World) (e : Stop Error) (w : World) : Prop :=
  e ≠ .running ∧ Holds auth w₀ 0 (fun _ => True) w

theorem Holds.over (h : Holds auth w₀ n P w) (e : Error) : Over auth w₀ (.failed e) w :=
  ⟨nofun, (h.later (Nat.zero_le n)).mono fun _ _ => trivial⟩

theorem Sound.reap {c : Child} (h : Sound auth w₀ w c) (f : Child → Bool) :
    Sound auth w₀ (w.onChild fun x => { x with reaped := f x }) { c with reaped := f c } :=
  { h with child := congrArg (Option.map _) h.child }

end Calls

/-! ## Feeding the child -/

/-- The child was spawned just now. -/
def Fresh (c : Child) : Prop := c.input = [] ∧ c.closed = false

/-- The child has got the authValue. -/
def Fed (auth : SecretBytes) (c : Child) : Prop := c.input = auth ∧ c.closed = true

/-- The child has exited with success. -/
def Succeeded (auth : SecretBytes) (c : Child) : Prop :=
  c.input = auth ∧ c.presented = some true

section Feed

variable {auth : SecretBytes} {w₀ w : World} {n : ℕ}

theorem stable_true : Stable fun _ => True := fun _ _ _ _ => trivial

theorem stable_fresh : Stable Fresh := fun _ _ hgoes hc =>
  ⟨hgoes.input.trans hc.1, hgoes.closed.trans hc.2⟩

theorem stable_fed : Stable (Fed auth) := fun _ _ hgoes hc =>
  ⟨hgoes.input.trans hc.1, hgoes.closed.trans hc.2⟩

theorem stable_succeeded : Stable (Succeeded auth) := fun c c' hgoes hc =>
  ⟨hgoes.input.trans hc.1, (hgoes.presented (by rw [hc.2]; nofun)).trans hc.2⟩

/-- Some of the authValue is written. -/
def Written (input : Bytes) (c : Child) : Prop := c.input = input ∧ c.closed = false

theorem stable_written {input : Bytes} : Stable (Written input) := fun _ _ hgoes hc =>
  ⟨hgoes.input.trans hc.1, hgoes.closed.trans hc.2⟩

theorem Holds.write (h : Holds auth w₀ n Fresh w) {bytes : Bytes} (hb : bytes <+: auth) :
    Holds auth w₀ n (Written bytes) (w.onChild fun x => { x with input := x.input ++ bytes }) := by
  refine h.onChild fun c hc hp => ?_
  have hinput : c.input ++ bytes = bytes := by rw [hp.1, List.nil_append]
  have honce : c.presented = none := by
    by_contra hne
    cases (hc.closed hne).symm.trans hp.2
  have hwritten : c.input ++ bytes <+: auth := by rwa [hinput]
  refine ⟨?_, hinput, hp.2⟩
  exact
    { hc with
      child := congrArg (Option.map _) hc.child
      input := hwritten
      attempts := fun hne => absurd honce hne
      done := fun hd => nomatch honce.symm.trans hd }

theorem Holds.close {input : Bytes} (h : Holds auth w₀ n (Written input) w) :
    Holds auth w₀ n (Fed input) (w.onChild fun x => { x with closed := true }) :=
  h.onChild fun _ hc hp =>
    ⟨{ hc with child := congrArg (Option.map _) hc.child, closed := fun _ => rfl }, hp.1, rfl⟩

/-- To feed the child comes to its having the authValue, or a first part of it. -/
theorem feed_run (h : Holds auth w₀ n Fresh w) :
    Run (feed auth) (fun _ => Holds auth w₀ n (Fed auth)) (Over auth w₀) w := by
  unfold feed
  refine run_ask_bind stable_fresh h fun c _ _ hfresh => ?_
  refine (wpe_bind ..).2 ((wpe_ensure ..).2 ⟨fun _ => ?_, fun _ => hfresh.over _⟩)
  -- What was written decides what the child has when its standard input is closed.
  refine wpe_ensuring (run_ask stable_fresh hfresh fun c _ _ hw => ?_)
  unfold exec
  cases c.fault with
  | none =>
    have hall := hw.write List.prefix_rfl
    exact run_ask stable_written hall fun c _ _ hc => hc.close
  | some e =>
    have hpart := hw.write (List.take_prefix c.written auth)
    refine ⟨nofun, fun _ => run_ask stable_written hpart fun c _ _ hc => ?_⟩
    exact hc.close.over _

end Feed

/-! ## Waiting for the child -/

section Wait

variable {auth : SecretBytes} {w₀ w : World} {n started rounds : ℕ}

/-- Where the loop stands with `k` of its rounds left: as many naps have passed as rounds. -/
structure Waiting (auth : SecretBytes) (w₀ : World) (started rounds k : ℕ) (w : World) : Prop where
  le : k ≤ rounds
  early : (rounds - k) * resetPoll ≤ resetTimeout
  passed : started + (rounds - k) * resetPoll ≤ w.clock
  holds : Holds auth w₀ (resetTimeout - (rounds - k) * resetPoll) (Fed auth) w

theorem readStderr_run {P : Child → Prop} (hP : Stable P) (h : Holds auth w₀ n P w) {F} :
    Run readStderr (fun _ => Holds auth w₀ n P) F w := by
  unfold readStderr
  refine run_ask_bind hP h fun c _ _ hc => ?_
  rw [outcome_ok]
  split_ifs
  · exact run_ask hP hc fun _ _ _ h => h
  · exact hc

/-- A status of success says that the TPM has done the reset. -/
theorem judge_run {status : ExitStatus}
    (h : Holds auth w₀ n (fun c => Fed auth c ∧ c.status = some status) w) :
    Run (judge status) (fun _ => Holds auth w₀ 0 (Succeeded auth)) (Over auth w₀) w := by
  have hstable : Stable fun c => Fed auth c ∧ c.status = some status := fun c c' hgoes hc =>
    ⟨stable_fed c c' hgoes hc.1, hgoes.status status hc.2⟩
  unfold judge
  refine wpe_seq (readStderr_run hstable h) fun stderr w h => ?_
  refine (wpe_ensure ..).2 ⟨fun hs => ?_, fun _ => h.over _⟩
  obtain ⟨⟨c, hc, hfed, hstatus⟩, hslept⟩ := h.later (Nat.zero_le n)
  exact ⟨⟨c, hc, hfed.1, hc.success status hstatus hs⟩, hslept⟩

/-- A look at the child that has got the authValue. -/
theorem tryWait_run {Q : Option ExitStatus → World → Prop} (h : Holds auth w₀ n (Fed auth) w)
    (hnone : ∀ w', w.clock ≤ w'.clock → Holds auth w₀ n (Fed auth) w' → Q none w')
    (hsome : ∀ w' status, Holds auth w₀ n (fun c => Fed auth c ∧ c.status = some status) w' →
      Q (some status) w') :
    Run (ask .tryWait (failed "wait for tpm2_dictionarylockout")) Q (Over auth w₀) w := by
  refine run_ask stable_fed h fun c hclock _ hc => ?_
  unfold exec Choice.call
  cases c.fault with
  | some e => exact hc.over _
  | none =>
    obtain ⟨⟨x, hx, hfed⟩, hslept⟩ := hc
    have hreap := hx.reap fun x => x.reaped || x.status.isSome
    dsimp only
    rw [hx.child, Option.bind_some]
    cases hstatus : x.status with
    | none => exact hnone _ hclock ⟨⟨_, hreap, hfed⟩, hslept⟩
    | some status => exact hsome _ status ⟨⟨_, hreap, hfed, hstatus⟩, hslept⟩

/-- A nap before the deadline. -/
theorem Waiting.nap {k : ℕ} (h : Waiting auth w₀ started rounds (k + 1) w) {w₁ w₂ : World}
    (h₁ : w.clock ≤ w₁.clock) (ht : w₁.clock < started + resetTimeout) (h₂ : w₁.clock ≤ w₂.clock)
    (hw : Holds auth w₀ (resetTimeout - (rounds - (k + 1)) * resetPoll) (Fed auth) w₂) :
    Waiting auth w₀ started rounds k
      { w₂ with clock := w₂.clock + resetPoll, slept := w₂.slept + resetPoll } := by
  obtain ⟨hle, -, hpassed, -⟩ := h
  have hround : (rounds - k) * resetPoll = (rounds - (k + 1)) * resetPoll + resetPoll := by
    rw [← Nat.succ_mul]
    congr 1
    omega
  -- The deadline is a whole number of naps after the start.
  have hwhole : (rounds - (k + 1)) * resetPoll + resetPoll ≤ resetTimeout := by
    simp only [resetPoll, resetTimeout] at hpassed ht ⊢
    omega
  obtain ⟨⟨c, hc, hfed⟩, hslept⟩ := hw
  refine ⟨by omega, by omega, ?_, ⟨⟨c, { hc with child := hc.child }, hfed⟩, ?_⟩⟩
  · dsimp only
    omega
  · dsimp only
    omega

/-- A round that goes on has napped, before the deadline. -/
theorem pollRound_run {k : ℕ} (h : Waiting auth w₀ started rounds (k + 1) w) :
    Run (pollRound (started + resetTimeout))
      (Sum.elim (fun _ => Waiting auth w₀ started rounds k)
        fun _ => Holds auth w₀ 0 (Succeeded auth)) (Over auth w₀) w := by
  unfold pollRound
  refine (wpe_bind ..).2 (tryWait_run h.holds (fun w₁ hclock h₁ => ?_) fun w₁ status h₁ => ?_)
  · refine run_ask_bind stable_fed h₁ fun c hclock₁ _ h₂ =>
      (wpe_bind ..).2 ((wpe_ensure ..).2 ⟨fun ht => ?_, fun _ => h₂.over _⟩)
    refine run_ask_bind stable_fed h₂ fun c' hclock₂ _ h₃ => ?_
    exact h.nap (hclock.trans hclock₁) ht hclock₂ h₃
  · exact wpe_seq (judge_run h₁) fun _ _ h => h

/-- **The conversation with the child**: with as many rounds as the deadline has naps, and one more,
it comes to an end. -/
theorem converse_run (hr : resetTimeout < rounds * resetPoll)
    (h : Holds auth w₀ resetTimeout Fresh w) :
    Run (converse auth rounds) (fun _ => Holds auth w₀ 0 (Succeeded auth)) (Over auth w₀) w := by
  unfold converse
  refine wpe_seq (feed_run h) fun _ w h => ?_
  refine run_ask_bind stable_fed h fun c _ _ h => ?_
  refine wpe_loop (I := fun k _ => Waiting auth w₀ c.before.clock rounds k) ?_ ?_ ?_
  · rintro - w ⟨-, hearly, -⟩
    rw [Nat.sub_zero] at hearly
    omega
  · exact fun k _ w => pollRound_run
  · have hnone : (rounds - rounds) * resetPoll = 0 := by rw [Nat.sub_self, Nat.zero_mul]
    refine ⟨le_rfl, ?_, ?_, ?_⟩
    · rw [hnone]
      exact Nat.zero_le _
    · rw [hnone]
      exact le_rfl
    · rw [hnone]
      exact h

end Wait

/-! ## Reaping the child -/

/-- The child has exited and was waited for. -/
def Gone (c : Child) : Prop := c.reaped = true ∧ c.status ≠ none

/-- What does not depend on how the child has exited. -/
def Regardless (P : Child → Prop) : Prop :=
  ∀ c status reaped, P c → P { c with status := status, reaped := reaped }

section Reap

variable {auth : SecretBytes} {w₀ w : World} {P : Child → Prop}

theorem Sound.kill {c : Child} (h : Sound auth w₀ w c) :
    Sound auth w₀ (w.onChild Child.kill) c.kill := by
  refine { h with child := congrArg (Option.map _) h.child, success := fun s hs hsuccess => ?_ }
  unfold Child.kill at hs
  cases hstatus : c.status with
  | none =>
    rw [hstatus, Option.getD_none] at hs
    obtain rfl := Option.some.inj hs
    cases hsuccess
  | some status =>
    rw [hstatus, Option.getD_some] at hs
    obtain rfl := Option.some.inj hs
    exact h.success _ hstatus hsuccess

theorem kill_run {α : Type} {r : Except (Stop Error) α} {Q : α → World → Prop}
    {F : Stop Error → World → Prop} (hP : Stable P) (hreg : Regardless P)
    (h : Holds auth w₀ 0 P w) (hr : ∀ w, Holds auth w₀ 0 P w → outcome Q F r w) :
    Run (ask .kill fun _ => r) Q F w := by
  refine run_ask hP h fun c _ _ hc => hr _ ?_
  unfold exec Choice.call
  cases c.fault with
  | some e => exact hc
  | none => exact hc.onChild fun x hx hp => ⟨hx.kill, hreg x _ _ hp⟩

theorem wait_run {α : Type} {r : Except (Stop Error) α} {Q : α → World → Prop}
    {F : Stop Error → World → Prop} (hP : Stable P) (hreg : Regardless P)
    (h : Holds auth w₀ 0 P w)
    (hr : ∀ w, Holds auth w₀ 0 (fun c => P c ∧ Gone c) w → outcome Q F r w) :
    Run (ask .wait fun _ => r) Q F w := by
  refine run_ask hP h fun c _ hposs hc => hr _ ?_
  obtain ⟨x, status, hchild, hstatus⟩ := hposs
  obtain ⟨⟨y, hy, hp⟩, hslept⟩ := hc
  obtain rfl := Option.some.inj (hchild.symm.trans hy.child)
  unfold exec
  dsimp only
  rw [hchild, Option.bind_some, hstatus]
  refine ⟨⟨_, hy.reap fun _ => true, hreg x x.status true hp, rfl, ?_⟩, hslept⟩
  change x.status ≠ none
  rw [hstatus]
  nofun

/-- **However the conversation ends**, the child has exited then, and was waited for. -/
theorem reapOnDrop_run {x : Io Unit} (hP : Stable P) (hreg : Regardless P)
    (hx : Run x (fun _ => Holds auth w₀ 0 P) (Over auth w₀) w) :
    Run (reapOnDrop x) (fun _ => Holds auth w₀ 0 fun c => P c ∧ Gone c)
      (fun e w => e ≠ .running ∧ Holds auth w₀ 0 Gone w) w := by
  have htrue : Regardless fun _ => True := fun _ _ _ _ => trivial
  refine wpe_ensuring (wpe_ensuring (wpe_mono hx (fun _ w h => ?_) fun e w h => ⟨?_, fun _ => ?_⟩))
  · exact kill_run hP hreg h fun w h => wait_run hP hreg h fun _ h => h
  · exact fun he => absurd he h.1
  · refine kill_run stable_true htrue h.2 fun w hw => ⟨fun he => absurd he h.1, fun _ => ?_⟩
    exact wait_run stable_true htrue hw fun _ hw => ⟨h.1, hw.mono fun _ => And.right⟩

end Reap

/-! ## The whole reset -/

section Whole

variable {tcti : TctiConfig} {lockoutAuth : SecretBytes} {rounds : ℕ} {w w' : World}

/-- The child was never there, or it is gone. -/
theorem resetLockout_run (hr : resetTimeout < rounds * resetPoll) (hw : w.child = none) :
    Run (resetLockout tcti lockoutAuth rounds)
      (fun _ => Holds lockoutAuth w 0 fun c => Succeeded lockoutAuth c ∧ Gone c)
      (fun e w' => e ≠ .running ∧ (Holds lockoutAuth w 0 Gone w' ∨
        w'.child = none ∧ w'.tpm = w.tpm ∧ w'.attempts = w.attempts ∧ w'.slept = w.slept)) w := by
  unfold resetLockout spawn
  refine wpe_ask_bind ?_
  rintro w₁ rfl c ⟨hm, -⟩
  obtain ⟨hchild, htpm, hattempts⟩ := childless_moves hm hw
  have hslept := (clock_moves hm).2
  refine ⟨trivial, ?_⟩
  change outcome _ _ (spawned (c.call () _).1) (c.call () _).2
  unfold Choice.call
  cases c.fault with
  | some e =>
    obtain ⟨he, hne⟩ : ∃ e', spawned (.error e) = .error (.failed e') := by
      obtain ⟨_ | _, text⟩ := e
      · exact ⟨_, rfl⟩
      · exact ⟨_, rfl⟩
    dsimp only
    rw [hne]
    exact ⟨nofun, .inr ⟨hchild, htpm, hattempts, hslept⟩⟩
  | none =>
    have hfresh : Holds lockoutAuth w resetTimeout Fresh { c.before with child := some {} } := by
      refine ⟨⟨{}, ⟨rfl, List.nil_prefix, nofun, fun _ => ⟨htpm, hattempts⟩, nofun, nofun, nofun,
        nofun⟩, rfl, rfl⟩, ?_⟩
      dsimp only
      rw [hslept]
    refine wpe_mono (reapOnDrop_run stable_succeeded (fun _ _ _ h => h) (converse_run hr hfresh))
      (fun _ _ h => h) fun e w h => ⟨h.1, .inl h.2⟩

/-- What was presented, if anything, and what was then done to the TPM. -/
theorem Sound.effect {c : Child} (h : Sound lockoutAuth w w' c) :
    (w'.tpm = w.tpm ∨ w'.tpm = cleared w.tpm ∧ w.tpm.lockoutAuth <+: lockoutAuth) ∧
      (w'.attempts = w.attempts ∨
        ∃ sent, sent <+: lockoutAuth ∧ w'.attempts = (sent, w.tpm.lockoutAuth) :: w.attempts) := by
  cases hp : c.presented with
  | none =>
    obtain ⟨htpm, hattempts⟩ := h.before hp
    exact ⟨.inl htpm, .inl hattempts⟩
  | some done =>
    refine ⟨?_, .inr ⟨c.input, h.input, h.attempts (by rw [hp]; nofun)⟩⟩
    cases done with
    | false => exact .inl (h.refused hp)
    | true => exact .inr ⟨(h.done hp).1, (h.done hp).2 ▸ h.input⟩

/-- The operation of the host, when it succeeds. -/
theorem host_resetLockout (E : Primitives) (host : Host) (auth : SecretBytes)
    (h : host.tpm.lockoutAuth = auth) :
    (Tess.exec E (.resetLockout auth) .ok host).1 = .ok () ∧
      (Tess.exec E (.resetLockout auth) .ok host).2.tpm = cleared host.tpm := by
  rw [Tess.exec, if_pos ⟨h, rfl⟩]
  exact ⟨rfl, rfl⟩

/-- **What a reset does to the TPM**, whatever the child does meanwhile and whichever call fails.
One that succeeds is the operation of the host, and has presented the authValue. One that fails
leaves the TPM alone, or the counter was reset too late to be noticed. No more than one authValue is
presented, and nothing but a first part of the one that was handed over. -/
theorem resetLockout_attempt (E : Primitives) {r : Except (Stop Error) Unit} {host : Host}
    (hr : resetTimeout < rounds * resetPoll) (hw : w.child = none) (hhost : host.tpm = w.tpm)
    (h : Returns machine (resetLockout tcti lockoutAuth rounds).run w r w') :
    (r = .ok () →
      (Tess.exec E (.resetLockout lockoutAuth) .ok host).1 = .ok () ∧
        w'.tpm = (Tess.exec E (.resetLockout lockoutAuth) .ok host).2.tpm ∧
        w'.attempts = (lockoutAuth, w.tpm.lockoutAuth) :: w.attempts) ∧
      (r ≠ .ok () → w'.tpm = w.tpm ∨ ∃ sent, sent <+: lockoutAuth ∧
        (Tess.exec E (.resetLockout sent) .ok host).1 = .ok () ∧
        w'.tpm = (Tess.exec E (.resetLockout sent) .ok host).2.tpm) ∧
      (w'.attempts = w.attempts ∨
        ∃ sent, sent <+: lockoutAuth ∧ w'.attempts = (sent, w.tpm.lockoutAuth) :: w.attempts) := by
  cases r with
  | ok _ =>
    obtain ⟨⟨c, hc, ⟨hinput, hpresented⟩, -⟩, -⟩ := returns_ok (resetLockout_run hr hw) h
    obtain ⟨htpm, hauth⟩ := hc.done hpresented
    obtain ⟨hok, heffect⟩ := host_resetLockout E host lockoutAuth
      (by rw [hhost, ← hauth, hinput])
    refine ⟨fun _ => ⟨hok, by rw [heffect, htpm, hhost], ?_⟩, fun hne => absurd rfl hne,
      hc.effect.2⟩
    rw [hc.attempts (by rw [hpresented]; nofun), hinput]
  | error e =>
    refine ⟨nofun, fun _ => ?_, ?_⟩
    · obtain ⟨-, ⟨⟨c, hc, -⟩, -⟩ | ⟨-, htpm, -⟩⟩ := returns_error (resetLockout_run hr hw) h
      · refine hc.effect.1.imp_right fun ⟨htpm, hpart⟩ => ⟨w.tpm.lockoutAuth, hpart, ?_⟩
        obtain ⟨hok, heffect⟩ := host_resetLockout E host w.tpm.lockoutAuth
          (by rw [hhost])
        exact ⟨hok, by rw [heffect, htpm, hhost]⟩
      · exact .inl htpm
    · obtain ⟨-, ⟨⟨c, hc, -⟩, -⟩ | ⟨-, -, hattempts, -⟩⟩ := returns_error (resetLockout_run hr hw) h
      · exact hc.effect.2
      · exact .inl hattempts

/-- **No child is left**: a reset comes to an end, it sleeps no longer than the deadline, and then
there is no child that has not exited, or was not waited for. -/
theorem resetLockout_reaps {r : Except (Stop Error) Unit}
    (hr : resetTimeout < rounds * resetPoll) (hw : w.child = none)
    (h : Returns machine (resetLockout tcti lockoutAuth rounds).run w r w') :
    r ≠ .error .running ∧ (∀ c, w'.child = some c → c.status ≠ none ∧ c.reaped = true) ∧
      w'.slept ≤ w.slept + resetTimeout := by
  have hgone : ∀ {P : Child → Prop}, (∀ c, P c → Gone c) → Holds lockoutAuth w 0 P w' →
      (∀ c, w'.child = some c → c.status ≠ none ∧ c.reaped = true) ∧
        w'.slept ≤ w.slept + resetTimeout := by
    rintro P hP ⟨⟨c, hc, hp⟩, hslept⟩
    refine ⟨fun c' hc' => ?_, hslept⟩
    obtain rfl := Option.some.inj (hc.child.symm.trans hc')
    exact (hP c hp).symm
  cases r with
  | ok _ =>
    have hpost := returns_ok (resetLockout_run hr hw) h
    exact ⟨nofun, hgone (fun _ => And.right) hpost⟩
  | error e =>
    obtain ⟨he, hgoes | ⟨hchild, -, -, hslept⟩⟩ := returns_error (resetLockout_run hr hw) h
    · exact ⟨fun hrun => he (Except.error.inj hrun), hgone (fun _ => id) hgoes⟩
    · refine ⟨fun hrun => he (Except.error.inj hrun), fun c hc => ?_, ?_⟩
      · cases hchild.symm.trans hc
      · rw [hslept]
        exact Nat.le_add_right ..

end Whole

/-! ## A reset that succeeds -/

section Sample

def sampleTpm : Tpm := ⟨0, [7], ⟨32, 32, 600⟩⟩

def sampleWorld : World := ⟨sampleTpm, [], none, 0, 0⟩

/-- The world with the child. -/
def withChild (c : Child) : World := { sampleWorld with child := some c }

/-- The TPM has done the reset. -/
def presentedWorld (c : Child) : World :=
  { sampleWorld with tpm := cleared sampleTpm, attempts := [([7], [7])], child := some c }

def sampleChild : Child := { input := [7], closed := true }

def exitedChild : Child :=
  { sampleChild with presented := some true, status := some ⟨true, "exit status: 0"⟩ }

/-- The child presents the authValue and exits before it is looked at. -/
def sampleChoices : List Choice :=
  [⟨sampleWorld, none, 0, ""⟩, ⟨withChild {}, none, 0, ""⟩, ⟨withChild {}, none, 0, ""⟩,
    ⟨withChild { input := [7] }, none, 0, ""⟩, ⟨withChild sampleChild, none, 0, ""⟩,
    ⟨presentedWorld exitedChild, none, 0, ""⟩] ++
  List.replicate 4 ⟨presentedWorld { exitedChild with reaped := true }, none, 0, ""⟩

theorem moves_exited : Relation.ReflTransGen Move (withChild sampleChild)
    (presentedWorld exitedChild) := by
  have hpresent : Move (withChild sampleChild)
      (presentedWorld { sampleChild with presented := some true }) :=
    .present (w := withChild sampleChild) (c := sampleChild) true rfl rfl rfl rfl fun _ => rfl
  have hexit : Move (presentedWorld { sampleChild with presented := some true })
      (presentedWorld exitedChild) :=
    .exit (c := { sampleChild with presented := some true }) _ rfl rfl fun _ => rfl
  exact .tail (.single hpresent) hexit

theorem returns_sample : Returns machine (resetLockout (.deviceManager "/dev/tpmrm0") [7] 601).run
    sampleWorld (.ok ()) (presentedWorld { exitedChild with reaped := true }) := by
  have hadmits : Admits machine sampleChoices
      (resetLockout (.deviceManager "/dev/tpmrm0") [7] 601).run sampleWorld :=
    ⟨⟨.refl, trivial⟩, ⟨.refl, trivial⟩, ⟨.refl, trivial⟩, ⟨.refl, trivial⟩, ⟨.refl, trivial⟩,
      ⟨moves_exited, trivial⟩, ⟨.refl, trivial⟩, ⟨.refl, trivial⟩, ⟨.refl, trivial⟩,
      ⟨.refl, _, _, rfl, rfl⟩, trivial⟩
  exact returns_run hadmits rfl

theorem resetLockout_attempt_sample :
    (Tess.exec sample (.resetLockout [7]) .ok { Sample.fresh with tpm := sampleTpm }).1 = .ok () :=
  ((resetLockout_attempt sample (by decide) rfl rfl
    returns_sample).1 rfl).1

/-- A child that does not exit, at a time `t` of which a part was slept. -/
def hungWorld (t slept : ℕ) (c : Child) : World :=
  { withChild c with clock := t, slept := slept }

def killedChild : Child := { sampleChild with status := some killed }

def killedWorld : World := hungWorld 30000 50 { killedChild with reaped := true }

/-- The child is looked at again after a nap, and then the deadline has passed. -/
def hungChoices : List Choice :=
  [⟨sampleWorld, none, 0, ""⟩, ⟨withChild {}, none, 0, ""⟩, ⟨withChild {}, none, 0, ""⟩,
    ⟨withChild { input := [7] }, none, 0, ""⟩] ++
  List.replicate 4 ⟨withChild sampleChild, none, 0, ""⟩ ++
  [⟨hungWorld 50 50 sampleChild, none, 0, ""⟩, ⟨hungWorld 30000 50 sampleChild, none, 0, ""⟩,
    ⟨hungWorld 30000 50 sampleChild, none, 0, ""⟩, ⟨hungWorld 30000 50 killedChild, none, 0, ""⟩]

theorem returns_hung : Returns machine (resetLockout (.deviceManager "/dev/tpmrm0") [7] 601).run
    sampleWorld
    (.error (.failed (.lockoutReset
      ("tpm2_dictionarylockout timed out after " ++ toString (resetTimeout / 1000) ++ "s"))))
    killedWorld := by
  have htick : Relation.ReflTransGen Move (hungWorld 50 50 sampleChild)
      (hungWorld 30000 50 sampleChild) := .single (.tick _ 29950)
  have hadmits : Admits machine hungChoices
      (resetLockout (.deviceManager "/dev/tpmrm0") [7] 601).run sampleWorld :=
    ⟨⟨.refl, trivial⟩, ⟨.refl, trivial⟩, ⟨.refl, trivial⟩, ⟨.refl, trivial⟩, ⟨.refl, trivial⟩,
      ⟨.refl, trivial⟩, ⟨.refl, trivial⟩, ⟨.refl, trivial⟩, ⟨.refl, trivial⟩, ⟨htick, trivial⟩,
      ⟨.refl, trivial⟩, ⟨.refl, _, _, rfl, rfl⟩, trivial⟩
  exact returns_run hadmits rfl

theorem resetLockout_reaps_sample :
    (∀ c, killedWorld.child = some c → c.status ≠ none ∧ c.reaped = true) ∧
      killedWorld.slept ≤ sampleWorld.slept + resetTimeout :=
  (resetLockout_reaps (by decide) rfl returns_hung).2

end Sample

end Reset

end Tess

import Tess.Effects.Traces
import Tess.Pam.Gate

/-!
# Running the helper

The helper runs as a child process under a deadline. A child that is late is sent `SIGTERM`, then
after a grace period `SIGKILL`, and is reaped; one that cannot be reaped is handed to a thread that
waits for it. This module follows `tess-pam/src/helper.rs`.

The child, the clock and the signals are the environment: it answers every call in any way. Times
are in nanoseconds, and a `Child` that is dropped is neither killed nor waited for.
-/

namespace Tess

namespace Pam

namespace Supervise

open Effects

/-- The upper bound on what a child is handed on its standard input. -/
def maxInputLen : ℕ := 4096

structure Watchdog where
  deadline : ℕ
  termGrace : ℕ
  poll : ℕ

abbrev ExitStatus := ℕ

abbrev Pid := ℕ

inductive Signal where
  | sigterm
  | sigkill
  deriving DecidableEq

inductive Errno where
  | esrch
  | other (code : ℕ)
  deriving DecidableEq

inductive IoError where
  | os (errno : Errno)
  | invalidInput (text : String)
  deriving DecidableEq

/-! ## Calls -/

/-- The calls. A child is spawned with the contents of a file as its standard input, or with the
input of the command. -/
inductive Op where
  | memfdCreate (name : String)
  | writeAll (input : List UInt8)
  | rewind
  | spawn (command : Command) (stdin : Option (List UInt8))
  | tryWait
  | now
  | sleep (span : ℕ)
  | kill (pid : Pid) (signal : Signal)
  | spawnReaper (name : String)

/-- What the calls return. A thread is created or not. -/
@[reducible] def Op.Res : Op → Type
  | .memfdCreate _ | .kill .. => Except Errno Unit
  | .writeAll _ | .rewind => Except IoError Unit
  | .spawn .. => Except IoError Pid
  | .tryWait => Except IoError (Option ExitStatus)
  | .now => ℕ
  | .sleep _ => Unit
  | .spawnReaper _ => Bool

abbrev Event := Answer Op.Res

abbrev Io := ExceptT (Stop IoError) (Prog Op.Res)

def tryWait : Io (Option ExitStatus) := ask .tryWait (·.mapError .failed)

def now : Io ℕ := ask .now .ok

def sleep (span : ℕ) : Io Unit := ask (.sleep span) .ok

/-- A child that has exited already has nothing to be signalled. -/
def signalled : Except Errno Unit → Except (Stop IoError) Unit
  | .ok () | .error .esrch => .ok ()
  | .error e => .error (.failed (.os e))

def sendSignal (pid : Pid) (signal : Signal) : Io Unit := ask (.kill pid signal) signalled

/-- A thread that waits for the child. If it cannot be created the child is dropped. -/
def reapInBackground : Io Unit := ask (.spawnReaper "tess-pam-reaper") fun _ => .ok ()

/-! ## Waiting -/

/-- A round of the loop of `supervise` and of `wait_within`: look at the child, and at the clock,
and then nap for at most `interval`. -/
def pollRound (budget interval started : ℕ) : Io (Unit ⊕ Option ExitStatus) := do
  match ← tryWait with
  | some status => pure (.inr (some status))
  | none =>
    let t ← now
    let remaining := budget - (t - started)
    if remaining = 0 then pure (.inr none)
    else do
      sleep (min interval remaining)
      pure (.inl ())

/-- Wait until the child has exited, or the budget has elapsed. -/
def poll (budget interval rounds : ℕ) : Io (Option ExitStatus) := do
  let started ← now
  loop (fun () => pollRound budget interval started) rounds ()

def waitWithin (budget interval rounds : ℕ) : Io Bool := do
  let status ← poll budget interval rounds
  pure status.isSome

inductive Kill where
  | reaped (escalatedToSigkill : Bool)
  | stuck

def escalateTermination (pid : Pid) (watchdog : Watchdog) (rounds : ℕ) : Io Kill := do
  sendSignal pid .sigterm
  let exited ← waitWithin watchdog.termGrace watchdog.poll rounds
  if exited then pure (.reaped false)
  else do
    sendSignal pid .sigkill
    let exited ← waitWithin watchdog.termGrace watchdog.poll rounds
    if exited then pure (.reaped true) else pure .stuck

/-! ## Supervision -/

inductive Termination where
  | exited (status : ExitStatus)
  | timedOut (escalatedToSigkill : Bool)

structure RunOutcome where
  pid : Pid
  termination : Termination

def supervise (pid : Pid) (watchdog : Watchdog) (rounds : ℕ) : Io RunOutcome := do
  match ← poll watchdog.deadline watchdog.poll rounds with
  | some status => pure ⟨pid, .exited status⟩
  | none =>
    match ← settle (escalateTermination pid watchdog rounds) with
    | .error e => do
      reapInBackground
      throw (.failed e)
    | .ok (.reaped escalated) => pure ⟨pid, .timedOut escalated⟩
    | .ok .stuck => do
      reapInBackground
      pure ⟨pid, .timedOut true⟩

def spawn (command : Command) (stdin : Option (List UInt8)) : Io Pid :=
  ask (.spawn command stdin) (·.mapError .failed)

def run (command : Command) (watchdog : Watchdog) (rounds : ℕ) : Io RunOutcome := do
  let child ← spawn command none
  supervise child watchdog rounds

/-- The input is handed over in a file that is only in memory. -/
def runWithInput (command : Command) (watchdog : Watchdog) (input : List UInt8) (rounds : ℕ) :
    Io RunOutcome := do
  ensure (input.length ≤ maxInputLen)
    (.failed (.invalidInput "helper input exceeds the maximum length"))
  ask (.memfdCreate "tess-pam-input") (·.mapError fun e => .failed (.os e))
  ask (.writeAll input) (·.mapError .failed)
  ask .rewind (·.mapError .failed)
  let child ← spawn command (some input)
  supervise child watchdog rounds

/-! ## What a run is judged by -/

/-- The readings of the clock. -/
def readings (l : List Event) : List ℕ :=
  l.filterMap fun
    | ⟨.now, t⟩ => some t
    | _ => none

/-- Since its first reading, the clock was seen to have gone on by the budget. -/
def Passed (budget : ℕ) (l : List Event) : Prop :=
  ∃ started ts t, readings l = started :: ts ∧ t ∈ ts ∧ budget ≤ t - started

def Spawned (l : List Event) : Prop :=
  ∃ command stdin child, ⟨.spawn command stdin, .ok child⟩ ∈ l

def Reaped (l : List Event) : Prop := ∃ status, ⟨.tryWait, .ok (some status)⟩ ∈ l

def HandedOver (l : List Event) : Prop := ∃ name, ⟨.spawnReaper name, true⟩ ∈ l

/-- `try_wait` has answered `x` before the deadline was seen to have passed. -/
def InTime (watchdog : Watchdog) (l : List Event) (x : Except IoError (Option ExitStatus)) : Prop :=
  ∃ l₁ l₂, l = l₁ ++ ⟨.tryWait, x⟩ :: l₂ ∧ ¬ Passed watchdog.deadline l₁

/-- `SIGTERM` was sent, and its grace period has passed since. -/
def GraceGiven (watchdog : Watchdog) (pid : Pid) (l : List Event) : Prop :=
  ∃ l₁ x l₂, l = l₁ ++ ⟨.kill pid .sigterm, x⟩ :: l₂ ∧ signalled x = .ok () ∧
    Passed watchdog.termGrace l₂

/-- What a run comes to: the child is not abandoned, it is not killed before its time, and it is
said to have exited exactly when that was seen in time. -/
structure Kept (watchdog : Watchdog) (r : Except (Stop IoError) RunOutcome) (l : List Event) :
    Prop where
  notAbandoned : Reaped l ∨ HandedOver l
  graceGiven : ∀ pid l₁ x l₂, l = l₁ ++ ⟨.kill pid .sigkill, x⟩ :: l₂ → GraceGiven watchdog pid l₁
  exited : ∀ status, (∃ pid, r = .ok ⟨pid, .exited status⟩) ↔
    InTime watchdog l (.ok (some status))

@[simp] theorem readings_append (l l' : List Event) :
    readings (l ++ l') = readings l ++ readings l' := List.filterMap_append ..

theorem mem_readings {l : List Event} {t : ℕ} : t ∈ readings l ↔ ⟨.now, t⟩ ∈ l := by
  constructor
  · intro h
    obtain ⟨⟨o, x⟩, he, ht⟩ := List.mem_filterMap.1 h
    cases o with
    | now => exact Option.some.inj ht ▸ he
    | _ => cases ht
  · intro h
    exact List.mem_filterMap.2 ⟨_, h, rfl⟩

theorem Passed.append {budget : ℕ} {l : List Event} (h : Passed budget l) (l' : List Event) :
    Passed budget (l ++ l') := by
  obtain ⟨started, ts, t, hl, ht, hb⟩ := h
  exact ⟨started, ts ++ readings l', t, by rw [readings_append, hl, List.cons_append],
    List.mem_append_left _ ht, hb⟩

/-! ## What waiting does -/

/-- A call of the wait, in a round that goes on. -/
def Pending (started budget : ℕ) : Event → Prop
  | ⟨.tryWait, x⟩ => x = .ok none
  | ⟨.now, t⟩ => t - started < budget
  | ⟨.sleep _, _⟩ => True
  | _ => False

/-- The ends of a wait, by what was seen last. -/
inductive Polled (budget : ℕ) : Except (Stop IoError) (Option ExitStatus) → List Event → Prop
  | exited {started : ℕ} {l : List Event} (hl : ∀ e ∈ l, Pending started budget e)
      (status : ExitStatus) :
      Polled budget (.ok (some status)) (⟨.now, started⟩ :: l ++ [⟨.tryWait, .ok (some status)⟩])
  | expired {started t : ℕ} {l : List Event} (hl : ∀ e ∈ l, Pending started budget e)
      (ht : budget ≤ t - started) :
      Polled budget (.ok none) (⟨.now, started⟩ :: l ++ [⟨.tryWait, .ok none⟩, ⟨.now, t⟩])
  | refused {started : ℕ} {l : List Event} (hl : ∀ e ∈ l, Pending started budget e) (e : IoError) :
      Polled budget (.error (.failed e)) (⟨.now, started⟩ :: l ++ [⟨.tryWait, .error e⟩])
  | cut {started : ℕ} {l : List Event} (hl : ∀ e ∈ l, Pending started budget e) :
      Polled budget (.error .running) (⟨.now, started⟩ :: l)

/-- A round goes on after calls of the wait, or it is one of the ends. -/
theorem pollRound_cases {budget interval started : ℕ}
    {r : Except (Stop IoError) (Unit ⊕ Option ExitStatus)} {l : List Event}
    (h : Ends (pollRound budget interval started) r l) :
    (r = .ok (.inl ()) ∧ ∀ e ∈ l, Pending started budget e) ∨
      (∃ status, r = .ok (.inr (some status)) ∧ l = [⟨.tryWait, .ok (some status)⟩]) ∨
      (∃ t, r = .ok (.inr none) ∧ budget ≤ t - started ∧
        l = [⟨.tryWait, .ok none⟩, ⟨.now, t⟩]) ∨
      ∃ e, r = .error (.failed e) ∧ l = [⟨.tryWait, .error e⟩] := by
  unfold pollRound tryWait now sleep at h
  obtain ⟨e, rfl, hwait⟩ | ⟨status, l₁, l₂, rfl, hwait, hgo⟩ := ends_bind_iff.1 h
  · obtain ⟨e' | x, hx, rfl⟩ := ends_ask_iff.1 hwait
    · exact .inr (.inr (.inr ⟨e', congrArg _ (Except.error.inj hx), rfl⟩))
    · cases hx
  clear h
  obtain ⟨e' | x, hx, rfl⟩ := ends_ask_iff.1 hwait
  · cases hx
  obtain rfl := Except.ok.inj hx
  cases status with
  | some status =>
    obtain ⟨rfl, rfl⟩ := ends_pure_iff.1 hgo
    exact .inr (.inl ⟨status, rfl, rfl⟩)
  | none =>
    simp only [ends_bind_iff, ends_ask_iff] at hgo
    obtain ⟨e, -, x, ⟨⟩, -⟩ | ⟨t, _, l₃, rfl, ⟨_, ⟨⟩, rfl⟩, hgo⟩ := hgo
    split_ifs at hgo with hr
    · obtain ⟨rfl, rfl⟩ := ends_pure_iff.1 hgo
      exact .inr (.inr (.inl ⟨t, rfl, by omega, rfl⟩))
    · simp only [ends_bind_iff, ends_ask_iff] at hgo
      obtain ⟨e, -, x, ⟨⟩, -⟩ | ⟨_, _, l₄, rfl, ⟨_, ⟨⟩, rfl⟩, hgo⟩ := hgo
      obtain ⟨rfl, rfl⟩ := ends_pure_iff.1 hgo
      refine .inl ⟨rfl, ?_⟩
      have ht : t - started < budget := by omega
      simp [Pending, ht]

theorem poll_polled {budget interval n : ℕ} {r : Except (Stop IoError) (Option ExitStatus)}
    {l : List Event} (h : Ends (poll budget interval n) r l) : Polled budget r l := by
  unfold poll now at h
  simp only [ends_bind_iff, ends_ask_iff] at h
  obtain ⟨e, -, x, ⟨⟩, -⟩ | ⟨started, _, l₂, rfl, ⟨_, ⟨⟩, rfl⟩, h⟩ := h
  refine ends_loop (Q := Polled budget) (I := fun _ l => ∃ l', l = ⟨.now, started⟩ :: l' ∧
    ∀ e ∈ l', Pending started budget e) ?_ ?_ ?_ ?_ ⟨[], rfl, by simp⟩ h
  · rintro _ _ ⟨l, rfl, hl⟩
    exact .cut hl
  · rintro _ _ _ l' ⟨l, rfl, hl⟩ h
    obtain ⟨-, hl'⟩ | ⟨_, ⟨⟩, -⟩ | ⟨_, ⟨⟩, -⟩ | ⟨_, ⟨⟩, -⟩ := pollRound_cases h
    refine ⟨l ++ l', rfl, fun e he => ?_⟩
    exact (List.mem_append.1 he).elim (hl e) (hl' e)
  · rintro _ _ _ l' ⟨l, rfl, hl⟩ h
    obtain ⟨⟨⟩, -⟩ | ⟨status, ⟨⟩, rfl⟩ | ⟨t, ⟨⟩, ht, rfl⟩ | ⟨_, ⟨⟩, -⟩ := pollRound_cases h
    · exact .exited hl status
    · exact .expired hl ht
  · rintro _ _ _ l' ⟨l, rfl, hl⟩ h
    obtain ⟨⟨⟩, -⟩ | ⟨_, ⟨⟩, -⟩ | ⟨_, ⟨⟩, -⟩ | ⟨e, ⟨⟩, rfl⟩ := pollRound_cases h
    exact .refused hl e

/-- A call that only waits. -/
def Waits : Event → Prop
  | ⟨.tryWait, _⟩ | ⟨.now, _⟩ | ⟨.sleep _, _⟩ => True
  | _ => False

theorem Pending.waits {started budget : ℕ} {e : Event} (h : Pending started budget e) :
    Waits e := by
  obtain ⟨o, x⟩ := e
  cases o <;> trivial

section Polled

variable {budget : ℕ} {r : Except (Stop IoError) (Option ExitStatus)} {l : List Event}

theorem Polled.waits (h : Polled budget r l) : ∀ e ∈ l, Waits e := by
  have hpending : ∀ {started l}, (∀ e ∈ l, Pending started budget e) →
      ∀ e ∈ (⟨.now, started⟩ :: l : List Event), Waits e := by
    intro started l hl e he
    obtain rfl | he := List.mem_cons.1 he
    · trivial
    · exact (hl e he).waits
  cases h with
  | exited hl | expired hl | refused hl =>
    intro e he
    obtain he | he := List.mem_append.1 he
    · exact hpending hl e he
    · simp only [List.mem_cons, List.not_mem_nil, or_false] at he
      obtain rfl | rfl := he <;> trivial
  | cut hl => exact hpending hl

theorem Polled.passed (h : Polled budget (.ok none) l) : Passed budget l := by
  cases h with
  | @expired started t l hl ht =>
    refine ⟨started, readings l ++ [t], t, ?_, by simp, ht⟩
    rw [readings_append]
    rfl

theorem Polled.reaped {status : ExitStatus} (h : Polled budget (.ok (some status)) l) :
    Reaped l := by
  cases h with
  | exited => exact ⟨status, by simp⟩

/-- What a wait saw of the child is its result, unless the child was still running. -/
theorem Polled.answer (h : Polled budget r l) {x : Except IoError (Option ExitStatus)}
    (hx : ⟨.tryWait, x⟩ ∈ l) : x = .ok none ∨ r = x.mapError .failed := by
  have hpending : ∀ {started l}, (∀ e ∈ l, Pending started budget e) →
      ⟨.tryWait, x⟩ ∈ (⟨.now, started⟩ :: l : List Event) → x = .ok none := by
    intro started l hl he
    obtain he | he := List.mem_cons.1 he
    · cases he
    · exact hl _ he
  cases h with
  | exited hl | refused hl =>
    obtain he | he := List.mem_append.1 hx
    · exact .inl (hpending hl he)
    · cases List.mem_singleton.1 he
      exact .inr rfl
  | expired hl =>
    obtain he | he := List.mem_append.1 hx
    · exact .inl (hpending hl he)
    · obtain he | he := List.mem_cons.1 he
      · cases he
        exact .inl rfl
      · cases List.mem_singleton.1 he
  | cut hl => exact .inl (hpending hl hx)

end Polled

/-! ## What escalating does -/

def SentKill (e : Event) : Prop := ∃ pid x, e = ⟨.kill pid .sigkill, x⟩

/-- The ends of an escalation. -/
inductive Escalated (watchdog : Watchdog) (pid : Pid) :
    Except (Stop IoError) Kill → List Event → Prop
  | termRefused {x : Except Errno Unit} {e : IoError} (hx : signalled x = .error (.failed e)) :
      Escalated watchdog pid (.error (.failed e)) [⟨.kill pid .sigterm, x⟩]
  | term {x : Except Errno Unit} {r : Except (Stop IoError) (Option ExitStatus)} {l : List Event}
      (hx : signalled x = .ok ()) (hp : Polled watchdog.termGrace r l) (hr : r ≠ .ok none) :
      Escalated watchdog pid (r.map fun _ => .reaped false) (⟨.kill pid .sigterm, x⟩ :: l)
  | killRefused {x y : Except Errno Unit} {e : IoError} {l : List Event}
      (hx : signalled x = .ok ()) (hp : Polled watchdog.termGrace (.ok none) l)
      (hy : signalled y = .error (.failed e)) :
      Escalated watchdog pid (.error (.failed e))
        (⟨.kill pid .sigterm, x⟩ :: l ++ [⟨.kill pid .sigkill, y⟩])
  | kill {x y : Except Errno Unit} {r : Except (Stop IoError) (Option ExitStatus)}
      {l l' : List Event} (hx : signalled x = .ok ())
      (hp : Polled watchdog.termGrace (.ok none) l) (hp' : Polled watchdog.termGrace r l') :
      Escalated watchdog pid (r.map fun status => if status.isSome then .reaped true else .stuck)
        (⟨.kill pid .sigterm, x⟩ :: l ++ ⟨.kill pid .sigkill, y⟩ :: l')

theorem sendSignal_cases {pid : Pid} {signal : Signal} {r : Except (Stop IoError) Unit}
    {l : List Event} (h : Ends (sendSignal pid signal) r l) :
    ∃ x, l = [⟨.kill pid signal, x⟩] ∧ signalled x = r ∧ r ≠ .error .running := by
  obtain ⟨x, rfl, rfl⟩ := ends_ask_iff.1 h
  refine ⟨x, rfl, rfl, ?_⟩
  unfold signalled
  split <;> nofun

theorem waitWithin_cases {budget interval n : ℕ} {r : Except (Stop IoError) Bool} {l : List Event}
    (h : Ends (waitWithin budget interval n) r l) :
    ∃ r₀, Polled budget r₀ l ∧ r = r₀.map Option.isSome := by
  obtain ⟨e, rfl, hp⟩ | ⟨status, l₁, l₂, rfl, hp, hret⟩ := ends_bind_iff.1 h
  · exact ⟨.error e, poll_polled hp, rfl⟩
  · obtain ⟨rfl, rfl⟩ := ends_pure_iff.1 hret
    exact ⟨.ok status, by simpa using poll_polled hp, rfl⟩

theorem escalateTermination_escalated {watchdog : Watchdog} {pid : Pid} {n : ℕ}
    {r : Except (Stop IoError) Kill} {l : List Event}
    (h : Ends (escalateTermination pid watchdog n) r l) : Escalated watchdog pid r l := by
  unfold escalateTermination at h
  obtain ⟨e, rfl, hterm⟩ | ⟨_, l₁, l₂, rfl, hterm, hgo⟩ := ends_bind_iff.1 h
  · obtain ⟨x, rfl, hx, hne⟩ := sendSignal_cases hterm
    cases e with
    | running => exact absurd rfl hne
    | failed e => exact .termRefused hx
  obtain ⟨x, rfl, hx, -⟩ := sendSignal_cases hterm
  obtain ⟨e, rfl, hwait⟩ | ⟨exited, l₃, l₄, rfl, hwait, hgo⟩ := ends_bind_iff.1 hgo
  · obtain ⟨e' | status, hp, hr⟩ := waitWithin_cases hwait
    · obtain rfl := Except.error.inj hr
      exact .term hx hp nofun
    · cases hr
  obtain ⟨e' | status, hp, hr⟩ := waitWithin_cases hwait
  · cases hr
  obtain rfl := Except.ok.inj hr
  cases status with
  | some status =>
    obtain ⟨rfl, rfl⟩ := ends_pure_iff.1 hgo
    rw [List.append_nil]
    exact .term hx hp nofun
  | none =>
    obtain ⟨e, rfl, hkill⟩ | ⟨_, l₅, l₆, rfl, hkill, hgo'⟩ := ends_bind_iff.1 hgo
    · obtain ⟨y, rfl, hy, hne⟩ := sendSignal_cases hkill
      cases e with
      | running => exact absurd rfl hne
      | failed e => exact .killRefused hx hp hy
    obtain ⟨y, rfl, -, -⟩ := sendSignal_cases hkill
    obtain ⟨e, rfl, hwait'⟩ | ⟨exited, l₇, l₈, rfl, hwait', hend⟩ := ends_bind_iff.1 hgo'
    · obtain ⟨e' | status, hp', hr'⟩ := waitWithin_cases hwait'
      · obtain rfl := Except.error.inj hr'
        exact .kill hx hp hp'
      · cases hr'
    obtain ⟨e' | status, hp', hr'⟩ := waitWithin_cases hwait'
    · cases hr'
    obtain rfl := Except.ok.inj hr'
    have hkilled : Escalated watchdog pid _ _ := .kill (y := y) hx hp hp'
    cases status with
    | some status =>
      obtain ⟨rfl, rfl⟩ := ends_pure_iff.1 hend
      rw [List.append_nil]
      exact hkilled
    | none =>
      obtain ⟨rfl, rfl⟩ := ends_pure_iff.1 hend
      rw [List.append_nil]
      exact hkilled

section Escalated

variable {watchdog : Watchdog} {pid : Pid} {r : Except (Stop IoError) Kill} {l : List Event}

theorem Escalated.reaped {escalated : Bool}
    (h : Escalated watchdog pid (.ok (.reaped escalated)) l) : Reaped l := by
  generalize hr : (Except.ok (Kill.reaped escalated) : Except (Stop IoError) Kill) = r at h
  cases h with
  | termRefused | killRefused => cases hr
  | @term x r l hx hp hne =>
    obtain e | status := r
    · cases hr
    cases status with
    | none => exact absurd rfl hne
    | some status =>
      obtain ⟨status, hs⟩ := hp.reaped
      exact ⟨status, List.mem_cons_of_mem _ hs⟩
  | @kill x y r l l' hx hp hp' =>
    obtain e | status := r
    · cases hr
    cases status with
    | none => cases hr
    | some status =>
      obtain ⟨status, hs⟩ := hp'.reaped
      exact ⟨status, List.mem_append_right _ (List.mem_cons_of_mem _ hs)⟩

/-- `SIGKILL` is sent at one place only, where the grace period of `SIGTERM` has passed. -/
theorem Escalated.graceGiven (h : Escalated watchdog pid r l) {pid' : Pid} {l₁ l₂ : List Event}
    {x : Except Errno Unit} (hl : l = l₁ ++ ⟨.kill pid' .sigkill, x⟩ :: l₂) :
    GraceGiven watchdog pid' l₁ := by
  have hterm : ∀ {y : Except Errno Unit} {l : List Event}, (∀ e ∈ l, Waits e) →
      ∀ e ∈ (⟨.kill pid .sigterm, y⟩ :: l : List Event), ¬ SentKill e := by
    rintro y l hl e he ⟨pid', x, rfl⟩
    obtain he | he := List.mem_cons.1 he
    · cases he
    · exact hl _ he
  have hnone : (∀ e ∈ l, ¬ SentKill e) → GraceGiven watchdog pid' l₁ := fun hno =>
    absurd ⟨pid', x, rfl⟩ (hno ⟨.kill pid' .sigkill, x⟩ (by simp [hl]))
  cases h with
  | termRefused => exact hnone (hterm nofun)
  | term hx hp => exact hnone (hterm hp.waits)
  | killRefused hx hp =>
    have hnil : ∀ e ∈ ([] : List Event), ¬ SentKill e := nofun
    obtain ⟨rfl, he, -⟩ := split_unique (hterm hp.waits) hnil ⟨pid', x, rfl⟩ hl
    cases he
    exact ⟨[], _, _, rfl, hx, hp.passed⟩
  | kill hx hp hp' =>
    obtain ⟨rfl, he, -⟩ := split_unique (hterm hp.waits)
      (fun e he hsent => by
        obtain ⟨pid', x, rfl⟩ := hsent
        exact hp'.waits _ he) ⟨pid', x, rfl⟩ hl
    cases he
    exact ⟨[], _, _, rfl, hx, hp.passed⟩

end Escalated

/-! ## The supervision of a child -/

/-- The ends of a supervision: the child was seen to exit, or not seen at all, or it was late and
has been dealt with. -/
inductive Supervised (watchdog : Watchdog) (pid : Pid) :
    Except (Stop IoError) RunOutcome → List Event → Prop
  | exited {status : ExitStatus} {l : List Event}
      (hp : Polled watchdog.deadline (.ok (some status)) l) :
      Supervised watchdog pid (.ok ⟨pid, .exited status⟩) l
  | refused {e : IoError} {l : List Event} (hp : Polled watchdog.deadline (.error (.failed e)) l) :
      Supervised watchdog pid (.error (.failed e)) l
  | late {kill : Except (Stop IoError) Kill} {r : Except (Stop IoError) RunOutcome}
      {l l' tail : List Event} (hp : Polled watchdog.deadline (.ok none) l)
      (he : Escalated watchdog pid kill l')
      (htail : ∀ e ∈ tail, ∃ name created, e = ⟨.spawnReaper name, created⟩)
      (hkill : (∃ escalated, kill = .ok (.reaped escalated)) ∨ tail ≠ [])
      (hr : ∀ pid status, r ≠ .ok ⟨pid, .exited status⟩) :
      Supervised watchdog pid r (l ++ (l' ++ tail))

theorem reapInBackground_cases {r : Except (Stop IoError) Unit} {l : List Event}
    (h : Ends reapInBackground r l) :
    r = .ok () ∧ ∃ name created, l = [⟨.spawnReaper name, created⟩] := by
  obtain ⟨created, rfl, rfl⟩ := ends_ask_iff.1 h
  exact ⟨rfl, _, created, rfl⟩

theorem supervise_supervised {watchdog : Watchdog} {pid : Pid} {n : ℕ}
    {r : Except (Stop IoError) RunOutcome} {l : List Event}
    (h : Ends (supervise pid watchdog n) r l) (hr : r ≠ .error .running) :
    Supervised watchdog pid r l := by
  unfold supervise at h
  obtain ⟨e, rfl, hpoll⟩ | ⟨status, l₁, l₂, rfl, hpoll, hgo⟩ := ends_bind_iff.1 h
  · cases e with
    | running => exact absurd rfl hr
    | failed e => exact .refused (poll_polled hpoll)
  have hp := poll_polled hpoll
  cases status with
  | some status =>
    obtain ⟨rfl, rfl⟩ := ends_pure_iff.1 hgo
    rw [List.append_nil]
    exact .exited hp
  | none =>
    obtain ⟨e, rfl, hsettle⟩ | ⟨kill, l₃, l₄, rfl, hsettle, hend⟩ := ends_bind_iff.1 hgo
    · obtain ⟨(_ | _) | _, -, he⟩ := ends_settle_iff.1 hsettle
      · cases he
      · obtain rfl := Except.error.inj he
        exact absurd rfl hr
      · cases he
    obtain ⟨r₀, hescalate, hk⟩ := ends_settle_iff.1 hsettle
    have he := escalateTermination_escalated hescalate
    obtain (e | _) | kill := r₀
    · obtain rfl := Except.ok.inj hk
      obtain ⟨_, -, hreap⟩ | ⟨_, l₅, l₆, rfl, hreap, hthrow⟩ := ends_bind_iff.1 hend
      · exact absurd (reapInBackground_cases hreap).1 nofun
      · obtain ⟨-, name, created, rfl⟩ := reapInBackground_cases hreap
        obtain ⟨rfl, rfl⟩ := ends_throw_iff.1 hthrow
        exact .late hp he (fun e he => ⟨name, created, List.mem_singleton.1 he⟩) (.inr (by simp)) nofun
    · cases hk
    · obtain rfl := Except.ok.inj hk
      cases kill with
      | reaped escalated =>
        obtain ⟨rfl, rfl⟩ := ends_pure_iff.1 hend
        exact .late hp he nofun (.inl ⟨escalated, rfl⟩) nofun
      | stuck =>
        obtain ⟨_, -, hreap⟩ | ⟨_, l₅, l₆, rfl, hreap, hret⟩ := ends_bind_iff.1 hend
        · exact absurd (reapInBackground_cases hreap).1 nofun
        · obtain ⟨-, name, created, rfl⟩ := reapInBackground_cases hreap
          obtain ⟨rfl, rfl⟩ := ends_pure_iff.1 hret
          exact .late hp he (fun e he => ⟨name, created, List.mem_singleton.1 he⟩) (.inr (by simp)) nofun

/-! ## When the child is kept -/

/-- A call that is made before there is a child to wait for. -/
def Starts : Event → Prop
  | ⟨.memfdCreate _, _⟩ | ⟨.writeAll _, _⟩ | ⟨.rewind, _⟩ | ⟨.spawn .., _⟩ => True
  | _ => False

section Kept

variable {watchdog : Watchdog} {pid : Pid} {m l : List Event}

theorem passed_start_iff (hm : ∀ e ∈ m, Starts e) {budget : ℕ} :
    Passed budget (m ++ l) ↔ Passed budget l := by
  have hnone : readings m = [] := List.eq_nil_iff_forall_not_mem.2 fun t ht =>
    hm _ (mem_readings.1 ht)
  simp only [Passed, readings_append, hnone, List.nil_append]

/-- What the first wait saw last was seen in time. -/
theorem Polled.inTime (hm : ∀ e ∈ m, Starts e) {x : Except IoError (Option ExitStatus)}
    (hp : Polled watchdog.deadline (x.mapError .failed) l) (hx : x ≠ .ok none) :
    InTime watchdog (m ++ l) x := by
  have hearly : ∀ {started : ℕ} {l : List Event},
      (∀ e ∈ l, Pending started watchdog.deadline e) →
      ¬ Passed watchdog.deadline (m ++ ⟨.now, started⟩ :: l) := by
    rintro started l hl hpassed
    obtain ⟨_, ts, t, hts, ht, hle⟩ := (passed_start_iff hm).1 hpassed
    obtain ⟨rfl, rfl⟩ := List.cons.inj hts
    exact absurd (hl _ (mem_readings.1 ht)) (not_lt.2 hle)
  have hlast : ∀ {started : ℕ} {l : List Event},
      (∀ e ∈ l, Pending started watchdog.deadline e) →
      InTime watchdog (m ++ (⟨.now, started⟩ :: l ++ [⟨.tryWait, x⟩])) x := by
    intro started l hl
    exact ⟨m ++ ⟨.now, started⟩ :: l, [], by simp, hearly hl⟩
  generalize hr : (x.mapError Stop.failed : Except (Stop IoError) (Option ExitStatus)) = r at hp
  cases hp with
  | exited hl status =>
    obtain rfl := mapError_eq_ok.1 hr
    exact hlast hl
  | expired => exact absurd (mapError_eq_ok.1 hr) hx
  | refused hl e =>
    obtain e' | status := x
    · cases hr
      exact hlast hl
    · cases hr
  | cut =>
    obtain e' | status := x <;> cases hr

/-- After the deadline was seen to have passed, nothing is seen in time. -/
theorem Polled.late (hm : ∀ e ∈ m, Starts e) (hp : Polled watchdog.deadline (.ok none) l)
    {l' : List Event} {x : Except IoError (Option ExitStatus)}
    (h : InTime watchdog (m ++ (l ++ l')) x) : x = .ok none := by
  obtain ⟨l₁, l₂, hl, hearly⟩ := h
  have hpassed := (passed_start_iff hm).2 hp.passed
  rw [← List.append_assoc] at hl
  obtain ⟨c, rfl, -⟩ | ⟨c, hc, hl⟩ := List.append_eq_append_iff.1 hl
  · exact absurd (hpassed.append c) hearly
  · cases c with
    | nil =>
      rw [List.append_nil] at hc
      exact absurd (hc ▸ hpassed) hearly
    | cons e c =>
      obtain ⟨rfl, -⟩ := List.cons.inj hl
      have hmem : (⟨.tryWait, x⟩ : Event) ∈ m ++ l := by simp [hc]
      obtain he | he := List.mem_append.1 hmem
      · exact (hm _ he).elim
      · obtain rfl | hx := hp.answer he
        · rfl
        · exact mapError_eq_ok.1 hx.symm

/-- What was seen in time is in the first wait, and is its result. -/
theorem Polled.inTime_answer (hm : ∀ e ∈ m, Starts e)
    {r : Except (Stop IoError) (Option ExitStatus)} (hp : Polled watchdog.deadline r l)
    {x : Except IoError (Option ExitStatus)} (h : InTime watchdog (m ++ l) x) :
    x = .ok none ∨ r = x.mapError .failed := by
  obtain ⟨l₁, l₂, hl, -⟩ := h
  have hmem : (⟨.tryWait, x⟩ : Event) ∈ m ++ l := by simp [hl]
  obtain he | he := List.mem_append.1 hmem
  · exact (hm _ he).elim
  · exact hp.answer he

theorem GraceGiven.append (h : GraceGiven watchdog pid l) (m : List Event) :
    GraceGiven watchdog pid (m ++ l) := by
  obtain ⟨l₁, x, l₂, rfl, hx, hpassed⟩ := h
  exact ⟨m ++ l₁, x, l₂, (List.append_assoc ..).symm, hx, hpassed⟩

/-- Before the escalation and after it, nothing is killed. -/
theorem Escalated.graceGiven_append {kill : Except (Stop IoError) Kill} {tail : List Event}
    (he : Escalated watchdog pid kill l) (hm : ∀ e ∈ m, ¬ SentKill e)
    (htail : ∀ e ∈ tail, ¬ SentKill e) {pid' : Pid} {l₁ l₂ : List Event} {x : Except Errno Unit}
    (hl : m ++ (l ++ tail) = l₁ ++ ⟨.kill pid' .sigkill, x⟩ :: l₂) :
    GraceGiven watchdog pid' l₁ := by
  have hsent : SentKill ⟨.kill pid' .sigkill, x⟩ := ⟨pid', x, rfl⟩
  obtain ⟨c, rfl, hc⟩ := split_right hm hsent hl
  obtain ⟨d, rfl⟩ := split_left htail hsent hc
  exact (he.graceGiven rfl).append m

/-- **The child is kept** unless it could not be waited for in time. -/
theorem Supervised.kept_iff {r : Except (Stop IoError) RunOutcome}
    (h : Supervised watchdog pid r l) (hm : ∀ e ∈ m, Starts e)
    (hreaper : ∀ name created, ⟨.spawnReaper name, created⟩ ∈ m ++ l → created = true) :
    Kept watchdog r (m ++ l) ↔ ∀ e, ¬ InTime watchdog (m ++ l) (.error e) := by
  have hm' : ∀ e ∈ m, ¬ SentKill e := by
    rintro e he ⟨pid, x, rfl⟩
    exact hm _ he
  have hwaits : ∀ {l : List Event}, (∀ e ∈ l, Waits e) → ∀ e ∈ l, ¬ SentKill e := by
    rintro l hl e he ⟨pid, x, rfl⟩
    exact hl _ he
  cases h with
  | @exited status l hp =>
    constructor
    · rintro - e he
      obtain ⟨⟨⟩⟩ | hx := hp.inTime_answer hm he
      cases hx
    · rintro -
      refine ⟨.inl ?_, fun pid' l₁ x l₂ hl => ?_, fun status' => ⟨?_, fun h => ?_⟩⟩
      · obtain ⟨status, hs⟩ := hp.reaped
        exact ⟨status, List.mem_append_right _ hs⟩
      · have hsent : SentKill ⟨.kill pid' .sigkill, x⟩ := ⟨pid', x, rfl⟩
        obtain ⟨c, rfl, hc⟩ := split_right hm' hsent hl
        exact absurd hsent (hwaits hp.waits _ (by simp [hc]))
      · rintro ⟨pid', h⟩
        cases h
        exact hp.inTime hm nofun
      · obtain ⟨⟨⟩⟩ | hx := hp.inTime_answer hm h
        cases hx
        exact ⟨pid, rfl⟩
  | @refused e l hp =>
    constructor
    · rintro ⟨⟨status, hs⟩ | ⟨name, hs⟩, -, -⟩
      · obtain hs | hs := List.mem_append.1 hs
        · exact (hm _ hs).elim
        · obtain ⟨⟨⟩⟩ | hx := hp.answer hs
          cases hx
      · obtain hs | hs := List.mem_append.1 hs
        · exact (hm _ hs).elim
        · exact (hp.waits _ hs).elim
    · intro h
      exact absurd (hp.inTime (x := .error e) hm nofun) (h e)
  | @late kill r l l' tail hp he htail hkill hr =>
    have hlate : ∀ {x}, InTime watchdog (m ++ (l ++ (l' ++ tail))) x → x = .ok none := hp.late hm
    constructor
    · rintro - e h
      exact absurd (hlate h) nofun
    · rintro -
      refine ⟨?_, fun pid' l₁ x l₂ hl => ?_, fun status' => ⟨?_, fun h => ?_⟩⟩
      · obtain ⟨escalated, rfl⟩ | htail' := hkill
        · obtain ⟨status, hs⟩ := he.reaped
          exact .inl ⟨status, by simp [hs]⟩
        · obtain ⟨e, tail', rfl⟩ := List.exists_cons_of_ne_nil htail'
          obtain ⟨name, created, rfl⟩ := htail e (by simp)
          obtain rfl := hreaper name created (by simp)
          exact .inr ⟨name, by simp⟩
      · rw [← List.append_assoc] at hl
        refine he.graceGiven_append (fun e he => ?_) ?_ hl
        · exact (List.mem_append.1 he).elim (hm' e) (hwaits hp.waits e)
        · rintro e he ⟨_, _, rfl⟩
          obtain ⟨_, _, h⟩ := htail _ he
          cases h
      · rintro ⟨pid', h⟩
        exact absurd h (hr pid' status')
      · exact absurd (hlate h) nofun

end Kept

/-! ## Runs -/

section Runs

variable {watchdog : Watchdog} {command : Command} {n : ℕ}

/-- A child that the program spawns is supervised from there on. -/
def Supervises (watchdog : Watchdog) (x : Io RunOutcome) : Prop :=
  ∀ r l, Ends x r l → r ≠ .error .running → Spawned l →
    ∃ pid m l', l = m ++ l' ∧ (∀ e ∈ m, Starts e) ∧ Supervised watchdog pid r l'

theorem supervises_spawn (stdin : Option (List UInt8)) :
    Supervises watchdog (spawn command stdin >>= fun child => supervise child watchdog n) := by
  rintro r l h hr ⟨command', stdin', child, hspawn⟩
  obtain ⟨e, rfl, hs⟩ | ⟨pid, m, l', rfl, hs, hgo⟩ := ends_bind_iff.1 h
  · obtain ⟨x, hx, rfl⟩ := ends_ask_iff.1 hs
    cases List.mem_singleton.1 hspawn
    cases hx
  · obtain ⟨x, -, rfl⟩ := ends_ask_iff.1 hs
    exact ⟨pid, _, l', rfl, by simp [Starts], supervise_supervised hgo hr⟩

/-- Before the spawn there is no child. -/
theorem Supervises.after {α : Type} {x : Io α} {f : α → Io RunOutcome}
    (hx : ∀ r l, Ends x r l → (∀ e ∈ l, Starts e) ∧ ¬ Spawned l)
    (hf : ∀ a, Supervises watchdog (f a)) : Supervises watchdog (x >>= f) := by
  intro r l h hr hspawned
  obtain ⟨e, rfl, hl⟩ | ⟨a, l₁, l₂, rfl, hl, hgo⟩ := ends_bind_iff.1 h
  · exact absurd hspawned (hx _ _ hl).2
  · have hspawned' : Spawned l₂ := by
      obtain ⟨command', stdin, child, hmem⟩ := hspawned
      refine ⟨command', stdin, child, (List.mem_append.1 hmem).resolve_left fun hmem => ?_⟩
      exact (hx _ _ hl).2 ⟨command', stdin, child, hmem⟩
    obtain ⟨pid, m, l', rfl, hm, hs⟩ := hf a r l₂ hgo hr hspawned'
    refine ⟨pid, l₁ ++ m, l', (List.append_assoc ..).symm, fun e he => ?_, hs⟩
    exact (List.mem_append.1 he).elim ((hx _ _ hl).1 e) (hm e)

theorem run_supervises : Supervises watchdog (run command watchdog n) := supervises_spawn none

theorem runWithInput_supervises (input : List UInt8) :
    Supervises watchdog (runWithInput command watchdog input n) := by
  have hask : ∀ {α : Type} (o : Op) (f : o.Res → Except (Stop IoError) α),
      (∀ x, Starts ⟨o, x⟩) → (∀ command stdin, o ≠ .spawn command stdin) →
      ∀ r l, Ends (ask o f) r l → (∀ e ∈ l, Starts e) ∧ ¬ Spawned l := by
    intro α o f hstarts hne r l h
    obtain ⟨x, -, rfl⟩ := ends_ask_iff.1 h
    refine ⟨by simpa using hstarts x, ?_⟩
    rintro ⟨command, stdin, child, hmem⟩
    cases List.mem_singleton.1 hmem
    exact hne command stdin rfl
  refine .after (fun r l h => ?_) fun _ => ?_
  · obtain rfl := ends_ensure h
    exact ⟨nofun, nofun⟩
  refine .after (hask _ _ (fun _ => trivial) nofun) fun _ => ?_
  refine .after (hask _ _ (fun _ => trivial) nofun) fun _ => ?_
  refine .after (hask _ _ (fun _ => trivial) nofun) fun _ => ?_
  exact supervises_spawn (some input)

/-- **The helper is not abandoned**, in a run that returns and has spawned it, exactly when
`try_wait` has not failed before the deadline was seen to have passed. -/
theorem childKept_iff (input : List UInt8) {x : Io RunOutcome}
    (hx : x = run command watchdog n ∨ x = runWithInput command watchdog input n)
    {r : Except (Stop IoError) RunOutcome} {l : List Event} (h : Ends x r l)
    (hr : r ≠ .error .running) (hspawned : Spawned l)
    (hreaper : ∀ name created, ⟨.spawnReaper name, created⟩ ∈ l → created = true) :
    Kept watchdog r l ↔ ∀ e, ¬ InTime watchdog l (.error e) := by
  have hsup : Supervises watchdog x := by
    obtain rfl | rfl := hx
    · exact run_supervises
    · exact runWithInput_supervises input
  obtain ⟨pid, m, l', rfl, hm, hs⟩ := hsup r l h hr hspawned
  exact hs.kept_iff hm hreaper

/-- A second of patience, and a quarter of a second of grace. -/
def sampleWatchdog : Watchdog := ⟨1000000000, 250000000, 5000000⟩

section Rounds

variable {budget interval started : ℕ}

/-- The child runs on, and there is time left for a nap. -/
theorem ends_pollRound_nap {t span : ℕ} (ht : t - started < budget)
    (hspan : span = min interval (budget - (t - started))) :
    Ends (pollRound budget interval started) (.ok (.inl ()))
      [⟨.tryWait, .ok none⟩, ⟨.now, t⟩, ⟨.sleep span, ()⟩] := by
  subst hspan
  have hleft : ¬ budget - (t - started) = 0 := by omega
  refine ends_bind_iff.2 (.inr ⟨none, [_], _, rfl, .op _ (.pure _), ?_⟩)
  refine ends_bind_iff.2 (.inr ⟨t, [_], _, rfl, ends_ask_iff.2 ⟨t, rfl, rfl⟩, ?_⟩)
  simp only [if_neg hleft]
  exact .op _ (.pure _)

/-- The child runs on, and the time is up. -/
theorem ends_pollRound_expired {t : ℕ} (ht : budget ≤ t - started) :
    Ends (pollRound budget interval started) (.ok (.inr none))
      [⟨.tryWait, .ok none⟩, ⟨.now, t⟩] := by
  have hleft : budget - (t - started) = 0 := by omega
  refine ends_bind_iff.2 (.inr ⟨none, [_], _, rfl, .op _ (.pure _), ?_⟩)
  refine ends_bind_iff.2 (.inr ⟨t, [_], [], rfl, ends_ask_iff.2 ⟨t, rfl, rfl⟩, ?_⟩)
  simp only [if_pos hleft]
  exact .pure _

theorem ends_pollRound_exited (status : ExitStatus) :
    Ends (pollRound budget interval started) (.ok (.inr (some status)))
      [⟨.tryWait, .ok (some status)⟩] := .op _ (.pure _)

theorem ends_poll {rounds : ℕ} {r : Except (Stop IoError) (Option ExitStatus)} {l : List Event}
    (h : Ends (loop (fun () => pollRound budget interval started) rounds ()) r l) :
    Ends (poll budget interval rounds) r (⟨.now, started⟩ :: l) :=
  ends_bind_iff.2 (.inr ⟨started, [_], l, rfl, ends_ask_iff.2 ⟨started, rfl, rfl⟩, h⟩)

end Rounds

/-- A child that is looked at again after a nap, and then has to be killed. -/
def killedRun : List Event :=
  [⟨.spawn (.new []) none, .ok 7⟩, ⟨.now, (0 : ℕ)⟩, ⟨.tryWait, .ok none⟩, ⟨.now, (0 : ℕ)⟩,
    ⟨.sleep 5000000, ()⟩, ⟨.tryWait, .ok none⟩, ⟨.now, (1000000000 : ℕ)⟩, ⟨.kill 7 .sigterm, .ok ()⟩,
    ⟨.now, (1000000000 : ℕ)⟩, ⟨.tryWait, .ok none⟩, ⟨.now, (1250000000 : ℕ)⟩,
    ⟨.kill 7 .sigkill, .ok ()⟩, ⟨.now, (1250000000 : ℕ)⟩, ⟨.tryWait, .ok (some 9)⟩]

theorem ends_killedRun :
    Ends (run (.new []) sampleWatchdog 201) (.ok ⟨7, .timedOut true⟩) killedRun := by
  have hnap : Ends (pollRound 1000000000 5000000 0) (.ok (.inl ()))
      [⟨.tryWait, .ok none⟩, ⟨.now, (0 : ℕ)⟩, ⟨.sleep 5000000, ()⟩] :=
    ends_pollRound_nap (by decide) rfl
  have hover : Ends (pollRound 1000000000 5000000 0) (.ok (.inr none))
      [⟨.tryWait, .ok none⟩, ⟨.now, (1000000000 : ℕ)⟩] := ends_pollRound_expired (by decide)
  have hspent : Ends (pollRound 250000000 5000000 1000000000) (.ok (.inr none))
      [⟨.tryWait, .ok none⟩, ⟨.now, (1250000000 : ℕ)⟩] := ends_pollRound_expired (by decide)
  have hterm : Ends (waitWithin 250000000 5000000 201) (.ok false) [⟨.now, (1000000000 : ℕ)⟩,
      ⟨.tryWait, .ok none⟩, ⟨.now, (1250000000 : ℕ)⟩] :=
    ends_bind_iff.2 (.inr ⟨none, _, [], rfl, ends_poll (ends_loop_break hspent), .pure _⟩)
  have hkill : Ends (waitWithin 250000000 5000000 201) (.ok true) [⟨.now, (1250000000 : ℕ)⟩,
      ⟨.tryWait, .ok (some 9)⟩] :=
    ends_bind_iff.2 (.inr ⟨some 9, _, [], rfl,
      ends_poll (ends_loop_break (ends_pollRound_exited 9)), .pure _⟩)
  refine ends_bind_iff.2 (.inr ⟨7, [_], _, rfl, .op _ (.pure _), ?_⟩)
  refine ends_bind_iff.2 (.inr ⟨none, _, killedRun.drop 7, rfl,
    ends_poll (ends_loop_next hnap (ends_loop_break hover)), ?_⟩)
  refine ends_bind_iff.2 (.inr ⟨.ok (.reaped true), killedRun.drop 7, [], rfl, ?_, .pure _⟩)
  refine ends_settle_iff.2 ⟨.ok (.reaped true), ?_, rfl⟩
  refine ends_bind_iff.2 (.inr ⟨(), [_], killedRun.drop 8, rfl, .op _ (.pure _), ?_⟩)
  refine ends_bind_iff.2 (.inr ⟨false, _, killedRun.drop 11, rfl, hterm, ?_⟩)
  refine ends_bind_iff.2 (.inr ⟨(), [_], killedRun.drop 12, rfl, .op _ (.pure _), ?_⟩)
  exact ends_bind_iff.2 (.inr ⟨true, killedRun.drop 12, [], rfl, hkill, .pure _⟩)

theorem childKept_iff_killed : Kept sampleWatchdog (.ok ⟨7, .timedOut true⟩) killedRun ↔
    ∀ e, ¬ InTime sampleWatchdog killedRun (.error e) :=
  childKept_iff [] (.inl rfl) ends_killedRun nofun ⟨.new [], none, 7, by simp [killedRun]⟩
    (by simp [killedRun])

/-- A child that cannot be waited for, the first time it is looked at. -/
def refusedRun : List Event :=
  [⟨.spawn (.new []) none, .ok 7⟩, ⟨.now, 0⟩, ⟨.tryWait, .error (.os (.other 10))⟩]

/-- When the first `try_wait` fails, the child is dropped. -/
theorem not_kept_refused : ¬ ∀ r l, Ends (run (.new []) sampleWatchdog 1) r l →
    r ≠ .error .running → Spawned l →
    (∀ name created, ⟨.spawnReaper name, created⟩ ∈ l → created = true) →
    Kept sampleWatchdog r l := by
  intro h
  have hkept := h (.error (.failed (.os (.other 10)))) refusedRun
    (.op _ (.op _ (.op _ (.pure _)))) nofun
    ⟨.new [], none, 7, by simp [refusedRun]⟩ (by simp [refusedRun])
  obtain ⟨status, hs⟩ | ⟨name, hs⟩ := hkept.notAbandoned <;> simp [refusedRun] at hs

end Runs

end Supervise

end Pam

end Tess

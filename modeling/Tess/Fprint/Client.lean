import Mathlib.Data.List.Basic
import Tess.Effects.Interfaces

/-!
# The fingerprint client

`fprintd` claims a device, starts a verification, and reports with signals how it goes, until one of
them is terminal or the deadline has passed. This module follows `tess-fprint/src/lib.rs`.

The bus, the clock and the stream of signals are the environment: it answers every call in any way.
Times are in nanoseconds. The backstop of `FprintClient::verify` drops everything some time after the
deadline, whatever call is pending then, so that for it an answer may also fail to arrive.
-/

namespace Tess

namespace Fprint

open Effects

/-- The errors of this client. -/
inductive Error where
  | auth (what : String)
  | timeout (ms : ℕ)

/-- The finger that is asked for. -/
def verifyAnyFinger : String := "any"

def noMatchReason : String := "fingerprint did not match"

/-! ## Signals -/

inductive VerifyOutcome where
  | matched
  | noMatch
  | failed (token : String)
  | retry

def classifyVerifyResult (result : String) (done : Bool) : VerifyOutcome :=
  if result = "verify-match" then .matched
  else if result = "verify-no-match" then .noMatch
  else if done then .failed result
  else .retry

/-- A status, and whether it is the last one. -/
abbrev Status := String × Bool

/-- The signal ends the verification. -/
def Terminal (s : Status) : Prop :=
  s.1 = "verify-match" ∨ s.1 = "verify-no-match" ∨ s.2 = true

instance (s : Status) : Decidable (Terminal s) :=
  inferInstanceAs (Decidable (s.1 = "verify-match" ∨ s.1 = "verify-no-match" ∨ s.2 = true))

/-- What comes first: a signal, which may not be parsed, the end of the stream, or the timer. -/
inductive Next where
  | signal (args : Except String Status)
  | closed
  | elapsed

/-! ## Calls -/

inductive Op where
  | now
  | managerProxy
  | getDefaultDevice
  | devicePath (path : String)
  | deviceProxy (path : String)
  | claim (username : String)
  | receiveVerifyStatus
  | verifyStart (fingerName : String)
  | next (span : ℕ)
  | verifyStop
  | release
  deriving DecidableEq

@[reducible] def Op.Res : Op → Type
  | .now => ℕ
  | .getDefaultDevice => Except String String
  | .next _ => Next
  | _ => Except String Unit

abbrev Event := Answer Op.Res

abbrev Io := ExceptT (Stop Error) (Prog Op.Res)

def now : Io ℕ := ask .now .ok

/-- What the bus refuses is an error of the gate. -/
def authError {α : Type} (what : String) (x : Except String α) : Except (Stop Error) α :=
  x.mapError fun e => .failed (.auth (what ++ ": " ++ e))

/-- Whether to go on after a signal, and the error where it is the end. -/
def judge (deadlineMs : ℕ) : Next → Except (Stop Error) (Unit ⊕ Unit)
  | .signal (.ok (result, done)) =>
    match classifyVerifyResult result done with
    | .matched => .ok (.inr ())
    | .noMatch => .error (.failed (.auth noMatchReason))
    | .failed token => .error (.failed (.auth ("fprintd verification failed: " ++ token)))
    | .retry => .ok (.inl ())
  | .signal (.error e) => .error (.failed (.auth ("parse VerifyStatus signal: " ++ e)))
  | .closed => .error (.failed (.auth "VerifyStatus stream closed"))
  | .elapsed => .error (.failed (.timeout deadlineMs))

def waitRound (start deadlineMs : ℕ) : Io (Unit ⊕ Unit) := do
  let t ← now
  let elapsed := t - start
  let total := deadlineMs * 1000000
  if total ≤ elapsed then throw (.failed (.timeout deadlineMs))
  else ask (.next (total - elapsed)) (judge deadlineMs)

def waitForOutcome (start deadlineMs rounds : ℕ) : Io Unit :=
  loop (fun () => waitRound start deadlineMs) rounds ()

/-- The stream is there before the verification starts, so that no signal is missed. -/
def verifyClaimed (start deadlineMs rounds : ℕ) : Io Unit := do
  ask .receiveVerifyStatus (authError "subscribe VerifyStatus")
  ask (.verifyStart verifyAnyFinger) (authError "fprintd VerifyStart")
  ensuring (waitForOutcome start deadlineMs rounds) .verifyStop

def verifyAsync (username : String) (deadlineMs rounds : ℕ) : Io Unit := do
  let start ← now
  ask .managerProxy (authError "fprintd Manager proxy")
  let path ← ask .getDefaultDevice (authError "fprintd GetDefaultDevice")
  ask (.devicePath path) (authError ("fprintd device path " ++ path))
  ask (.deviceProxy path) (authError "fprintd Device proxy")
  ask (.claim username) (authError "fprintd Claim")
  ensuring (verifyClaimed start deadlineMs rounds) .release

/-! ## Waiting -/

def Next.status : Next → Option Status
  | .signal (.ok s) => some s
  | _ => none

/-- The signals that were received. -/
def signals (l : List Event) : List Status :=
  l.filterMap fun
    | ⟨.next _, x⟩ => x.status
    | _ => none

@[simp] theorem signals_append (l l' : List Event) : signals (l ++ l') = signals l ++ signals l' :=
  List.filterMap_append ..

/-- The calls of a wait, the first round first. Each round looks at the clock, and waits for what is
left. -/
inductive Waits (start deadlineMs : ℕ) :
    ℕ → Except (Stop Error) Unit → List Event → Prop
  | running : Waits start deadlineMs 0 (.error .running) []
  | expired {n : ℕ} (t : ℕ) (ht : deadlineMs * 1000000 ≤ t - start) :
      Waits start deadlineMs (n + 1) (.error (.failed (.timeout deadlineMs))) [⟨.now, t⟩]
  | failed {n : ℕ} (t : ℕ) (ht : t - start < deadlineMs * 1000000) (x : Next) (e : Error)
      (hx : judge deadlineMs x = .error (.failed e)) :
      Waits start deadlineMs (n + 1) (.error (.failed e))
        [⟨.now, t⟩, ⟨.next (deadlineMs * 1000000 - (t - start)), x⟩]
  | matched {n : ℕ} (t : ℕ) (ht : t - start < deadlineMs * 1000000) (x : Next)
      (hx : judge deadlineMs x = .ok (.inr ())) :
      Waits start deadlineMs (n + 1) (.ok ())
        [⟨.now, t⟩, ⟨.next (deadlineMs * 1000000 - (t - start)), x⟩]
  | retry {n : ℕ} {r : Except (Stop Error) Unit} {l : List Event} (t : ℕ)
      (ht : t - start < deadlineMs * 1000000) (x : Next) (hx : judge deadlineMs x = .ok (.inl ()))
      (h : Waits start deadlineMs n r l) :
      Waits start deadlineMs (n + 1) r
        (⟨.now, t⟩ :: ⟨.next (deadlineMs * 1000000 - (t - start)), x⟩ :: l)

variable {start deadlineMs rounds : ℕ} {username : String} {r : Except (Stop Error) Unit}
  {l : List Event}

theorem waitRound_run {r : Except (Stop Error) (Unit ⊕ Unit)}
    (h : Ends (waitRound start deadlineMs) r l) : ∃ t,
      (deadlineMs * 1000000 ≤ t - start ∧ r = .error (.failed (.timeout deadlineMs)) ∧
        l = [⟨.now, t⟩]) ∨
      t - start < deadlineMs * 1000000 ∧ ∃ x, r = judge deadlineMs x ∧
        l = [⟨.now, t⟩, ⟨.next (deadlineMs * 1000000 - (t - start)), x⟩] := by
  unfold waitRound now at h
  obtain ⟨t, l, rfl, ⟨_, ⟨⟩, -⟩ | ⟨_, ⟨⟩, h⟩⟩ := ends_ask_bind_iff.1 h
  by_cases ht : deadlineMs * 1000000 ≤ t - start
  · rw [if_pos ht] at h
    obtain ⟨rfl, rfl⟩ := ends_throw_iff.1 h
    exact ⟨t, .inl ⟨ht, rfl, rfl⟩⟩
  · rw [if_neg ht] at h
    obtain ⟨x, rfl, rfl⟩ := ends_ask_iff.1 h
    exact ⟨t, .inr ⟨not_le.1 ht, x, rfl, rfl⟩⟩

theorem judge_ne_running {x : Next} : judge deadlineMs x ≠ .error .running := by
  unfold judge
  split
  · split <;> nofun
  all_goals nofun

theorem waitForOutcome_run (h : Ends (waitForOutcome start deadlineMs rounds) r l) :
    Waits start deadlineMs rounds r l := by
  unfold waitForOutcome at h
  induction rounds generalizing l with
  | zero =>
    obtain ⟨rfl, rfl⟩ := ends_throw_iff.1 h
    exact .running
  | succ n ih =>
    obtain ⟨e, rfl, hround⟩ | ⟨go, l₁, l₂, rfl, hround, hgo⟩ := ends_bind_iff.1 h
    · obtain ⟨t, ⟨ht, he, rfl⟩ | ⟨ht, x, hx, rfl⟩⟩ := waitRound_run hround
      · obtain rfl := Except.error.inj he
        exact .expired t ht
      · cases e with
        | failed e => exact .failed t ht x e hx.symm
        | running => exact absurd hx.symm judge_ne_running
    · obtain ⟨t, ⟨-, he, -⟩ | ⟨ht, x, hx, rfl⟩⟩ := waitRound_run hround
      · cases he
      · cases go with
        | inl => exact .retry t ht x hx.symm (ih hgo)
        | inr =>
          obtain ⟨rfl, rfl⟩ := ends_pure_iff.1 hgo
          exact .matched t ht x hx.symm

/-! ## What a signal decides -/

theorem classifyVerifyResult_retry_iff {result : String} {done : Bool} :
    classifyVerifyResult result done = .retry ↔ ¬ Terminal (result, done) := by
  unfold classifyVerifyResult Terminal
  split
  · simp [*]
  split
  · simp [*]
  cases done <;> simp [*]

theorem classifyVerifyResult_matched_iff {result : String} {done : Bool} :
    classifyVerifyResult result done = .matched ↔ result = "verify-match" := by
  unfold classifyVerifyResult
  split
  · simp [*]
  split
  · simp [*]
  cases done <;> simp [*]

variable (deadlineMs) in
theorem judge_retry_iff {x : Next} :
    judge deadlineMs x = .ok (.inl ()) ↔ ∃ s, x = .signal (.ok s) ∧ ¬ Terminal s := by
  constructor
  · intro h
    obtain (e | ⟨result, done⟩) | _ | _ := x
    · cases h
    · refine ⟨(result, done), rfl, classifyVerifyResult_retry_iff.1 ?_⟩
      unfold judge at h
      cases hclass : classifyVerifyResult result done <;> simp [hclass] at h ⊢
    · cases h
    · cases h
  · rintro ⟨⟨result, done⟩, rfl, hs⟩
    simp only [judge, classifyVerifyResult_retry_iff.2 hs]

variable (deadlineMs) in
theorem judge_matched_iff {x : Next} :
    judge deadlineMs x = .ok (.inr ()) ↔ ∃ done, x = .signal (.ok ("verify-match", done)) := by
  constructor
  · intro h
    obtain (e | ⟨result, done⟩) | _ | _ := x
    · cases h
    · have hmatch : result = "verify-match" := by
        refine classifyVerifyResult_matched_iff.1 (?_ : classifyVerifyResult result done = _)
        unfold judge at h
        cases hclass : classifyVerifyResult result done <;> simp [hclass] at h ⊢
      exact ⟨done, by rw [hmatch]⟩
    · cases h
    · cases h
  · rintro ⟨done, rfl⟩
    simp only [judge, classifyVerifyResult_matched_iff.2]

/-- An error is for a signal that is no match, or for none. -/
theorem judge_failed {x : Next} {e : Error} {s : Status}
    (h : judge deadlineMs x = .error (.failed e)) (hs : x.status = some s) :
    Terminal s ∧ s.1 ≠ "verify-match" := by
  obtain (_ | ⟨result, done⟩) | _ | _ := x
  · cases hs
  · obtain rfl := Option.some.inj hs
    constructor
    · refine not_not.1 fun hterm => ?_
      have hretry := (judge_retry_iff deadlineMs).2 ⟨_, rfl, hterm⟩
      rw [h] at hretry
      cases hretry
    · rintro rfl
      have hmatched := (judge_matched_iff deadlineMs).2 ⟨done, rfl⟩
      rw [h] at hmatched
      cases hmatched
  · cases hs
  · cases hs

/-- The first signal that ends a verification. -/
def firstTerminal (l : List Event) : Option Status := (signals l).find? fun s => Terminal s

theorem signals_round (t span : ℕ) (x : Next) (l : List Event) :
    signals (⟨.now, t⟩ :: ⟨.next span, x⟩ :: l) = x.status.toList ++ signals l := by
  cases hs : x.status <;> simp [signals, hs]

theorem firstTerminal_of_terminal {x : Next} {s : Status} (hs : x.status = some s)
    (hterm : Terminal s) (t span : ℕ) (l : List Event) :
    firstTerminal (⟨.now, t⟩ :: ⟨.next span, x⟩ :: l) = some s := by
  rw [firstTerminal, signals_round, hs]
  simp [hterm]

theorem firstTerminal_skip {x : Next} (hx : ∀ s, x.status = some s → ¬ Terminal s) (t span : ℕ)
    (l : List Event) :
    firstTerminal (⟨.now, t⟩ :: ⟨.next span, x⟩ :: l) = firstTerminal l := by
  rw [firstTerminal, signals_round, firstTerminal]
  cases hs : x.status with
  | none => rfl
  | some s => simp [hx s hs]

/-- **A wait ends well** if the first terminal signal is a match. -/
theorem Waits.ok_iff (h : Waits start deadlineMs rounds r l) :
    r = .ok () ↔ ∃ done, firstTerminal l = some ("verify-match", done) := by
  induction h with
  | running => simp [firstTerminal, signals]
  | expired t ht => simp [firstTerminal, signals]
  | failed t ht x e hx =>
    refine ⟨nofun, ?_⟩
    rintro ⟨done, hfirst⟩
    cases hs : x.status with
    | none =>
      rw [firstTerminal_skip (by simp [hs])] at hfirst
      cases hfirst
    | some s =>
      obtain ⟨hterm, hne⟩ := judge_failed hx hs
      rw [firstTerminal_of_terminal hs hterm] at hfirst
      obtain rfl := Option.some.inj hfirst
      exact absurd rfl hne
  | matched t ht x hx =>
    obtain ⟨done, rfl⟩ := (judge_matched_iff deadlineMs).1 hx
    exact ⟨fun _ => ⟨done, firstTerminal_of_terminal rfl (.inl rfl) _ _ _⟩, fun _ => rfl⟩
  | retry t ht x hx h ih =>
    obtain ⟨s, rfl, hs⟩ := (judge_retry_iff deadlineMs).1 hx
    rw [firstTerminal_skip, ih]
    intro s' hs'
    obtain rfl := Option.some.inj hs'
    exact hs

/-- A wait that was cut short received a signal in every round. -/
theorem Waits.length_signals (h : Waits start deadlineMs rounds r l)
    (hr : r = .error .running) : (signals l).length = rounds := by
  induction h with
  | running => rfl
  | retry t ht x hx h ih =>
    obtain ⟨s, rfl, -⟩ := (judge_retry_iff deadlineMs).1 hx
    rw [signals_round]
    simp [Next.status, ih hr]
  | _ => cases hr

/-- A wait calls nothing but the clock and the stream. -/
theorem Waits.op (h : Waits start deadlineMs rounds r l) :
    ∀ e ∈ l, e.1 = .now ∨ ∃ span, e.1 = .next span := by
  induction h with
  | running => simp
  | retry t ht x hx h ih => simpa using ih
  | _ => simp

/-- A signal is waited for in the first round, or in a later one. -/
theorem split_round {t span span' : ℕ} {x x' : Next} {l l₁ l₂ : List Event}
    (h : (⟨.now, t⟩ :: ⟨.next span, x⟩ :: l : List Event) = l₁ ++ ⟨.next span', x'⟩ :: l₂) :
    (l₁ = [⟨.now, t⟩] ∧ span' = span ∧ x' = x ∧ l₂ = l) ∨
      ∃ l₁', l₁ = ⟨.now, t⟩ :: ⟨.next span, x⟩ :: l₁' ∧ l = l₁' ++ ⟨.next span', x'⟩ :: l₂ := by
  obtain _ | ⟨e₁, _ | ⟨e₂, l₁'⟩⟩ := l₁
  · cases h
  · cases h
    exact .inl ⟨rfl, rfl, rfl, rfl⟩
  · cases h
    exact .inr ⟨l₁', rfl, rfl⟩

/-- **Every signal is waited for in time**, for what is left at the last look at the clock. -/
theorem Waits.inTime (h : Waits start deadlineMs rounds r l) {l₁ l₂ : List Event} {span : ℕ}
    {x : Next} (hl : l = l₁ ++ ⟨.next span, x⟩ :: l₂) :
    0 < span ∧ ∃ l₀ t, l₁ = l₀ ++ [⟨.now, t⟩] ∧ t - start + span = deadlineMs * 1000000 := by
  induction h generalizing l₁ with
  | running => simp at hl
  | expired t ht =>
    obtain _ | ⟨e, l₁⟩ := l₁
    · cases hl
    · simp at hl
  | failed t ht x' e hx | matched t ht x' hx =>
    obtain ⟨rfl, rfl, rfl, rfl⟩ | ⟨l₁', rfl, hrest⟩ := split_round hl
    · exact ⟨by omega, [], t, rfl, by omega⟩
    · simp at hrest
  | retry t ht x' hx h ih =>
    obtain ⟨rfl, rfl, rfl, rfl⟩ | ⟨l₁', rfl, hrest⟩ := split_round hl
    · exact ⟨by omega, [], t, rfl, by omega⟩
    · obtain ⟨hspan, l₀, t', rfl, ht'⟩ := ih hrest
      exact ⟨hspan, _ :: _ :: l₀, t', rfl, ht'⟩

/-- **Nothing is done after a terminal signal.** -/
theorem Waits.last (h : Waits start deadlineMs rounds r l) {l₁ l₂ : List Event} {span : ℕ}
    {s : Status} (hl : l = l₁ ++ ⟨.next span, .signal (.ok s)⟩ :: l₂) (hs : Terminal s) :
    l₂ = [] := by
  induction h generalizing l₁ with
  | running => simp at hl
  | expired t ht =>
    obtain _ | ⟨e, l₁⟩ := l₁
    · cases hl
    · simp at hl
  | failed t ht x e hx | matched t ht x hx =>
    obtain ⟨-, -, -, rfl⟩ | ⟨l₁', rfl, hrest⟩ := split_round hl
    · rfl
    · simp at hrest
  | retry t ht x hx h ih =>
    obtain ⟨-, -, rfl, -⟩ | ⟨l₁', rfl, hrest⟩ := split_round hl
    · obtain ⟨s', hsig, hs'⟩ := (judge_retry_iff deadlineMs).1 hx
      cases hsig
      exact absurd hs hs'
    · exact ih hrest

/-! ## The whole verification -/

/-- The calls before the device is claimed. -/
def Op.Setup : Op → Prop
  | .now | .managerProxy | .getDefaultDevice | .devicePath _ | .deviceProxy _ => True
  | _ => False

/-- The ends of a verification: by the call that was refused, or after a wait. -/
inductive VerifyRun (username : String) (start deadlineMs rounds : ℕ) :
    Except (Stop Error) Unit → List Event → Prop
  | refused (pre : List Event) (hpre : ∀ e ∈ pre, e.1.Setup) (what : String) :
      VerifyRun username start deadlineMs rounds (.error (.failed (.auth what))) pre
  | notClaimed (pre : List Event) (hpre : ∀ e ∈ pre, e.1.Setup) (what : String) (e : String) :
      VerifyRun username start deadlineMs rounds (.error (.failed (.auth what)))
        (pre ++ [⟨.claim username, .error e⟩])
  | deaf (pre : List Event) (hpre : ∀ e ∈ pre, e.1.Setup) (what : String) (e : String)
      (y : Except String Unit) :
      VerifyRun username start deadlineMs rounds (.error (.failed (.auth what)))
        (pre ++ [⟨.claim username, .ok ()⟩, ⟨.receiveVerifyStatus, .error e⟩, ⟨.release, y⟩])
  | notStarted (pre : List Event) (hpre : ∀ e ∈ pre, e.1.Setup) (what : String) (e : String)
      (y : Except String Unit) :
      VerifyRun username start deadlineMs rounds (.error (.failed (.auth what)))
        (pre ++ [⟨.claim username, .ok ()⟩, ⟨.receiveVerifyStatus, .ok ()⟩,
          ⟨.verifyStart verifyAnyFinger, .error e⟩, ⟨.release, y⟩])
  | waiting (pre : List Event) (hpre : ∀ e ∈ pre, e.1.Setup) (w : List Event)
      (hw : Waits start deadlineMs rounds (.error .running) w) :
      VerifyRun username start deadlineMs rounds (.error .running)
        (pre ++ [⟨.claim username, .ok ()⟩, ⟨.receiveVerifyStatus, .ok ()⟩,
          ⟨.verifyStart verifyAnyFinger, .ok ()⟩] ++ w)
  | waited (pre : List Event) (hpre : ∀ e ∈ pre, e.1.Setup) (w : List Event)
      (r : Except (Stop Error) Unit) (hr : r ≠ .error .running)
      (hw : Waits start deadlineMs rounds r w) (x y : Except String Unit) :
      VerifyRun username start deadlineMs rounds r
        (pre ++ [⟨.claim username, .ok ()⟩, ⟨.receiveVerifyStatus, .ok ()⟩,
          ⟨.verifyStart verifyAnyFinger, .ok ()⟩] ++ w ++ [⟨.verifyStop, x⟩, ⟨.release, y⟩])

/-- A call of the bus fails, or what follows goes on from what it returned. -/
theorem ends_authError_bind_iff {o : Op} {α : Type} {what : String} {g : α → Io Unit}
    {f : o.Res → Except String α} :
    Ends (ask o (fun x => authError what (f x)) >>= g) r l ↔ ∃ x l', l = ⟨o, x⟩ :: l' ∧
      ((∃ e, f x = .error e ∧ r = .error (.failed (.auth (what ++ ": " ++ e))) ∧ l' = []) ∨
        ∃ a, f x = .ok a ∧ Ends (g a) r l') := by
  rw [ends_ask_bind_iff]
  refine exists_congr fun x => exists_congr fun l' => and_congr_right fun _ => ?_
  unfold authError
  cases f x <;> simp [Except.mapError]

/-- The calls once the device is claimed, before it is released. -/
inductive ClaimedRun (start deadlineMs rounds : ℕ) :
    Except (Stop Error) Unit → List Event → Prop
  | deaf (what e : String) :
      ClaimedRun start deadlineMs rounds (.error (.failed (.auth what)))
        [⟨.receiveVerifyStatus, .error e⟩]
  | notStarted (what e : String) :
      ClaimedRun start deadlineMs rounds (.error (.failed (.auth what)))
        [⟨.receiveVerifyStatus, .ok ()⟩, ⟨.verifyStart verifyAnyFinger, .error e⟩]
  | waiting (w : List Event) (hw : Waits start deadlineMs rounds (.error .running) w) :
      ClaimedRun start deadlineMs rounds (.error .running)
        (⟨.receiveVerifyStatus, .ok ()⟩ :: ⟨.verifyStart verifyAnyFinger, .ok ()⟩ :: w)
  | waited (w : List Event) (r : Except (Stop Error) Unit) (hr : r ≠ .error .running)
      (hw : Waits start deadlineMs rounds r w) (x : Except String Unit) :
      ClaimedRun start deadlineMs rounds r
        (⟨.receiveVerifyStatus, .ok ()⟩ :: ⟨.verifyStart verifyAnyFinger, .ok ()⟩ ::
          (w ++ [⟨.verifyStop, x⟩]))

theorem verifyClaimed_run (h : Ends (verifyClaimed start deadlineMs rounds) r l) :
    ClaimedRun start deadlineMs rounds r l := by
  unfold verifyClaimed at h
  obtain ⟨_, l₁, rfl, ⟨e, rfl, rfl, rfl⟩ | ⟨_, rfl, hstart⟩⟩ := ends_authError_bind_iff.1 h
  · exact .deaf _ e
  obtain ⟨_, l₂, rfl, ⟨e, rfl, rfl, rfl⟩ | ⟨_, rfl, hwait⟩⟩ := ends_authError_bind_iff.1 hstart
  · exact .notStarted _ e
  obtain ⟨rfl, hw⟩ | ⟨hr, w, x, rfl, hw⟩ := ends_ensuring_iff.1 hwait
  · exact .waiting l₂ (waitForOutcome_run hw)
  · exact .waited w r hr (waitForOutcome_run hw) x

/-- **A verification** looks at the clock first, and ends in one of these ways. -/
theorem verifyAsync_run (h : Ends (verifyAsync username deadlineMs rounds) r l) :
    ∃ start l', l = ⟨.now, start⟩ :: l' ∧ VerifyRun username start deadlineMs rounds r l' := by
  unfold verifyAsync now at h
  obtain ⟨start, l, rfl, ⟨_, ⟨⟩, -⟩ | ⟨_, ⟨⟩, hmanager⟩⟩ := ends_ask_bind_iff.1 h
  refine ⟨start, l, rfl, ?_⟩
  obtain ⟨_, l₁, rfl, ⟨e, rfl, rfl, rfl⟩ | ⟨_, rfl, hdefault⟩⟩ :=
    ends_authError_bind_iff.1 hmanager
  · exact .refused [_] (by simp [Op.Setup]) _
  obtain ⟨d, l₂, rfl, ⟨e, hd, rfl, rfl⟩ | ⟨path, hd, hpath⟩⟩ := ends_authError_bind_iff.1 hdefault
  · exact .refused [_, _] (by simp [Op.Setup]) _
  obtain ⟨_, l₃, rfl, ⟨e, rfl, rfl, rfl⟩ | ⟨_, rfl, hproxy⟩⟩ := ends_authError_bind_iff.1 hpath
  · exact .refused [_, _, _] (by simp [Op.Setup]) _
  obtain ⟨_, l₄, rfl, ⟨e, rfl, rfl, rfl⟩ | ⟨_, rfl, hclaim⟩⟩ := ends_authError_bind_iff.1 hproxy
  · exact .refused [_, _, _, _] (by simp [Op.Setup]) _
  have hpre : ∀ e ∈ ([⟨.managerProxy, .ok ()⟩, ⟨.getDefaultDevice, d⟩, ⟨.devicePath path, .ok ()⟩,
      ⟨.deviceProxy path, .ok ()⟩] : List Event), e.1.Setup := by
    simp [Op.Setup]
  obtain ⟨_, l₅, rfl, ⟨e, rfl, rfl, rfl⟩ | ⟨_, rfl, hclaimed⟩⟩ := ends_authError_bind_iff.1 hclaim
  · exact .notClaimed _ hpre _ e
  obtain ⟨rfl, hc⟩ | ⟨hr, c, y, rfl, hc⟩ := ends_ensuring_iff.1 hclaimed
  · cases verifyClaimed_run hc with
    | waiting w hw => exact .waiting _ hpre w hw
    | waited w _ hr => exact absurd rfl hr
  · cases verifyClaimed_run hc with
    | deaf what e => exact .deaf _ hpre what e y
    | notStarted what e => exact .notStarted _ hpre what e y
    | waiting => exact absurd rfl hr
    | waited w _ hr hw x =>
      have hrun : VerifyRun username start deadlineMs rounds r _ := .waited _ hpre w r hr hw x y
      simpa using hrun

/-! ## What holds of a verification -/

/-- The event is the wait for a signal. -/
def Awaits (e : Event) : Prop := ∃ span, e.1 = .next span

theorem signals_eq_nil (h : ∀ e ∈ l, ¬ Awaits e) : signals l = [] := by
  refine List.filterMap_eq_nil_iff.2 fun e he => ?_
  obtain ⟨o, x⟩ := e
  cases o with
  | next span => exact absurd ⟨span, rfl⟩ (h _ he)
  | _ => rfl

theorem Op.Setup.not_awaits {e : Event} (h : e.1.Setup) : ¬ Awaits e := by
  rintro ⟨span, hspan⟩
  rw [hspan] at h
  exact h

/-- All signals are waited for in one part of a verification, before which the device was claimed
and the verification started, and after which it is only stopped and the device released. -/
structure Middle (username : String) (start deadlineMs rounds : ℕ) (r : Except (Stop Error) Unit)
    (l pre w post : List Event) : Prop where
  eq : l = pre ++ w ++ post
  pre_quiet : ∀ e ∈ pre, ¬ Awaits e
  post_closes : ∀ e ∈ post, e.1 = .verifyStop ∨ e.1 = .release
  cases : (w = [] ∧ r ≠ .ok () ∧ r ≠ .error .running) ∨
    Waits start deadlineMs rounds r w ∧ (⟨.claim username, .ok ()⟩ : Event) ∈ pre ∧
      (⟨.verifyStart verifyAnyFinger, .ok ()⟩ : Event) ∈ pre

theorem not_awaits_append {pre tail : List Event} (hpre : ∀ e ∈ pre, e.1.Setup)
    (htail : ∀ e ∈ tail, ¬ Awaits e) : ∀ e ∈ pre ++ tail, ¬ Awaits e := by
  intro e he
  obtain he | he := List.mem_append.1 he
  · exact (hpre e he).not_awaits
  · exact htail e he

theorem VerifyRun.middle (h : VerifyRun username start deadlineMs rounds r l) :
    ∃ pre w post, Middle username start deadlineMs rounds r l pre w post := by
  cases h with
  | refused _ hpre what =>
    exact ⟨l, [], [], by simp, fun e he => (hpre e he).not_awaits, by simp,
      .inl ⟨rfl, nofun, nofun⟩⟩
  | notClaimed pre hpre what e =>
    exact ⟨pre ++ [⟨.claim username, .error e⟩], [], [], by simp,
      not_awaits_append hpre (by simp [Awaits]), by simp, .inl ⟨rfl, nofun, nofun⟩⟩
  | deaf pre hpre what e y =>
    exact ⟨pre ++ [⟨.claim username, .ok ()⟩, ⟨.receiveVerifyStatus, .error e⟩], [],
      [⟨.release, y⟩], by simp, not_awaits_append hpre (by simp [Awaits]), by simp,
      .inl ⟨rfl, nofun, nofun⟩⟩
  | notStarted pre hpre what e y =>
    exact ⟨pre ++ [⟨.claim username, .ok ()⟩, ⟨.receiveVerifyStatus, .ok ()⟩,
      ⟨.verifyStart verifyAnyFinger, .error e⟩], [], [⟨.release, y⟩], by simp,
      not_awaits_append hpre (by simp [Awaits]), by simp, .inl ⟨rfl, nofun, nofun⟩⟩
  | waiting pre hpre w hw =>
    exact ⟨_, w, [], (List.append_nil _).symm, not_awaits_append hpre (by simp [Awaits]), by simp,
      .inr ⟨hw, by simp, by simp⟩⟩
  | waited pre hpre w _ hr hw x y =>
    exact ⟨_, w, [⟨.verifyStop, x⟩, ⟨.release, y⟩], rfl,
      not_awaits_append hpre (by simp [Awaits]), by simp, .inr ⟨hw, by simp, by simp⟩⟩

namespace Middle

variable {pre w post : List Event}

theorem post_quiet (h : Middle username start deadlineMs rounds r l pre w post) :
    ∀ e ∈ post, ¬ Awaits e := by
  rintro e he ⟨span, hspan⟩
  obtain hop | hop := h.post_closes e he
  · rw [hspan] at hop
    cases hop
  · rw [hspan] at hop
    cases hop

theorem signals_eq (h : Middle username start deadlineMs rounds r l pre w post) :
    signals l = signals w := by
  rw [h.eq, signals_append, signals_append, signals_eq_nil h.pre_quiet,
    signals_eq_nil h.post_quiet, List.nil_append, List.append_nil]

/-- A wait for a signal is in the middle. -/
theorem split (h : Middle username start deadlineMs rounds r l pre w post) {l₁ l₂ : List Event}
    {span : ℕ} {x : Next} (hl : l = l₁ ++ ⟨.next span, x⟩ :: l₂) :
    Waits start deadlineMs rounds r w ∧
      ∃ w₁ w₂, w = w₁ ++ ⟨.next span, x⟩ :: w₂ ∧ l₁ = pre ++ w₁ ∧ l₂ = w₂ ++ post := by
  have hsplit := split_middle h.pre_quiet h.post_quiet ⟨span, rfl⟩ (h.eq.symm.trans hl)
  refine ⟨?_, hsplit⟩
  obtain ⟨w₁, w₂, hw, -⟩ := hsplit
  obtain ⟨rfl, -⟩ | ⟨hwaits, -⟩ := h.cases
  · simp at hw
  · exact hwaits

end Middle

/-- The device was claimed. -/
def Claimed (e : Event) : Prop := ∃ username, e = ⟨.claim username, .ok ()⟩

/-- A verification was started. -/
def Started (e : Event) : Prop := ∃ finger, e = ⟨.verifyStart finger, .ok ()⟩

theorem not_claimed_of_setup {pre : List Event} (hpre : ∀ e ∈ pre, e.1.Setup) :
    ∀ e ∈ pre, ¬ Claimed e := by
  rintro _ he ⟨u, rfl⟩
  exact hpre _ he

theorem not_started_of_setup {pre : List Event} (hpre : ∀ e ∈ pre, e.1.Setup) :
    ∀ e ∈ pre, ¬ Started e := by
  rintro _ he ⟨f, rfl⟩
  exact hpre _ he

/-- A wait has no call but its own. -/
theorem Waits.not_op (h : Waits start deadlineMs rounds r l) (o : Op) (hnow : o ≠ .now)
    (hnext : ∀ span, o ≠ .next span) : ∀ e ∈ l, e.1 ≠ o := by
  rintro e he rfl
  obtain hop | ⟨span, hop⟩ := h.op e he
  · exact hnow hop
  · exact hnext span hop

theorem Waits.countP_eq_zero (h : Waits start deadlineMs rounds r l) (o : Op) (hnow : o ≠ .now)
    (hnext : ∀ span, o ≠ .next span) : l.countP (·.1 = o) = 0 :=
  List.countP_eq_zero.2 fun e he => by simpa using h.not_op o hnow hnext e he

/-- **The device is released** once after it was claimed. -/
theorem VerifyRun.release (h : VerifyRun username start deadlineMs rounds r l)
    (hr : r ≠ .error .running) {l₁ l₂ : List Event} {u : String}
    (hl : l = l₁ ++ ⟨.claim u, .ok ()⟩ :: l₂) : l₂.countP (·.1 = .release) = 1 := by
  have hclaimed : Claimed ⟨.claim u, .ok ()⟩ := ⟨u, rfl⟩
  cases h with
  | refused _ hpre what => exact absurd hclaimed (not_claimed_of_setup hpre _ (by simp [hl]))
  | notClaimed pre hpre what e =>
    obtain ⟨l', hpre'⟩ := split_left (P := Claimed) (by simp [Claimed]) hclaimed hl
    exact absurd hclaimed (not_claimed_of_setup hpre _ (by simp [hpre']))
  | deaf pre hpre what e y =>
    obtain ⟨-, -, rfl⟩ := split_unique (not_claimed_of_setup hpre) (by simp [Claimed]) hclaimed hl
    simp
  | notStarted pre hpre what e y =>
    obtain ⟨-, -, rfl⟩ := split_unique (not_claimed_of_setup hpre) (by simp [Claimed]) hclaimed hl
    simp
  | waiting => exact absurd rfl hr
  | waited pre hpre w _ hr hw x y =>
    have hwait : ∀ e ∈ w, ¬ Claimed e := by
      rintro _ he ⟨u', rfl⟩
      exact hw.not_op (.claim u') nofun nofun _ he rfl
    have hnone := hw.countP_eq_zero .release nofun nofun
    simp only [List.append_assoc, List.cons_append, List.nil_append] at hl
    obtain ⟨-, -, rfl⟩ := split_unique (not_claimed_of_setup hpre) (by
      simpa [Claimed, or_imp, forall_and] using hwait) hclaimed hl
    simp [hnone]

/-- **The verification is stopped** once after it was started, before the device is released. -/
theorem VerifyRun.stop (h : VerifyRun username start deadlineMs rounds r l)
    (hr : r ≠ .error .running) {l₁ l₂ : List Event} {finger : String}
    (hl : l = l₁ ++ ⟨.verifyStart finger, .ok ()⟩ :: l₂) :
    ∃ m y, l₂ = m ++ [⟨.release, y⟩] ∧ m.countP (·.1 = .verifyStop) = 1 ∧
      m.countP (·.1 = .release) = 0 := by
  have hstarted : Started ⟨.verifyStart finger, .ok ()⟩ := ⟨finger, rfl⟩
  cases h with
  | refused _ hpre what => exact absurd hstarted (not_started_of_setup hpre _ (by simp [hl]))
  | notClaimed pre hpre what e | deaf pre hpre what e y | notStarted pre hpre what e y =>
    obtain ⟨l', hpre'⟩ := split_left (P := Started) (by simp [Started]) hstarted hl
    exact absurd hstarted (not_started_of_setup hpre _ (by simp [hpre']))
  | waiting => exact absurd rfl hr
  | waited pre hpre w _ hr hw x y =>
    have hwait : ∀ e ∈ w, ¬ Started e := by
      rintro _ he ⟨f, rfl⟩
      exact hw.not_op (.verifyStart f) nofun nofun _ he rfl
    have hstop := hw.countP_eq_zero .verifyStop nofun nofun
    have hrelease := hw.countP_eq_zero .release nofun nofun
    have hbefore : ∀ e ∈ pre ++ [⟨.claim username, .ok ()⟩, ⟨.receiveVerifyStatus, .ok ()⟩],
        ¬ Started e := by
      intro e he
      obtain he | he := List.mem_append.1 he
      · exact not_started_of_setup hpre e he
      · rintro ⟨f, rfl⟩
        simp at he
    have hl' : pre ++ [⟨.claim username, .ok ()⟩, ⟨.receiveVerifyStatus, .ok ()⟩] ++
        ⟨.verifyStart verifyAnyFinger, .ok ()⟩ :: (w ++ [⟨.verifyStop, x⟩, ⟨.release, y⟩]) =
        l₁ ++ ⟨.verifyStart finger, .ok ()⟩ :: l₂ := by simpa using hl
    obtain ⟨-, -, rfl⟩ := split_unique hbefore (by
      simpa [Started, or_imp, forall_and] using hwait) hstarted hl'
    exact ⟨w ++ [⟨.verifyStop, x⟩], y, by simp, by simp [hstop], by simp [hrelease]⟩

/-- What is asked of a verification that returns `r`. -/
structure Verdict (username : String) (start deadlineMs rounds : ℕ) (r : Except (Stop Error) Unit)
    (l : List Event) : Prop where
  /-- It lets in just if the first terminal signal is a match. -/
  ok_iff : r = .ok () ↔ (⟨.claim username, .ok ()⟩ : Event) ∈ l ∧
    (⟨.verifyStart verifyAnyFinger, .ok ()⟩ : Event) ∈ l ∧
    ∃ done, firstTerminal l = some ("verify-match", done)
  /-- A signal is waited for until the deadline, which has not passed at the look before. -/
  inTime : ∀ l₁ span x l₂, l = l₁ ++ ⟨.next span, x⟩ :: l₂ → 0 < span ∧
    ∃ l₀ t, l₁ = l₀ ++ [⟨.now, t⟩] ∧ t - start + span = deadlineMs * 1000000
  /-- No signal is received after a terminal one. -/
  last : ∀ l₁ span s l₂, l = l₁ ++ ⟨.next span, .signal (.ok s)⟩ :: l₂ → Terminal s →
    ∀ e ∈ l₂, e.1 = .verifyStop ∨ e.1 = .release
  release : r ≠ .error .running → ∀ l₁ u l₂, l = l₁ ++ ⟨.claim u, .ok ()⟩ :: l₂ →
    l₂.countP (·.1 = .release) = 1
  stop : r ≠ .error .running → ∀ l₁ finger l₂, l = l₁ ++ ⟨.verifyStart finger, .ok ()⟩ :: l₂ →
    ∃ m y, l₂ = m ++ [⟨.release, y⟩] ∧ m.countP (·.1 = .verifyStop) = 1 ∧
      m.countP (·.1 = .release) = 0
  /-- It goes on only while it receives signals. -/
  running : r = .error .running → (signals l).length = rounds

theorem VerifyRun.verdict (h : VerifyRun username start deadlineMs rounds r l) :
    Verdict username start deadlineMs rounds r l := by
  obtain ⟨pre, w, post, hm⟩ := h.middle
  refine ⟨?_, ?_, ?_, ?_, ?_, ?_⟩
  · have hfirst : firstTerminal l = firstTerminal w := by
      rw [firstTerminal, hm.signals_eq, firstTerminal]
    rw [hfirst]
    obtain ⟨rfl, hok, -⟩ | ⟨hw, hclaim, hstart⟩ := hm.cases
    · simpa [firstTerminal, signals] using hok
    · rw [hw.ok_iff, hm.eq]
      simp [hclaim, hstart]
  · intro l₁ span x l₂ hl
    obtain ⟨hw, w₁, w₂, rfl, rfl, rfl⟩ := hm.split hl
    obtain ⟨hspan, l₀, t, rfl, ht⟩ := hw.inTime rfl
    exact ⟨hspan, pre ++ l₀, t, by simp, ht⟩
  · intro l₁ span s l₂ hl hs
    obtain ⟨hw, w₁, w₂, rfl, rfl, rfl⟩ := hm.split hl
    rw [hw.last rfl hs, List.nil_append]
    exact hm.post_closes
  · intro hr l₁ u l₂ hl
    exact h.release hr hl
  · intro hr l₁ finger l₂ hl
    exact h.stop hr hl
  · intro hr
    obtain ⟨-, -, hne⟩ | ⟨hw, -⟩ := hm.cases
    · exact absurd hr hne
    · rw [hm.signals_eq, hw.length_signals hr]

/-- **The fingerprint protocol.** -/
theorem verifyAsync_verdict (h : Ends (verifyAsync username deadlineMs rounds) r l) :
    ∃ start l', l = ⟨.now, start⟩ :: l' ∧ Verdict username start deadlineMs rounds r l' := by
  obtain ⟨start, l', rfl, hrun⟩ := verifyAsync_run h
  exact ⟨start, l', rfl, hrun.verdict⟩

/-- A swipe is too short, and the next one matches. -/
def sampleWait : List Event :=
  [⟨.now, (0 : ℕ)⟩, ⟨.next 1000000000, .signal (.ok ("verify-swipe-too-short", false))⟩,
    ⟨.now, (0 : ℕ)⟩, ⟨.next 1000000000, .signal (.ok ("verify-match", true))⟩]

theorem sampleWait_ends : Ends (waitForOutcome 0 1000 2) (.ok ()) sampleWait := by
  have hretry : judge 1000 (.signal (.ok ("verify-swipe-too-short", false))) = .ok (.inl ()) :=
    (judge_retry_iff 1000).2 ⟨_, rfl, by simp [Terminal]⟩
  have hmatched : judge 1000 (.signal (.ok ("verify-match", true))) = .ok (.inr ()) :=
    (judge_matched_iff 1000).2 ⟨true, rfl⟩
  have hround : ∀ x : Next, Ends (waitRound 0 1000) (judge 1000 x)
      [⟨.now, (0 : ℕ)⟩, ⟨.next 1000000000, x⟩] := fun x =>
    ends_ask_bind_iff.2 ⟨(0 : ℕ), _, rfl, .inr ⟨0, rfl, ends_ask_iff.2 ⟨x, rfl, rfl⟩⟩⟩
  have hlast : Ends (loop (fun _ => waitRound 0 1000) 1 ()) (.ok ())
      [⟨.now, (0 : ℕ)⟩, ⟨.next 1000000000, .signal (.ok ("verify-match", true))⟩] :=
    ends_loop_break (hmatched ▸ hround _)
  exact ends_loop_next (hretry ▸ hround _) hlast

def sampleVerification : List Event :=
  [⟨.now, (0 : ℕ)⟩, ⟨.managerProxy, .ok ()⟩, ⟨.getDefaultDevice, .ok "/dev0"⟩,
    ⟨.devicePath "/dev0", .ok ()⟩, ⟨.deviceProxy "/dev0", .ok ()⟩, ⟨.claim "user", .ok ()⟩,
    ⟨.receiveVerifyStatus, .ok ()⟩, ⟨.verifyStart verifyAnyFinger, .ok ()⟩] ++ sampleWait ++
    [⟨.verifyStop, .ok ()⟩, ⟨.release, .ok ()⟩]

theorem sampleVerification_ends : Ends (verifyAsync "user" 1000 2) (.ok ()) sampleVerification := by
  have hclaimed : Ends (verifyClaimed 0 1000 2) (.ok ())
      ([⟨.receiveVerifyStatus, .ok ()⟩, ⟨.verifyStart verifyAnyFinger, .ok ()⟩] ++ sampleWait ++
        [⟨.verifyStop, .ok ()⟩]) :=
    ends_authError_bind_iff.2 ⟨.ok (), _, rfl, .inr ⟨(), rfl, ends_authError_bind_iff.2
      ⟨.ok (), _, rfl, .inr ⟨(), rfl, ends_ensuring_iff.2
        (.inr ⟨nofun, sampleWait, .ok (), rfl, sampleWait_ends⟩)⟩⟩⟩⟩
  refine ends_ask_bind_iff.2 ⟨(0 : ℕ), _, rfl, .inr ⟨0, rfl, ?_⟩⟩
  refine ends_authError_bind_iff.2 ⟨.ok (), _, rfl, .inr ⟨(), rfl, ?_⟩⟩
  refine ends_authError_bind_iff.2 ⟨.ok "/dev0", _, rfl, .inr ⟨"/dev0", rfl, ?_⟩⟩
  refine ends_authError_bind_iff.2 ⟨.ok (), _, rfl, .inr ⟨(), rfl, ?_⟩⟩
  refine ends_authError_bind_iff.2 ⟨.ok (), _, rfl, .inr ⟨(), rfl, ?_⟩⟩
  refine ends_authError_bind_iff.2 ⟨.ok (), _, rfl, .inr ⟨(), rfl, ?_⟩⟩
  exact ends_ensuring_iff.2 (.inr ⟨nofun, _, .ok (), rfl, hclaimed⟩)

theorem verifyAsync_verdict_matched : ∃ start l', sampleVerification = ⟨.now, start⟩ :: l' ∧
    Verdict "user" start 1000 2 (.ok ()) l' :=
  verifyAsync_verdict sampleVerification_ends

/-! ## The backstop -/

/-- What is left for the clean-up after the deadline. -/
def cleanupGraceMs : ℕ := 1000

/-- The timer of the backstop, and the calls of a verification. -/
inductive CappedOp where
  | startTimer (span : ℕ)
  | call (o : Op)

/-- No answer arrives once the timer has fired. What needs no bus is there at once. -/
@[reducible] def CappedOp.Res : CappedOp → Type
  | .startTimer _ => Unit
  | .call .now => ℕ
  | .call (.devicePath _) => Except String Unit
  | .call o => Option o.Res

def CappedOp.arrived : (o : Op) → (CappedOp.call o).Res → Option o.Res
  | .now, t => some t
  | .devicePath _, x => some x
  | .managerProxy, x | .getDefaultDevice, x | .deviceProxy _, x | .claim _, x
  | .receiveVerifyStatus, x | .verifyStart _, x | .next _, x | .verifyStop, x | .release, x => x

def pending : Pending Op.Res CappedOp.Res := ⟨.call, CappedOp.arrived⟩

/-- `FprintClient::verify`. The verification is polled before the timer, so that an answer that has
arrived counts. -/
def verify (username : String) (deadlineMs rounds : ℕ) :
    ExceptT (Stop Error) (Prog CappedOp.Res) Unit := do
  ask (.startTimer ((deadlineMs + cleanupGraceMs) * 1000000)) .ok
  pending.raceT (.failed (.timeout deadlineMs)) (verifyAsync username deadlineMs rounds)

/-- **The backstop**: the verdict is that of a verification all of whose answers have arrived, or it
was given up at a pending call, and then it has timed out. -/
theorem verify_run {l : List (Answer CappedOp.Res)} (h : Ends (verify username deadlineMs rounds) r l) :
    ∃ l', l = ⟨.startTimer ((deadlineMs + cleanupGraceMs) * 1000000), ()⟩ :: l' ∧
      ((∃ start l₀, List.Forall₂ pending.Arrives (⟨.now, start⟩ :: l₀) l' ∧
          Verdict username start deadlineMs rounds r l₀) ∨
        r = .error (.failed (.timeout deadlineMs)) ∧
          pending.GivenUp (verifyAsync username deadlineMs rounds).run l') := by
  unfold verify at h
  obtain ⟨_, l', rfl, ⟨_, ⟨⟩, -⟩ | ⟨_, -, hrace⟩⟩ := ends_ask_bind_iff.1 h
  refine ⟨l', rfl, ?_⟩
  obtain ⟨l₀, hends, hl⟩ | hup := Pending.ends_raceT_iff.1 hrace
  · obtain ⟨start, l₀, rfl, hverdict⟩ := verifyAsync_verdict hends
    exact .inl ⟨start, l₀, hl, hverdict⟩
  · exact .inr hup

end Fprint

end Tess

import Tess.Effects.Interfaces
import Tess.Pam.Deadline

/-!
# The entry points of the PAM module

What `pam_sm_authenticate` and `pam_sm_open_session` do, from the items that PAM is asked for to the
code that is returned. This module follows `tess-pam/src/lib.rs`, `tess-pam/src/ffi.rs` and the
outcomes of `tess-pam/src/gate.rs`. PAM, the file system, the journal and the helper are the
environment. There are no panics.
-/

namespace Tess

namespace Pam

open Effects Text Supervise

/-! ## Runs of the helper -/

namespace Supervise

section Runs

variable {watchdog : Watchdog} {pid : Pid}

theorem Waits.not_starts {e : Event} (h : Waits e) : ¬ Starts e := by
  obtain ⟨o, x⟩ := e
  cases o with
  | tryWait | now | sleep => exact id
  | _ => exact h.elim

theorem Escalated.not_starts {r : Except (Stop IoError) Kill} {l : List Event}
    (h : Escalated watchdog pid r l) : ∀ e ∈ l, ¬ Starts e := by
  have hwait : ∀ {budget r l}, Polled budget r l → ∀ e ∈ l, ¬ Starts e := fun hp e he =>
    (hp.waits e he).not_starts
  intro e he
  cases h with
  | termRefused =>
    obtain rfl := List.mem_singleton.1 he
    exact id
  | term _ hp =>
    obtain rfl | he := List.mem_cons.1 he
    · exact id
    · exact hwait hp e he
  | killRefused _ hp =>
    obtain he | he := List.mem_append.1 he
    · obtain rfl | he := List.mem_cons.1 he
      · exact id
      · exact hwait hp e he
    · obtain rfl := List.mem_singleton.1 he
      exact id
  | kill _ hp hp' =>
    obtain he | he := List.mem_append.1 he
    · obtain rfl | he := List.mem_cons.1 he
      · exact id
      · exact hwait hp e he
    · obtain rfl | he := List.mem_cons.1 he
      · exact id
      · exact hwait hp' e he

theorem Supervised.not_starts {r : Except (Stop IoError) RunOutcome} {l : List Event}
    (h : Supervised watchdog pid r l) : ∀ e ∈ l, ¬ Starts e := by
  intro e he
  cases h with
  | exited hp => exact (hp.waits e he).not_starts
  | refused hp => exact (hp.waits e he).not_starts
  | late hp hescalated htail =>
    obtain he | he := List.mem_append.1 he
    · exact (hp.waits e he).not_starts
    · obtain he | he := List.mem_append.1 he
      · exact hescalated.not_starts e he
      · obtain ⟨name, created, rfl⟩ := htail e he
        exact id

/-- The child is said to have exited exactly when that was seen in time. -/
theorem Supervised.exited_iff {r : Except (Stop IoError) RunOutcome} {m l : List Event}
    (h : Supervised watchdog pid r l) (hm : ∀ e ∈ m, Starts e) (status : ExitStatus) :
    (∃ pid, r = .ok ⟨pid, .exited status⟩) ↔ InTime watchdog (m ++ l) (.ok (some status)) := by
  cases h with
  | @exited status' l hp =>
    constructor
    · rintro ⟨pid', h⟩
      cases h
      exact hp.inTime hm nofun
    · intro h
      obtain ⟨⟨⟩⟩ | hx := hp.inTime_answer hm h
      cases hx
      exact ⟨pid, rfl⟩
  | refused hp =>
    refine iff_of_false (fun h => ?_) fun h => ?_
    · obtain ⟨pid', h⟩ := h
      cases h
    · obtain ⟨⟨⟩⟩ | hx := hp.inTime_answer hm h
      cases hx
  | late hp _ _ _ hr =>
    exact iff_of_false (fun h => hr _ _ h.choose_spec) fun h => nomatch hp.late hm h

/-- A call that prepares the input of the child. -/
def Prepares : Event → Prop
  | ⟨.memfdCreate _, _⟩ | ⟨.writeAll _, _⟩ | ⟨.rewind, _⟩ => True
  | _ => False

theorem Prepares.starts {e : Event} (h : Prepares e) : Starts e := by
  obtain ⟨o, x⟩ := e
  cases o with
  | memfdCreate | writeAll | rewind => exact trivial
  | _ => exact h.elim

/-- A run that fails before there is a child, or that supervises one. -/
inductive Ran (command : Command) (watchdog : Watchdog) (input : List UInt8) :
    Except (Stop IoError) RunOutcome → List Event → Prop
  | unprepared {e : IoError} {m : List Event} (hm : ∀ e ∈ m, Prepares e) :
      Ran command watchdog input (.error (.failed e)) m
  | refused {e : IoError} {m : List Event} (hm : ∀ e ∈ m, Prepares e) :
      Ran command watchdog input (.error (.failed e))
        (m ++ [⟨.spawn command (some input), .error e⟩])
  | spawned {pid : Pid} {m l : List Event} {r : Except (Stop IoError) RunOutcome}
      (hm : ∀ e ∈ m, Prepares e) (hs : Supervised watchdog pid r l) :
      Ran command watchdog input r (m ++ ⟨.spawn command (some input), .ok pid⟩ :: l)

section Ran

variable {command : Command} {input : List UInt8} {n : ℕ}

theorem Ran.prepend {r : Except (Stop IoError) RunOutcome} {m l : List Event}
    (h : Ran command watchdog input r l) (hm : ∀ e ∈ m, Prepares e) :
    Ran command watchdog input r (m ++ l) := by
  have hboth : ∀ {m'}, (∀ e ∈ m', Prepares e) → ∀ e ∈ m ++ m', Prepares e := fun hm' e he =>
    (List.mem_append.1 he).elim (hm e) (hm' e)
  cases h with
  | unprepared hm' => exact .unprepared (hboth hm')
  | refused hm' =>
    rw [← List.append_assoc]
    exact .refused (hboth hm')
  | spawned hm' hs =>
    rw [← List.append_assoc]
    exact .spawned (hboth hm') hs

/-- What is called first only prepares. -/
theorem ran_after {α : Type} {x : Io α} {f : α → Io RunOutcome}
    (hx : ∀ r l, Ends x r l → (∀ e ∈ l, Prepares e) ∧ r ≠ .error .running)
    (hf : ∀ a r l, Ends (f a) r l → r ≠ .error .running → Ran command watchdog input r l)
    {r : Except (Stop IoError) RunOutcome} {l : List Event} (h : Ends (x >>= f) r l)
    (hr : r ≠ .error .running) : Ran command watchdog input r l := by
  obtain ⟨e, rfl, he⟩ | ⟨a, l₁, l₂, rfl, h₁, h₂⟩ := ends_bind_iff.1 h
  · cases e with
    | running => exact absurd rfl hr
    | failed e => exact .unprepared (hx _ _ he).1
  · exact (hf a r l₂ h₂ hr).prepend (hx _ _ h₁).1

theorem ask_prepares {α : Type} {o : Op} {f : o.Res → Except (Stop IoError) α}
    (ho : ∀ y, Prepares ⟨o, y⟩) (hf : ∀ y, f y ≠ .error .running) :
    ∀ r l, Ends (ask o f) r l → (∀ e ∈ l, Prepares e) ∧ r ≠ .error .running := by
  intro r l h
  obtain ⟨y, rfl, rfl⟩ := ends_ask_iff.1 h
  exact ⟨by simpa using ho y, hf y⟩

theorem runWithInput_ran {r : Except (Stop IoError) RunOutcome} {l : List Event}
    (h : Ends (runWithInput command watchdog input n) r l) (hr : r ≠ .error .running) :
    Ran command watchdog input r l := by
  have hensure : ∀ r l, Ends (ensure (input.length ≤ maxInputLen)
      (.failed (.invalidInput "helper input exceeds the maximum length")) : Io Unit) r l →
      (∀ e ∈ l, Prepares e) ∧ r ≠ .error .running := by
    intro r l h
    obtain rfl := ends_ensure h
    refine ⟨nofun, ?_⟩
    rintro rfl
    unfold ensure at h
    split at h
    · exact absurd (ends_pure_iff.1 h).1 nofun
    · exact absurd (ends_throw_iff.1 h).1 nofun
  refine ran_after hensure (fun _ r l h hr => ?_) h hr
  refine ran_after ?_ (fun _ r l h hr => ?_) h hr
  · exact ask_prepares (fun _ => trivial) fun y => by cases y <;> nofun
  refine ran_after ?_ (fun _ r l h hr => ?_) h hr
  · exact ask_prepares (fun _ => trivial) fun y => by cases y <;> nofun
  refine ran_after ?_ (fun _ r l h hr => ?_) h hr
  · exact ask_prepares (fun _ => trivial) fun y => by cases y <;> nofun
  obtain ⟨y, l', rfl, ⟨e, he, rfl, rfl⟩ | ⟨pid, hpid, hsup⟩⟩ := ends_ask_bind_iff.1 h
  · cases y with
    | ok pid => cases he
    | error e' =>
      obtain rfl := Except.error.inj he
      exact .refused (m := []) nofun
  · obtain rfl := mapError_eq_ok.1 hpid
    exact .spawned (m := []) nofun (supervise_supervised hsup hr)

/-- The helper is said to have exited exactly when that was seen in time. -/
theorem Ran.exited_iff {r : Except (Stop IoError) RunOutcome} {l : List Event}
    (h : Ran command watchdog input r l) (status : ExitStatus) :
    (∃ pid, r = .ok ⟨pid, .exited status⟩) ↔ InTime watchdog l (.ok (some status)) := by
  have hnone : ∀ {m : List Event}, (∀ e ∈ m, Starts e) →
      ¬ InTime watchdog m (.ok (some status)) := by
    rintro m hm ⟨l₁, l₂, rfl, -⟩
    exact hm ⟨.tryWait, .ok (some status)⟩ (by simp)
  cases h with
  | unprepared hm =>
    exact iff_of_false (fun h => nomatch h.choose_spec) (hnone fun e he => (hm e he).starts)
  | refused hm =>
    refine iff_of_false (fun h => nomatch h.choose_spec) (hnone fun e he => ?_)
    obtain he | he := List.mem_append.1 he
    · exact (hm e he).starts
    · obtain rfl := List.mem_singleton.1 he
      exact trivial
  | @spawned pid m l r hm hs =>
    rw [List.append_cons]
    refine hs.exited_iff (fun e he => ?_) status
    obtain he | he := List.mem_append.1 he
    · exact (hm e he).starts
    · obtain rfl := List.mem_singleton.1 he
      exact trivial

/-- Whether a call starts a child. -/
def isSpawn : Event → Bool
  | ⟨.spawn .., _⟩ => true
  | _ => false

theorem isSpawn_of_starts {e : Event} (h : ¬ Starts e) : isSpawn e = false := by
  obtain ⟨o, x⟩ := e
  cases o with
  | spawn => exact absurd trivial h
  | _ => rfl

theorem Prepares.isSpawn {e : Event} (h : Prepares e) : isSpawn e = false := by
  obtain ⟨o, x⟩ := e
  cases o with
  | spawn => exact h.elim
  | _ => rfl

/-- The child is started once, if at all, from the command and with the input. -/
theorem Ran.spawns {r : Except (Stop IoError) RunOutcome} {l : List Event}
    (h : Ran command watchdog input r l) :
    l.countP isSpawn ≤ 1 ∧
      ∀ c stdin x, ⟨.spawn c stdin, x⟩ ∈ l → c = command ∧ stdin = some input := by
  have hcount : ∀ {m : List Event}, (∀ e ∈ m, Supervise.isSpawn e = false) →
      m.countP isSpawn = 0 := by
    intro m hm
    rw [List.countP_eq_zero]
    intro e he
    rw [hm e he]
    decide
  have hnot : ∀ {m : List Event}, (∀ e ∈ m, Supervise.isSpawn e = false) →
      ∀ {c stdin x}, ⟨.spawn c stdin, x⟩ ∉ m := fun hm _ _ _ he => nomatch hm _ he
  cases h with
  | unprepared hm =>
    have hm := fun e he => (hm e he).isSpawn
    exact ⟨(hcount hm).le.trans (Nat.zero_le _), fun _ _ _ he => absurd he (hnot hm)⟩
  | @refused e m hm =>
    have hm := fun e he => (hm e he).isSpawn
    refine ⟨?_, fun c stdin x he => ?_⟩
    · rw [List.countP_append, hcount hm]
      rfl
    · obtain he | he := List.mem_append.1 he
      · exact absurd he (hnot hm)
      · cases List.mem_singleton.1 he
        exact ⟨rfl, rfl⟩
  | @spawned pid m l r hm hs =>
    have hm := fun e he => (hm e he).isSpawn
    have hl := fun e he => isSpawn_of_starts (hs.not_starts e he)
    refine ⟨?_, fun c stdin x he => ?_⟩
    · rw [List.countP_append, hcount hm, List.countP_cons, hcount hl]
      rfl
    · obtain he | he := List.mem_append.1 he
      · exact absurd he (hnot hm)
      · obtain he | he := List.mem_cons.1 he
        · cases he
          exact ⟨rfl, rfl⟩
        · exact absurd he (hnot hl)

end Ran

end Runs

end Supervise

/-! ## Outcomes -/

def pamAuthinfoUnavail : ℕ := 9

inductive GatePhase where
  | auth
  | session
  deriving DecidableEq

inductive GateResult where
  | authorized
  | declined
  | unavailable
  deriving DecidableEq

def ExitStatus.success (status : ExitStatus) : Bool := status = 0

def classify : Except IoError RunOutcome → GateResult
  | .ok ⟨_, .exited status⟩ => if ExitStatus.success status then .authorized else .declined
  | .ok ⟨_, .timedOut _⟩ => .unavailable
  | .error _ => .unavailable

def decide : GatePhase → GateResult → ℕ
  | .session, _ => pamSuccess
  | .auth, .authorized => pamSuccess
  | .auth, .declined | .auth, .unavailable => pamAuthinfoUnavail

namespace Gates

/-! ## Calls -/

inductive Item where
  | rhost
  | user
  deriving DecidableEq

/-- The calls to PAM, to the file system and to the journal, and those that run the helper. -/
inductive Op where
  | getItem (item : Item)
  | getAuthtok (prompt : String)
  | pathExists (path : String)
  | helper (o : Supervise.Op)
  | syslog (message : String)

@[reducible] def Op.Res : Op → Type
  | .getItem _ | .getAuthtok _ => Option OsString
  | .pathExists _ => Bool
  | .helper o => o.Res
  | .syslog _ => Unit

abbrev Event := Answer Op.Res

abbrev Io := ExceptT (Stop Empty) (Prog Op.Res)

/-- The calls that run the helper. -/
def helperPart : Part Supervise.Op.Res Op.Res where
  op := .helper
  res _ := .refl _

/-! ## The environment -/

/-- A string item of PAM, decoded. -/
def getStringItem (item : Item) : Io (Option Text) :=
  ask (.getItem item) fun x => .ok (x.map fromUtf8Lossy)

def isRemoteSession (pamRhost : Option Text) : Bool := pamRhost.any (· ≠ [])

def tpmPresent : Io Bool := do
  if ← ask (.pathExists "/dev/tpmrm0") .ok then pure true
  else ask (.pathExists "/dev/tpm0") .ok

def detect : Io GateEnv := do
  let rhost ← getStringItem .rhost
  let tpm ← tpmPresent
  pure ⟨isRemoteSession rhost, tpm⟩

def askUser : Io (Option Text) := ask (.getItem .user) fun x => .ok (getUser x)

def askPin : Io (Option OsString) := ask (.getAuthtok "tess PIN: ") fun x => .ok (getPin x)

/-! ## The gate -/

def millis (n : ℕ) : ℕ := n * 1000000

def seconds (n : ℕ) : ℕ := n * 1000000000

def defaultDeadline : ℕ := seconds 3

def fingerprintDeadline : ℕ := seconds 12

def faceDeadline : ℕ := seconds 9

/-- A watchdog with the default grace period and nap. -/
def newWatchdog (deadline : ℕ) : Watchdog := ⟨deadline, millis 250, millis 5⟩

def sessionDeadline (spec : HelperSpec) : ℕ :=
  match spec.fingerprint, spec.face with
  | false, false => defaultDeadline
  | true, false => fingerprintDeadline
  | false, true => faceDeadline
  | true, true => fingerprintDeadline + faceDeadline

/-- Run the helper, when a gesture is possible and there is something to hand to it. -/
def evaluate (env : GateEnv) (spec : HelperSpec) (watchdog : Watchdog) (pin : Option OsString)
    (rounds : ℕ) : Io (Option GateResult) :=
  if env.aborts then pure none
  else
    match pin with
    | none => pure (some .unavailable)
    | some pin => do
      let run ← settle (helperPart.liftT (runWithInput spec.command watchdog pin rounds))
      pure (some (classify run))

def runGate (phase : GatePhase) (env : GateEnv) (spec : HelperSpec) (watchdog : Watchdog)
    (pin : Option OsString) (rounds : ℕ) : Io ℕ := do
  match ← evaluate env spec watchdog pin rounds with
  | none =>
    match phase with
    | .auth => pure pamIgnore
    | .session => pure pamSuccess
  | some result => pure (decide phase result)

def unlockedMessage : String := "tess: session — login keyring unlocked"

def sessionMessage : Option GateResult → String
  | none => "tess: session — no unlock gesture available (remote session or no TPM); keyring left " ++
    "locked"
  | some .authorized => unlockedMessage
  | some .declined => "tess: session — no factor satisfied (wrong PIN, no biometric match, no PIN " ++
    "supplied, or an unseal/unlock error); keyring left locked"
  | some .unavailable => "tess: session — unlock unavailable (helper timeout/failure or no PIN); " ++
    "keyring left locked"

def logSessionOutcome (outcome : Option GateResult) : Io Unit :=
  ask (.syslog (sessionMessage outcome)) .ok

/-! ## Entry points -/

def runAuthGate (argv : List OsString) (rounds : ℕ) : Io ℕ := do
  let env ← detect
  let spec := HelperSpec.resolve (moduleArgs argv)
  runGate .auth env spec (newWatchdog defaultDeadline) none rounds

/-- The enabled legs are for the login user. -/
def withLegUsers (spec : HelperSpec) : Io HelperSpec :=
  if spec.fingerprint || spec.face then do
    let user ← askUser
    let spec := if spec.fingerprint then spec.withFingerprintUser user else spec
    pure (if spec.face then spec.withFaceUser user else spec)
  else pure spec

/-- The PIN is asked for once a gesture is known to be possible. -/
def sessionPin (env : GateEnv) : Io (Option OsString) := if env.aborts then pure none else askPin

def runSessionGate (argv : List OsString) (rounds : ℕ) : Io ℕ := do
  let env ← detect
  let spec ← withLegUsers (HelperSpec.resolve (moduleArgs argv))
  let watchdog := newWatchdog (sessionDeadline spec)
  let pin ← sessionPin env
  let outcome ← evaluate env spec watchdog (helperInput pin spec.face) rounds
  logSessionOutcome outcome
  match outcome with
  | none => pure pamSuccess
  | some result => pure (decide .session result)

inductive Entry where
  | authenticate
  | setcred
  | openSession
  | closeSession
  deriving DecidableEq

def Entry.run (argv : List OsString) (rounds : ℕ) : Entry → Io ℕ
  | authenticate => runAuthGate argv rounds
  | setcred => pure pamSuccess
  | openSession => runSessionGate argv rounds
  | closeSession => pure pamSuccess

/-! ## What the calls were -/

/-- The calls that ran the helper. -/
def helperEvents (l : List Event) : List Supervise.Event :=
  l.filterMap fun
    | ⟨.helper o, x⟩ => some ⟨o, x⟩
    | _ => none

/-- The lines written to the journal. -/
def journal (l : List Event) : List String :=
  l.filterMap fun
    | ⟨.syslog message, _⟩ => some message
    | _ => none

def isPrompt : Event → Bool
  | ⟨.getAuthtok _, _⟩ => true
  | _ => false

/-- PAM named no remote host, and a device of the TPM was there. -/
def GesturePossible (l : List Event) : Prop :=
  (∃ host, ⟨.getItem .rhost, host⟩ ∈ l ∧ isRemoteSession (host.map fromUtf8Lossy) = false) ∧
    ∃ path, ⟨.pathExists path, true⟩ ∈ l

@[simp] theorem helperEvents_append (l l' : List Event) :
    helperEvents (l ++ l') = helperEvents l ++ helperEvents l' := List.filterMap_append ..

@[simp] theorem journal_append (l l' : List Event) :
    journal (l ++ l') = journal l ++ journal l' := List.filterMap_append ..

@[simp] theorem helperEvents_lifted (l : List Supervise.Event) :
    helperEvents (l.map helperPart.answer) = l := by
  rw [helperEvents, List.filterMap_map]
  exact List.filterMap_some ..

@[simp] theorem journal_lifted (l : List Supervise.Event) :
    journal (l.map helperPart.answer) = [] := by
  rw [journal, List.filterMap_map]
  exact List.filterMap_none ..

@[simp] theorem countP_isPrompt_lifted (l : List Supervise.Event) :
    (l.map helperPart.answer).countP isPrompt = 0 := by
  rw [List.countP_map, List.countP_eq_zero]
  exact fun _ _ => Bool.false_ne_true

/-- A call that looks at the environment only. -/
def Lookup : Event → Prop
  | ⟨.getItem _, _⟩ | ⟨.pathExists _, _⟩ => True
  | _ => False

/-- Nothing was run, asked for or written. -/
structure Silent (l : List Event) : Prop where
  helper : helperEvents l = []
  journal : Gates.journal l = []
  prompts : l.countP isPrompt = 0

theorem silent_of_lookups {l : List Event} (h : ∀ e ∈ l, Lookup e) : Silent l := by
  refine ⟨List.filterMap_eq_nil_iff.2 fun e he => ?_, List.filterMap_eq_nil_iff.2 fun e he => ?_,
    List.countP_eq_zero.2 fun e he => ?_⟩
  all_goals
    obtain ⟨o, x⟩ := e
    have hlookup := h _ he
    cases o with
    | getItem | pathExists => first | rfl | exact Bool.false_ne_true
    | _ => exact hlookup.elim

/-! ## The gates -/

theorem aborts_eq_false {env : GateEnv} (h : env.aborts = false) : env = ⟨false, true⟩ := by
  obtain ⟨isRemote, tpm⟩ := env
  cases isRemote <;> cases tpm <;> first | rfl | exact absurd h (by decide)

theorem detect_cases {r : Except (Stop Empty) GateEnv} {l : List Event} (h : Ends detect r l) :
    ∃ env, r = .ok env ∧ (∀ e ∈ l, Lookup e) ∧ (env.aborts = false → GesturePossible l) := by
  unfold detect getStringItem tpmPresent at h
  obtain ⟨host, l₁, rfl, ⟨_, ⟨⟩, -⟩ | ⟨_, hhost, htpm⟩⟩ := ends_ask_bind_iff.1 h
  obtain rfl := Except.ok.inj hhost
  have hgesture : ∀ {tpm : Bool} {l : List Event},
      (tpm = true → ∃ path, ⟨.pathExists path, true⟩ ∈ l) →
      (GateEnv.mk (isRemoteSession (host.map fromUtf8Lossy)) tpm).aborts = false →
      GesturePossible (⟨.getItem .rhost, host⟩ :: l) := by
    intro tpm l hpath habort
    obtain ⟨hremote, htpm⟩ := GateEnv.mk.inj (aborts_eq_false habort)
    obtain ⟨path, hpath⟩ := hpath htpm
    exact ⟨⟨host, List.mem_cons_self, hremote⟩, path, List.mem_cons_of_mem _ hpath⟩
  obtain ⟨e, -, he⟩ | ⟨tpm, l₂, l₃, rfl, hexists, hend⟩ := ends_bind_iff.1 htpm
  · obtain ⟨rm, l₄, -, ⟨_, ⟨⟩, -⟩ | ⟨_, hrm, hsecond⟩⟩ := ends_ask_bind_iff.1 he
    split at hsecond
    · exact absurd (ends_pure_iff.1 hsecond).1 nofun
    · obtain ⟨_, ⟨⟩, -⟩ := ends_ask_iff.1 hsecond
  obtain ⟨rfl, rfl⟩ := ends_pure_iff.1 hend
  refine ⟨_, rfl, ?_⟩
  obtain ⟨rm, l₄, rfl, ⟨_, ⟨⟩, -⟩ | ⟨_, hrm, hsecond⟩⟩ := ends_ask_bind_iff.1 hexists
  obtain rfl := Except.ok.inj hrm
  cases rm with
  | true =>
    obtain ⟨htrue, rfl⟩ := ends_pure_iff.1 hsecond
    refine ⟨by simp [Lookup], hgesture fun _ => ⟨"/dev/tpmrm0", by simp⟩⟩
  | false =>
    obtain ⟨raw, hraw, rfl⟩ := ends_ask_iff.1 hsecond
    obtain rfl := Except.ok.inj hraw
    refine ⟨by simp [Lookup], hgesture fun htpm => ⟨"/dev/tpm0", ?_⟩⟩
    simp [htpm]

/-- What came of the evaluation: there was no gesture, nothing to hand to the helper, or a run. -/
inductive Evaluated (env : GateEnv) (spec : HelperSpec) (watchdog : Watchdog) :
    Option OsString → Option GateResult → List Supervise.Event → Prop
  | aborted {pin : Option OsString} (h : env.aborts = true) :
      Evaluated env spec watchdog pin none []
  | nothing (h : env.aborts = false) : Evaluated env spec watchdog none (some .unavailable) []
  | ran {input : OsString} {run : Except IoError RunOutcome} {l : List Supervise.Event}
      (h : env.aborts = false)
      (hran : Ran spec.command watchdog input (run.mapError .failed) l) :
      Evaluated env spec watchdog (some input) (some (classify run)) l

theorem evaluate_cases {env : GateEnv} {spec : HelperSpec} {watchdog : Watchdog}
    {pin : Option OsString} {n : ℕ} {r : Except (Stop Empty) (Option GateResult)} {l : List Event}
    (h : Ends (evaluate env spec watchdog pin n) r l) (hr : r ≠ .error .running) :
    ∃ outcome l₀, r = .ok outcome ∧ l = l₀.map helperPart.answer ∧
      Evaluated env spec watchdog pin outcome l₀ := by
  unfold evaluate at h
  split at h
  · rename_i habort
    obtain ⟨rfl, rfl⟩ := ends_pure_iff.1 h
    exact ⟨none, [], rfl, rfl, .aborted habort⟩
  · rename_i habort
    have hgo := Bool.eq_false_iff.2 habort
    cases pin with
    | none =>
      obtain ⟨rfl, rfl⟩ := ends_pure_iff.1 h
      exact ⟨_, [], rfl, rfl, .nothing hgo⟩
    | some input =>
      obtain ⟨-, rfl⟩ | ⟨run, l₁, l₂, rfl, hrun, hend⟩ := ends_settle_bind_iff.1 h
      · exact absurd rfl hr
      · obtain ⟨rfl, rfl⟩ := ends_pure_iff.1 hend
        obtain ⟨l₀, hends, rfl⟩ := Part.ends_liftT_iff.1 hrun
        refine ⟨_, l₀, rfl, List.append_nil _, .ran hgo (runWithInput_ran hends ?_)⟩
        cases run <;> nofun

/-- The outcome is an authorization exactly when the helper was seen to succeed in time. -/
theorem Evaluated.authorized_iff {env : GateEnv} {spec : HelperSpec} {watchdog : Watchdog}
    {pin : Option OsString} {outcome : Option GateResult} {l : List Supervise.Event}
    (h : Evaluated env spec watchdog pin outcome l) :
    outcome = some .authorized ↔ InTime watchdog l (.ok (some 0)) := by
  have hnone : ¬ InTime watchdog [] (.ok (some 0)) := by
    rintro ⟨l₁, l₂, hl, -⟩
    simp at hl
  cases h with
  | aborted => exact iff_of_false nofun hnone
  | nothing => exact iff_of_false nofun hnone
  | @ran input run l _ hran =>
    rw [← hran.exited_iff 0]
    constructor
    · intro h
      obtain e | ⟨pid, status | escalated⟩ := run
      · cases Option.some.inj h
      · have hsuccess : ExitStatus.success status = true := by
          by_contra hno
          rw [classify, if_neg hno] at h
          cases Option.some.inj h
        obtain rfl : status = 0 := of_decide_eq_true hsuccess
        exact ⟨pid, rfl⟩
      · cases Option.some.inj h
    · rintro ⟨pid, hpid⟩
      obtain rfl := mapError_eq_ok.1 hpid
      rfl

theorem Evaluated.spawns {env : GateEnv} {spec : HelperSpec} {watchdog : Watchdog}
    {pin : Option OsString} {outcome : Option GateResult} {l : List Supervise.Event}
    (h : Evaluated env spec watchdog pin outcome l) :
    l.countP isSpawn ≤ 1 ∧
      ∀ c stdin x, ⟨.spawn c stdin, x⟩ ∈ l → c = spec.command ∧ stdin = pin := by
  cases h with
  | aborted => exact ⟨Nat.zero_le _, nofun⟩
  | nothing => exact ⟨Nat.zero_le _, nofun⟩
  | ran _ hran => exact hran.spawns

theorem withLegUsers_cases {argv : List OsString} {r : Except (Stop Empty) HelperSpec}
    {l : List Event} (h : Ends (withLegUsers (HelperSpec.resolve (moduleArgs argv))) r l) :
    ∃ user, r = .ok (sessionSpec argv user) ∧ (∀ e ∈ l, Lookup e) ∧
      (fingerprintEnabled (moduleArgs argv) || faceEnabled (moduleArgs argv) →
        ⟨.getItem .user, user⟩ ∈ l) := by
  unfold withLegUsers at h
  split at h
  · rename_i hlegs
    obtain ⟨user, l', rfl, ⟨_, ⟨⟩, -⟩ | ⟨_, huser, hend⟩⟩ := ends_ask_bind_iff.1 h
    obtain rfl := Except.ok.inj huser
    obtain ⟨rfl, rfl⟩ := ends_pure_iff.1 hend
    refine ⟨user, ?_, by simp [Lookup], fun _ => List.mem_cons_self⟩
    rw [sessionSpec, if_pos hlegs]
  · rename_i hlegs
    obtain ⟨rfl, rfl⟩ := ends_pure_iff.1 h
    refine ⟨none, ?_, nofun, fun h => absurd h hlegs⟩
    rw [sessionSpec, if_neg hlegs]

theorem sessionPin_cases {env : GateEnv} {r : Except (Stop Empty) (Option OsString)}
    {l : List Event} (h : Ends (sessionPin env) r l) :
    ∃ pin, r = .ok pin ∧ helperEvents l = [] ∧ journal l = [] ∧ l.countP isPrompt ≤ 1 ∧
      (env.aborts = true → l = []) ∧
      (env.aborts = false → ∃ prompt authtok, ⟨.getAuthtok prompt, authtok⟩ ∈ l ∧
        pin = getPin authtok) := by
  unfold sessionPin askPin at h
  split at h
  · rename_i habort
    obtain ⟨rfl, rfl⟩ := ends_pure_iff.1 h
    exact ⟨none, rfl, rfl, rfl, Nat.zero_le _, fun _ => rfl, fun h => absurd habort (by simp [h])⟩
  · rename_i habort
    obtain ⟨authtok, rfl, rfl⟩ := ends_ask_iff.1 h
    exact ⟨_, rfl, rfl, rfl, le_rfl, fun h => absurd h habort,
      fun _ => ⟨_, authtok, List.mem_cons_self, rfl⟩⟩

theorem sessionDeadline_sessionSpec (argv : List OsString) (user : Option OsString) :
    sessionDeadline (sessionSpec argv user) =
      sessionDeadline (HelperSpec.resolve (moduleArgs argv)) := by
  rw [sessionSpec_eq]
  rfl

/-- What opening a session does. -/
structure Opened (argv : List OsString) (l : List Event) : Prop where
  /-- One line is written, and it says that the keyring was unlocked exactly when the helper was
  seen to succeed in time. -/
  journal : ∃ message, Gates.journal l = [message] ∧ (message = unlockedMessage ↔
    InTime (newWatchdog (sessionDeadline (HelperSpec.resolve (moduleArgs argv)))) (helperEvents l)
      (.ok (some 0)))
  possible : l.countP isPrompt ≠ 0 ∨ helperEvents l ≠ [] → GesturePossible l
  prompts : l.countP isPrompt ≤ 1
  spawns : (helperEvents l).countP isSpawn ≤ 1
  /-- The helper is the one the arguments name, for the login user, and is handed the PIN. -/
  command : ∀ command stdin x, ⟨.spawn command stdin, x⟩ ∈ helperEvents l →
    ∃ user prompt authtok input, ⟨.getAuthtok prompt, authtok⟩ ∈ l ∧
      (fingerprintEnabled (moduleArgs argv) || faceEnabled (moduleArgs argv) →
        ⟨.getItem .user, user⟩ ∈ l) ∧
      sessionCommand ⟨false, true⟩ argv user authtok = some (command, input) ∧ stdin = some input

theorem sessionMessage_eq_unlocked {outcome : Option GateResult} :
    sessionMessage outcome = unlockedMessage ↔ outcome = some .authorized := by
  obtain _ | _ | _ | _ := outcome
  all_goals
    first
    | exact iff_of_true rfl rfl
    | exact iff_of_false (by decide) nofun

section Entries

variable {argv : List OsString} {n : ℕ}

/-- **Opening a session** succeeds whatever comes of it. -/
theorem runSessionGate_opens {r : Except (Stop Empty) ℕ} {l : List Event}
    (h : Ends (runSessionGate argv n) r l) (hr : r ≠ .error .running) :
    r = .ok pamSuccess ∧ Opened argv l := by
  have hfails : ∀ {α : Type} {e : Stop Empty} {l : List Event} {x : Io α},
      (Except.error e : Except (Stop Empty) ℕ) ≠ .error .running → ¬ Ends x (.error e) l := by
    intro α e l x hne _
    obtain ⟨⟨⟩⟩ | _ := e
    exact hne rfl
  unfold runSessionGate at h
  obtain ⟨e, rfl, h₁⟩ | ⟨env, l₁, _, rfl, h₁, hgo₁⟩ := ends_bind_iff.1 h
  · exact absurd h₁ (hfails hr)
  obtain ⟨_, henv, hlook₁, hgesture⟩ := detect_cases h₁
  obtain rfl := Except.ok.inj henv
  obtain ⟨e, rfl, h₂⟩ | ⟨spec, l₂, _, rfl, h₂, hgo₂⟩ := ends_bind_iff.1 hgo₁
  · exact absurd h₂ (hfails hr)
  obtain ⟨user, hspec, hlook₂, huser⟩ := withLegUsers_cases h₂
  obtain rfl := Except.ok.inj hspec
  obtain ⟨e, rfl, h₃⟩ | ⟨pin, l₃, _, rfl, h₃, hgo₃⟩ := ends_bind_iff.1 hgo₂
  · exact absurd h₃ (hfails hr)
  obtain ⟨_, hpin, hhelper₃, hjournal₃, hprompt₃, habort₃, hauthtok⟩ := sessionPin_cases h₃
  obtain rfl := Except.ok.inj hpin
  obtain ⟨e, rfl, h₄⟩ | ⟨outcome, l₄, _, rfl, h₄, hgo₄⟩ := ends_bind_iff.1 hgo₃
  · exact absurd h₄ (hfails hr)
  obtain ⟨_, l₀, houtcome, rfl, heval⟩ := evaluate_cases h₄ nofun
  obtain rfl := Except.ok.inj houtcome
  obtain ⟨written, l₅, rfl, ⟨_, ⟨⟩, -⟩ | ⟨_, -, hend⟩⟩ := ends_ask_bind_iff.1 hgo₄
  have hret : r = .ok pamSuccess ∧ l₅ = [] := by
    cases outcome with
    | none => exact ends_pure_iff.1 hend
    | some result => exact ends_pure_iff.1 hend
  obtain ⟨rfl, rfl⟩ := hret
  have hsilent₁ := silent_of_lookups hlook₁
  have hsilent₂ := silent_of_lookups hlook₂
  have hhelper : helperEvents (l₁ ++ (l₂ ++ (l₃ ++ (l₀.map helperPart.answer ++
      [(⟨.syslog (sessionMessage outcome), written⟩ : Event)])))) = l₀ := by
    simp only [helperEvents_append, hsilent₁.helper, hsilent₂.helper, hhelper₃, List.nil_append,
      helperEvents_lifted]
    exact List.append_nil l₀
  have hprompts : (l₁ ++ (l₂ ++ (l₃ ++ (l₀.map helperPart.answer ++
      [(⟨.syslog (sessionMessage outcome), written⟩ : Event)])))).countP isPrompt = l₃.countP isPrompt := by
    simp only [List.countP_append, hsilent₁.prompts, hsilent₂.prompts, countP_isPrompt_lifted]
    simp [isPrompt]
  refine ⟨rfl, ⟨?_, ?_, ?_, ?_, ?_⟩⟩
  · refine ⟨sessionMessage outcome, ?_, ?_⟩
    · simp only [journal_append, hsilent₁.journal, hsilent₂.journal, hjournal₃, journal_lifted,
        List.nil_append]
      rfl
    · rw [hhelper, sessionMessage_eq_unlocked, heval.authorized_iff, sessionDeadline_sessionSpec]
  · rw [hhelper, hprompts]
    intro hdone
    have habort : env.aborts = false := by
      rw [← Bool.not_eq_true]
      intro habort
      obtain hdone | hdone := hdone
      · rw [habort₃ habort] at hdone
        exact hdone rfl
      · generalize helperInput pin (sessionSpec argv user).face = handed at heval
        cases heval with
        | aborted => exact hdone rfl
        | nothing => exact hdone rfl
        | ran hgo => exact Bool.false_ne_true (hgo.symm.trans habort)
    obtain ⟨⟨host, hhost, hlocal⟩, path, hpath⟩ := hgesture habort
    exact ⟨⟨host, List.mem_append_left _ hhost, hlocal⟩, path, List.mem_append_left _ hpath⟩
  · rw [hprompts]
    exact hprompt₃
  · rw [hhelper]
    exact heval.spawns.1
  · rw [hhelper]
    intro command stdin x hspawn
    obtain ⟨rfl, rfl⟩ := heval.spawns.2 command stdin x hspawn
    obtain ⟨habort, input, hinput⟩ : env.aborts = false ∧
        ∃ input, helperInput pin (sessionSpec argv user).face = some input := by
      generalize hinput : helperInput pin (sessionSpec argv user).face = handed at heval ⊢
      cases heval with
      | aborted => cases hspawn
      | nothing => cases hspawn
      | @ran input _ _ hgo => exact ⟨hgo, input, rfl⟩
    obtain ⟨prompt, authtok, hasked, rfl⟩ := hauthtok habort
    refine ⟨user, prompt, authtok, input, by simp [hasked], fun hleg => ?_, ?_, hinput⟩
    · simp [huser hleg]
    · unfold sessionCommand
      rw [if_neg (by decide)]
      exact congrArg (Option.map _) hinput

theorem runAuthGate_declines {r : Except (Stop Empty) ℕ} {l : List Event}
    (h : Ends (runAuthGate argv n) r l) :
    (r = .ok pamIgnore ∨ r = .ok pamAuthinfoUnavail) ∧ Silent l := by
  unfold runAuthGate runGate evaluate at h
  obtain ⟨e, -, h₁⟩ | ⟨env, l₁, l₂, rfl, h₁, h⟩ := ends_bind_iff.1 h
  · obtain ⟨_, ⟨⟩, -⟩ := detect_cases h₁
  obtain ⟨-, -, hlook, -⟩ := detect_cases h₁
  obtain ⟨hr, rfl⟩ : (r = .ok pamIgnore ∨ r = .ok pamAuthinfoUnavail) ∧ l₂ = [] := by
    dsimp only at h
    split at h
    · obtain ⟨rfl, rfl⟩ := ends_pure_iff.1 h
      exact ⟨.inl rfl, rfl⟩
    · obtain ⟨rfl, rfl⟩ := ends_pure_iff.1 h
      exact ⟨.inr rfl, rfl⟩
  rw [List.append_nil]
  exact ⟨hr, silent_of_lookups hlook⟩

/-- A series of calls of the entry points, each with arguments of its own, and the codes they
returned. -/
inductive Transaction (n : ℕ) : List (Entry × ℕ) → List Event → Prop
  | nil : Transaction n [] []
  | cons {entry : Entry} {argv : List OsString} {code : ℕ} {es : List (Entry × ℕ)}
      {l l' : List Event} (h : Ends (entry.run argv n) (.ok code) l) (ht : Transaction n es l') :
      Transaction n ((entry, code) :: es) (l ++ l')

/-- The sessions that were opened. -/
def sessions (es : List (Entry × ℕ)) : ℕ := es.countP fun x => x.1 = .openSession

/-- What one entry point does. -/
theorem entry_run {entry : Entry} {code : ℕ} {l : List Event}
    (h : Ends (entry.run argv n) (.ok code) l) :
    (entry = .authenticate → code = pamIgnore ∨ code = pamAuthinfoUnavail) ∧
    (entry ≠ .authenticate → code = pamSuccess) ∧
    (entry ≠ .openSession → Silent l) ∧ (entry = .openSession → Opened argv l) := by
  cases entry with
  | authenticate =>
    obtain ⟨hcode, hsilent⟩ := runAuthGate_declines h
    exact ⟨fun _ => hcode.imp Except.ok.inj Except.ok.inj, fun hne => absurd rfl hne,
      fun _ => hsilent, nofun⟩
  | openSession =>
    obtain ⟨hcode, hopened⟩ := runSessionGate_opens h nofun
    exact ⟨nofun, fun _ => Except.ok.inj hcode, fun hne => absurd rfl hne, fun _ => hopened⟩
  | setcred | closeSession =>
    obtain ⟨hcode, rfl⟩ := ends_pure_iff.1 h
    exact ⟨nofun, fun _ => Except.ok.inj hcode, fun _ => ⟨rfl, rfl, rfl⟩, nofun⟩

/-- **The module in a PAM transaction.** Whatever PAM, the helper and the system answer, it never
authenticates a user and never refuses anything else. The PIN is asked for, the helper is started
and the journal is written only for sessions: once at most for each, and one line for each. -/
theorem transaction_codes {es : List (Entry × ℕ)} {l : List Event} (h : Transaction n es l) :
    (∀ x ∈ es, x.1 = .authenticate → x.2 = pamIgnore ∨ x.2 = pamAuthinfoUnavail) ∧
    (∀ x ∈ es, x.1 ≠ .authenticate → x.2 = pamSuccess) ∧
    l.countP isPrompt ≤ sessions es ∧ (helperEvents l).countP isSpawn ≤ sessions es ∧
    (journal l).length = sessions es := by
  induction h with
  | nil => exact ⟨nofun, nofun, le_rfl, le_rfl, rfl⟩
  | @cons entry argv code es l l' h _ ih =>
    obtain ⟨hauth, hother, hprompts, hspawns, hjournal⟩ := ih
    obtain ⟨hcode, hcode', hsilent, hopened⟩ := entry_run h
    have hone : l.countP isPrompt ≤ (if entry = .openSession then 1 else 0) ∧
        (helperEvents l).countP isSpawn ≤ (if entry = .openSession then 1 else 0) ∧
        (journal l).length = if entry = .openSession then 1 else 0 := by
      by_cases hentry : entry = .openSession
      · have hopened := hopened hentry
        obtain ⟨message, hmessage, -⟩ := hopened.journal
        rw [if_pos hentry, hmessage]
        exact ⟨hopened.prompts, hopened.spawns, rfl⟩
      · have hsilent := hsilent hentry
        rw [if_neg hentry, hsilent.journal, hsilent.helper, hsilent.prompts]
        exact ⟨le_rfl, le_rfl, rfl⟩
    have hsessions : sessions ((entry, code) :: es) =
        sessions es + if entry = .openSession then 1 else 0 := by
      simp [sessions, List.countP_cons]
    rw [hsessions, List.countP_append, helperEvents_append, List.countP_append, journal_append,
      List.length_append]
    refine ⟨fun x hx => ?_, fun x hx => ?_, by omega, by omega, by omega⟩
    · obtain rfl | hx := List.mem_cons.1 hx
      · exact hcode
      · exact hauth x hx
    · obtain rfl | hx := List.mem_cons.1 hx
      · exact hcode'
      · exact hother x hx

/-! ## The time a session takes -/

/-- The time that a call sleeps. -/
def gateNap : Event → ℕ
  | ⟨.helper o, x⟩ => nap ⟨o, x⟩
  | _ => 0

def GateKeepsUp (l : List Event) : Prop := KeepsUp (helperEvents l)

theorem total_gateNap (l : List Event) : total gateNap l = total nap (helperEvents l) := by
  induction l with
  | nil => rfl
  | cons e l ih =>
    obtain ⟨o, x⟩ := e
    rw [total_cons, ih]
    cases o with
    | helper o =>
      have hcons : helperEvents (⟨.helper o, x⟩ :: l) = ⟨o, x⟩ :: helperEvents l := rfl
      rw [hcons, total_cons]
      rfl
    | _ => exact Nat.zero_add _

theorem gateKeepsUp_divisible : Divisible GateKeepsUp := by
  intro l l' h
  rw [GateKeepsUp, helperEvents_append] at h
  exact keepsUp_divisible _ _ h

theorem affords_question {α : Type} {o : Op} {f : o.Res → Except (Stop Empty) α}
    (hnap : ∀ y, gateNap ⟨o, y⟩ ≤ 0) (hf : ∀ y, f y ≠ .error .running) :
    Affords gateNap GateKeepsUp 0 (ask o f) := affords_ask hnap hf

theorem detect_affords : Affords gateNap GateKeepsUp 0 detect := by
  refine Affords.bind gateKeepsUp_divisible (b := 0) (c := 0) ?_ fun _ => ?_
  · exact affords_question (fun _ => le_rfl) fun _ => nofun
  refine Affords.bind gateKeepsUp_divisible (b := 0) (c := 0) ?_ fun _ => affords_pure _
  refine Affords.bind gateKeepsUp_divisible (b := 0) (c := 0) ?_ fun rm => ?_
  · exact affords_question (fun _ => le_rfl) fun _ => nofun
  · split
    · exact affords_pure _
    · exact affords_question (fun _ => le_rfl) fun _ => nofun

theorem withLegUsers_affords (spec : HelperSpec) :
    Affords gateNap GateKeepsUp 0 (withLegUsers spec) := by
  unfold withLegUsers
  split
  · refine Affords.bind gateKeepsUp_divisible (b := 0) (c := 0) ?_ fun _ => affords_pure _
    exact affords_question (fun _ => le_rfl) fun _ => nofun
  · exact affords_pure _

theorem sessionPin_affords (env : GateEnv) : Affords gateNap GateKeepsUp 0 (sessionPin env) := by
  unfold sessionPin
  split
  · exact affords_pure _
  · exact affords_question (fun _ => le_rfl) fun _ => nofun

theorem evaluate_affords (env : GateEnv) (spec : HelperSpec) (pin : Option OsString)
    {w : Watchdog} {rounds : ℕ} (hd : w.deadline ≤ rounds * w.poll)
    (hg : w.termGrace ≤ rounds * w.poll) :
    Affords gateNap GateKeepsUp (w.deadline + 2 * w.termGrace)
      (evaluate env spec w pin (rounds + 1)) := by
  unfold evaluate
  split
  · exact (affords_pure _).mono (Nat.zero_le _)
  · cases pin with
    | none => exact (affords_pure _).mono (Nat.zero_le _)
    | some input =>
      refine Affords.bind gateKeepsUp_divisible (c := 0) (Affords.settle (Part.affords_liftT
        (runWithInput_affords spec.command input hd hg) (fun l => ?_) fun l h => ?_))
        fun _ => affords_pure _
      · rw [total_gateNap, helperEvents_lifted]
      · rwa [GateKeepsUp, helperEvents_lifted] at h

theorem grace_le_sessionDeadline (spec : HelperSpec) : millis 250 ≤ sessionDeadline spec := by
  unfold sessionDeadline
  split <;> decide

theorem runSessionGate_affords {rounds : ℕ}
    (hd : sessionDeadline (HelperSpec.resolve (moduleArgs argv)) ≤ rounds * millis 5) :
    Affords gateNap GateKeepsUp
      (sessionDeadline (HelperSpec.resolve (moduleArgs argv)) + 2 * millis 250)
      (runSessionGate argv (rounds + 1)) := by
  have hfree : ∀ {α β : Type} {b : ℕ} {x : Io α} {f : α → Io β},
      Affords gateNap GateKeepsUp 0 x →
      (∀ a l, Ends x (.ok a) l → Affords gateNap GateKeepsUp b (f a)) →
      Affords gateNap GateKeepsUp b (x >>= f) :=
    fun hx hf => (hx.bind_of gateKeepsUp_divisible hf).mono (by omega)
  refine hfree detect_affords fun env _ _ => ?_
  refine hfree (withLegUsers_affords _) fun spec _ hspec => ?_
  obtain ⟨user, hspec, -, -⟩ := withLegUsers_cases hspec
  obtain rfl := Except.ok.inj hspec
  rw [← sessionDeadline_sessionSpec argv user] at hd ⊢
  refine hfree (sessionPin_affords env) fun pin _ _ => ?_
  have hevaluate := evaluate_affords env (sessionSpec argv user)
    (helperInput pin (sessionSpec argv user).face)
    (w := newWatchdog (sessionDeadline (sessionSpec argv user))) hd
    ((grace_le_sessionDeadline _).trans hd)
  refine (hevaluate.bind gateKeepsUp_divisible (c := 0) fun outcome => ?_).mono le_rfl
  refine hfree (affords_question (fun _ => le_rfl) fun _ => nofun) fun _ _ _ => ?_
  split <;> exact affords_pure _

/-- **A session never hangs.** When the clock keeps up with the naps, opening a session is over after
so many rounds in each wait as the deadline has naps, and one more. It naps for no longer than the
deadline of the enabled legs and two grace periods, succeeds, and leaves its line in the journal. -/
theorem session_bounded {rounds : ℕ} {r : Except (Stop Empty) ℕ} {l : List Event}
    (hd : sessionDeadline (HelperSpec.resolve (moduleArgs argv)) ≤ rounds * millis 5)
    (h : Ends (runSessionGate argv (rounds + 1)) r l) (hk : KeepsUp (helperEvents l)) :
    total nap (helperEvents l) ≤
        sessionDeadline (HelperSpec.resolve (moduleArgs argv)) + 2 * millis 250 ∧
      r = .ok pamSuccess ∧ Opened argv l := by
  obtain ⟨hle, hr⟩ := runSessionGate_affords hd r l h hk
  rw [total_gateNap] at hle
  exact ⟨hle, runSessionGate_opens h hr⟩

/-! ## A session -/

/-- A helper that is looked at a third time after two naps, and then has exited. -/
def sampleHelper : List Supervise.Event :=
  [⟨.memfdCreate "tess-pam-input", .ok ()⟩, ⟨.writeAll [49, 50], .ok ()⟩, ⟨.rewind, .ok ()⟩,
    ⟨.spawn (HelperSpec.resolve []).command (some [49, 50]), .ok 7⟩, ⟨.now, (0 : ℕ)⟩,
    ⟨.tryWait, .ok none⟩, ⟨.now, (0 : ℕ)⟩, ⟨.sleep (millis 5), ()⟩,
    ⟨.tryWait, .ok none⟩, ⟨.now, millis 6⟩, ⟨.sleep (millis 5), ()⟩, ⟨.tryWait, .ok (some 0)⟩]

theorem ends_sampleHelper :
    Ends (runWithInput (HelperSpec.resolve []).command (newWatchdog (seconds 3)) [49, 50] 601)
      (.ok ⟨7, .exited 0⟩) sampleHelper := by
  have hfirst : Ends (pollRound (seconds 3) (millis 5) 0) (.ok (.inl ()))
      [⟨.tryWait, .ok none⟩, ⟨.now, (0 : ℕ)⟩, ⟨.sleep (millis 5), ()⟩] :=
    ends_pollRound_nap (by decide) rfl
  have hsecond : Ends (pollRound (seconds 3) (millis 5) 0) (.ok (.inl ()))
      [⟨.tryWait, .ok none⟩, ⟨.now, millis 6⟩, ⟨.sleep (millis 5), ()⟩] :=
    ends_pollRound_nap (by decide) (by decide)
  have hpoll := ends_poll (ends_loop_next hfirst (ends_loop_next hsecond
    (ends_loop_break (n := 598) (ends_pollRound_exited 0))))
  refine .op _ (.op _ (.op _ (.op _ ?_)))
  exact ends_bind_iff.2 (.inr ⟨some 0, _, [], rfl, hpoll, .pure _⟩)

/-- A local session with a PIN. -/
def sampleSession : List Event :=
  [⟨.getItem .rhost, none⟩, ⟨.pathExists "/dev/tpmrm0", true⟩,
    ⟨.getAuthtok "tess PIN: ", some [49, 50]⟩] ++
  sampleHelper.map helperPart.answer ++ [⟨.syslog unlockedMessage, ()⟩]

theorem ends_sampleSession : Ends (runSessionGate [] 601) (.ok pamSuccess) sampleSession := by
  have hevaluate : Ends (evaluate ⟨false, true⟩ (HelperSpec.resolve []) (newWatchdog (seconds 3))
      (some [49, 50]) 601) (.ok (some .authorized)) (sampleHelper.map helperPart.answer) :=
    ends_bind_iff.2 (.inr ⟨.ok ⟨7, .exited 0⟩, _, [], (List.append_nil _).symm,
      ends_settle_iff.2 ⟨_, Part.ends_liftT_iff.2 ⟨_, ends_sampleHelper, rfl⟩, rfl⟩, .pure _⟩)
  refine .op _ (.op _ (.op _ ?_))
  exact ends_bind_iff.2 (.inr ⟨_, _, _, rfl, hevaluate, .op _ (.pure _)⟩)

theorem helperEvents_sampleSession : helperEvents sampleSession = sampleHelper := rfl

theorem session_bounded_sample :
    total nap (helperEvents sampleSession) ≤ seconds 3 + 2 * millis 250 :=
  have hdeadline : sessionDeadline (HelperSpec.resolve (moduleArgs [])) ≤ 600 * millis 5 := by decide
  (session_bounded hdeadline ends_sampleSession
    (helperEvents_sampleSession ▸ KeepsUpFrom.keepsUp (s := 0) (by decide))).1

theorem transaction_codes_sample : (journal sampleSession).length =
    sessions [(.openSession, pamSuccess), (.closeSession, pamSuccess)] :=
  have hopen : Ends (Entry.run [] 601 .openSession) (.ok pamSuccess) sampleSession :=
    ends_sampleSession
  have hclose : Ends (Entry.run [] 601 .closeSession) (.ok pamSuccess) [] := .pure _
  (transaction_codes (.cons hopen (.cons hclose .nil))).2.2.2.2

end Entries

end Gates

end Pam

end Tess

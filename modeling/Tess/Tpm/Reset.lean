import Tess.Effects.Traces
import Tess.Enroll.Host
import Tess.Pam.Gate

/-!
# Resetting a hard lockout

The lockout counter of the TPM is reset by `tpm2_dictionarylockout`, which runs as a child process
under a deadline and gets the authValue on its standard input. This module follows `reset_lockout`
of `tess-tpm/src/lockout.rs`, and then says what the child does meanwhile.

* The child moves between any two calls. When its standard input is closed it presents to the TPM
  what it has read, once; the TPM resets the counter, if that is the authValue of the lockout
  hierarchy, or refuses. The child exits at any time and with any status, but it exits with success
  only when the TPM has done the reset.
* Any call to the child may fail. A write that fails may have written a part.
* To wait for the child takes until it has exited.

Times are in milliseconds.
-/

namespace Tess

namespace Reset

open Files Effects

/-! ## Calls -/

/-- The transport to the TPM. -/
inductive TctiConfig where
  | swtpm (host : String) (port : UInt16)
  | deviceManager (path : String)

def TctiConfig.tpm2ToolsTcti : TctiConfig → String
  | swtpm host port => "swtpm:host=" ++ host ++ ",port=" ++ toString port.toNat
  | deviceManager path => "device:" ++ path

inductive ErrorKind where
  | notFound
  | other
  deriving DecidableEq

structure IoError where
  kind : ErrorKind
  text : String
  deriving DecidableEq

/-- How a child has exited, with the text that shows it. -/
structure ExitStatus where
  success : Bool
  text : String
  deriving DecidableEq

inductive Stdio where
  | piped
  | null

inductive Op where
  | spawn (command : Pam.Command) (stdin stdout stderr : Stdio)
  | takeStdin
  | writeAll (bytes : Bytes)
  | closeStdin
  | now
  | tryWait
  | takeStderr
  | readToString
  | sleep (span : ℕ)
  | kill
  | wait

@[reducible] def Op.Res : Op → Type
  | .spawn .. | .writeAll _ | .kill => Except IoError Unit
  | .takeStdin | .takeStderr => Bool
  | .closeStdin | .sleep _ => Unit
  | .now => ℕ
  | .tryWait => Except IoError (Option ExitStatus)
  | .readToString => String
  | .wait => Except IoError ExitStatus

/-- The error of a reset, with its cause. -/
inductive Error where
  | lockoutReset (e : String)
  deriving DecidableEq

abbrev Io := ExceptT (Stop Error) (Prog Op.Res)

/-- An error of the system, under what was being done. -/
def failed {α : Type} (what : String) (r : Except IoError α) : Except (Stop Error) α :=
  r.mapError fun e => .failed (.lockoutReset (what ++ ": " ++ e.text))

/-! ## The reset -/

def resetTimeout : ℕ := 30000

def resetPoll : ℕ := 50

def resetCommand (tcti : TctiConfig) : Pam.Command :=
  ((((Pam.Command.new (text "tpm2_dictionarylockout")).arg (text "--clear-lockout")).arg
    (text "--auth")).arg (text "file:-")).env "TPM2TOOLS_TCTI" (text tcti.tpm2ToolsTcti)
where
  text (s : String) : Pam.OsString := Text.utf8 s.toList

def spawned : Except IoError Unit → Except (Stop Error) Unit
  | .error ⟨.notFound, _⟩ => .error (.failed (.lockoutReset
      "tpm2_dictionarylockout not found; install tpm2-tools for hard-lockout recovery"))
  | r => failed "spawn tpm2_dictionarylockout" r

def spawn (tcti : TctiConfig) : Io Unit :=
  ask (.spawn (resetCommand tcti) .piped .null .piped) spawned

/-- Kill the child and wait for it, in any case. -/
def reapOnDrop {α : Type} (x : Io α) : Io α := ensuring (ensuring x .kill) .wait

/-- Hand over the authValue. The end of it is that standard input is closed. -/
def feed (lockoutAuth : SecretBytes) : Io Unit := do
  let stdin ← ask .takeStdin .ok
  ensure (stdin = true) (.failed (.lockoutReset "tpm2_dictionarylockout stdin unavailable"))
  ensuring (ask (.writeAll lockoutAuth) (failed "write authValue to stdin")) .closeStdin

/-- What the child has written to standard error. -/
def readStderr : Io String := do
  let handle ← ask .takeStderr .ok
  if handle then ask .readToString .ok else pure ""

/-- What the status of the child says of the reset. -/
def judge (status : ExitStatus) : Io Unit := do
  let stderr ← readStderr
  ensure (status.success = true) (.failed (.lockoutReset ("tpm2_dictionarylockout exited with " ++
    status.text ++ ": " ++ String.ofList (Text.trim stderr.toList))))

/-- A round of waiting for the child. -/
def pollRound (deadline : ℕ) : Io (Unit ⊕ Unit) := do
  match ← ask .tryWait (failed "wait for tpm2_dictionarylockout") with
  | some status => do
    judge status
    pure (.inr ())
  | none => do
    let t ← ask .now .ok
    ensure (t < deadline) (.failed (.lockoutReset
      ("tpm2_dictionarylockout timed out after " ++ toString (resetTimeout / 1000) ++ "s")))
    ask (.sleep resetPoll) .ok
    pure (.inl ())

/-- Feed the child, and wait for it until the deadline. -/
def converse (lockoutAuth : SecretBytes) (rounds : ℕ) : Io Unit := do
  feed lockoutAuth
  let started ← ask .now .ok
  loop (fun () => pollRound (started + resetTimeout)) rounds ()

/-- Run `tpm2_dictionarylockout` with the authValue of the lockout hierarchy. -/
def resetLockout (tcti : TctiConfig) (lockoutAuth : SecretBytes) (rounds : ℕ) : Io Unit := do
  spawn tcti
  reapOnDrop (converse lockoutAuth rounds)

/-! ## The child -/

/-- The child: what was written to its standard input, whether that is closed, whether it has
presented it to the TPM and the TPM did the reset, how it has exited, and whether it was waited
for. -/
structure Child where
  input : Bytes := []
  closed : Bool := false
  presented : Option Bool := none
  status : Option ExitStatus := none
  reaped : Bool := false
  deriving DecidableEq

structure World where
  tpm : Tpm
  /-- The authorizations against the lockout hierarchy: presented and held, the latest first. -/
  attempts : List (Bytes × Bytes)
  child : Option Child
  clock : ℕ
  /-- The time that was slept. -/
  slept : ℕ

def World.onChild (w : World) (f : Child → Child) : World := { w with child := w.child.map f }

/-- The counter goes back to zero. -/
def cleared (t : Tpm) : Tpm := { t with lockout := { t.lockout with counter := 0 } }

/-- What happens without a call: time passes, and the child goes on. -/
inductive Move : World → World → Prop
  | tick (w : World) (t : ℕ) : Move w { w with clock := w.clock + t }
  | present {w : World} {c : Child} (done : Bool) (hc : w.child = some c) (hrun : c.status = none)
      (hclosed : c.closed = true) (honce : c.presented = none)
      (hauth : done = true → c.input = w.tpm.lockoutAuth) :
      Move w { w with
        tpm := if done then cleared w.tpm else w.tpm
        attempts := (c.input, w.tpm.lockoutAuth) :: w.attempts
        child := some { c with presented := some done } }
  | exit {w : World} {c : Child} (status : ExitStatus) (hc : w.child = some c)
      (hrun : c.status = none) (hdone : status.success = true → c.presented = some true) :
      Move w { w with child := some { c with status := some status } }

/-- How a call goes: the world it finds, the error it fails with, what a failed write has written,
and what is read. -/
structure Choice where
  before : World
  fault : Option IoError := none
  written : ℕ := 0
  read : String := ""

/-- A call that may fail. -/
def Choice.call {α : Type} (c : Choice) (a : α) (w : World) : Except IoError α × World :=
  match c.fault with
  | some e => (.error e, c.before)
  | none => (.ok a, w)

def killed : ExitStatus := ⟨false, "signal: 9 (SIGKILL)"⟩

/-- A child that is killed exits, unless it has exited already. -/
def Child.kill (c : Child) : Child := { c with status := some (c.status.getD killed) }

/-- What a call returns and does. -/
def exec (o : Op) (c : Choice) : o.Res × World :=
  let w := c.before
  match o with
  | .spawn .. => c.call () { w with child := some {} }
  | .takeStdin | .takeStderr => (w.child.isSome, w)
  | .writeAll bytes =>
    match c.fault with
    | some e =>
      (.error e, w.onChild fun x => { x with input := x.input ++ bytes.take c.written })
    | none => (.ok (), w.onChild fun x => { x with input := x.input ++ bytes })
  | .closeStdin => ((), w.onChild fun x => { x with closed := true })
  | .now => (w.clock, w)
  | .tryWait => c.call (w.child.bind (·.status))
      (w.onChild fun x => { x with reaped := x.reaped || x.status.isSome })
  | .readToString => (c.read, w)
  | .sleep span => ((), { w with clock := w.clock + span, slept := w.slept + span })
  | .kill => c.call () (w.onChild Child.kill)
  | .wait =>
    match w.child.bind (·.status) with
    | some status => (.ok status, w.onChild fun x => { x with reaped := true })
    | none => (.error ⟨.other, "the child has not exited"⟩, w)

/-- To wait takes until the child has exited. -/
def Possible (w : World) : Op → Prop
  | .wait => ∃ c status, w.child = some c ∧ c.status = some status
  | _ => True

/-- The child and the TPM, beside the process that calls. -/
def machine : Machine Op.Res World Choice where
  exec o c _ := exec o c
  may w o c := Relation.ReflTransGen Move w c.before ∧ Possible c.before o

end Reset

end Tess

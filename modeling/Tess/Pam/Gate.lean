import Mathlib.Logic.Function.Basic
import Tess.Formats.Lossy

/-!
# The session gate of the PAM module

From the arguments of the module, the login user that PAM knows and the PIN, to the command that is
run as the helper. This module follows `tess-pam/src/gate.rs`, as a release build has it, and the
session phase of `tess-pam/src/ffi.rs`. Strings of the system are their bytes.

A command changes the environment that it is run in: `Command.spawn` applies its changes to the
environment of the process that runs it, and passes on the rest.
-/

namespace Tess

open Text

namespace Pam

/-- A string of the operating system. -/
abbrev OsString := List UInt8

/-! ## Commands -/

/-- An environment: the value of each variable that is set. -/
abbrev Env := String → Option OsString

/-- A command line, and the variables that are set or removed for it, in this order. -/
structure Command where
  program : OsString
  args : List OsString
  envs : List (String × Option OsString)

/-- What a process is started with. -/
structure Started where
  argv : List OsString
  env : Env

namespace Command

def new (program : OsString) : Command := ⟨program, [], []⟩

def withArgs (c : Command) (args : List OsString) : Command := { c with args := c.args ++ args }

def arg (c : Command) (a : OsString) : Command := { c with args := c.args ++ [a] }

def env (c : Command) (var : String) (value : OsString) : Command :=
  { c with envs := c.envs ++ [(var, some value)] }

def envRemove (c : Command) (var : String) : Command :=
  { c with envs := c.envs ++ [(var, none)] }

/-- The process, when it is started from one with the environment `parent`. -/
def spawn (c : Command) (parent : Env) : Started where
  argv := c.program :: c.args
  env := c.envs.foldl (fun env change => Function.update env change.1 change.2) parent

end Command

/-! ## What the module is configured to run -/

def defaultHelperPath : OsString := utf8 "/usr/lib/tess/tess-pam-helper".toList

def fingerprintFlag : Text := "--fingerprint".toList

def faceFlag : Text := "--face".toList

def fprintUserEnv : String := "TESS_FPRINT_USER"

def faceUserEnv : String := "TESS_FACE_USER"

structure HelperSpec where
  program : OsString
  args : List OsString
  fingerprint : Bool
  fingerprintUser : Option Text
  face : Bool
  faceUser : Option Text

def eqIgnoreAsciiCase (s t : Text) : Bool := s.map Char.toLower = t.map Char.toLower

/-- Whether the last argument `key=…` says yes. -/
def lastIsYes (key : Text) (pamArgs : List Text) : Bool :=
  (pamArgs.filterMap (·.dropPrefix? key)).getLast?.any (eqIgnoreAsciiCase · "yes".toList)

def fingerprintEnabled (pamArgs : List Text) : Bool := lastIsYes "fingerprint=".toList pamArgs

def faceEnabled (pamArgs : List Text) : Bool := lastIsYes "face=".toList pamArgs

/-- The first argument `helper=…` with an absolute path. -/
def helperArg (pamArgs : List Text) : Option OsString :=
  pamArgs.findSome? fun arg =>
    ((arg.dropPrefix? "helper=".toList).filter fun path => path.head? = some '/').map utf8

namespace HelperSpec

def new (program : OsString) (args : List OsString) : HelperSpec where
  program := program
  args := args
  fingerprint := false
  fingerprintUser := none
  face := false
  faceUser := none

def resolve (pamArgs : List Text) : HelperSpec :=
  { new ((helperArg pamArgs).getD defaultHelperPath) [] with
    fingerprint := fingerprintEnabled pamArgs
    face := faceEnabled pamArgs }

def withFingerprintUser (spec : HelperSpec) (user : Option Text) : HelperSpec :=
  { spec with fingerprintUser := user }

def withFaceUser (spec : HelperSpec) (user : Option Text) : HelperSpec :=
  { spec with faceUser := user }

/-- Enable a leg of the helper: its flag, and its user set or the variable removed. -/
def addLeg (c : Command) (flag : Text) (var : String) (user : Option Text) : Command :=
  match user with
  | some user => (c.arg (utf8 flag)).env var (utf8 user)
  | none => (c.arg (utf8 flag)).envRemove var

def command (spec : HelperSpec) : Command :=
  let c := (Command.new spec.program).withArgs spec.args
  let c := if spec.fingerprint then addLeg c fingerprintFlag fprintUserEnv spec.fingerprintUser
    else c
  if spec.face then addLeg c faceFlag faceUserEnv spec.faceUser else c

@[simp] theorem addLeg_program (c : Command) (flag : Text) (var : String) (user : Option Text) :
    (addLeg c flag var user).program = c.program := by
  cases user <;> rfl

@[simp] theorem addLeg_args (c : Command) (flag : Text) (var : String) (user : Option Text) :
    (addLeg c flag var user).args = c.args ++ [utf8 flag] := by
  cases user <;> rfl

@[simp] theorem addLeg_envs (c : Command) (flag : Text) (var : String) (user : Option Text) :
    (addLeg c flag var user).envs = c.envs ++ [(var, user.map utf8)] := by
  cases user <;> rfl

/-- The command line: the flags of the enabled legs. -/
theorem argv_command (spec : HelperSpec) (parent : Env) :
    (spec.command.spawn parent).argv = spec.program :: (spec.args ++
      ((if spec.fingerprint then [utf8 fingerprintFlag] else []) ++
        if spec.face then [utf8 faceFlag] else [])) := by
  unfold command Command.spawn
  cases spec.fingerprint <;> cases spec.face <;> simp [Command.new, Command.withArgs]

/-- The environment: an enabled leg has its variable set to the user, or removed. -/
theorem env_command (spec : HelperSpec) (parent : Env) :
    (spec.command.spawn parent).env =
      let env := if spec.fingerprint then
        Function.update parent fprintUserEnv (spec.fingerprintUser.map utf8) else parent
      if spec.face then Function.update env faceUserEnv (spec.faceUser.map utf8) else env := by
  unfold command Command.spawn
  cases spec.fingerprint <;> cases spec.face <;> simp [Command.new, Command.withArgs]

end HelperSpec

/-! ## The session phase -/

def pamSuccess : ℕ := 0

def pamIgnore : ℕ := 25

structure GateEnv where
  isRemote : Bool
  tpmPresent : Bool

def shouldAbort (isRemote tpmPresent : Bool) : ℕ :=
  if isRemote || !tpmPresent then pamIgnore else pamSuccess

def GateEnv.aborts (env : GateEnv) : Bool := shouldAbort env.isRemote env.tpmPresent = pamIgnore

/-- The arguments of the module that are text. -/
def moduleArgs (argv : List OsString) : List Text := argv.filterMap ofUtf8

/-- The login user, from the `PAM_USER` item. -/
def getUser (item : Option OsString) : Option Text := (item.map fromUtf8Lossy).filter (· ≠ [])

def maxPinBytes : ℕ := 1024

/-- The PIN, from what the conversation gave. -/
def getPin (authtok : Option OsString) : Option OsString :=
  authtok.filter fun bytes => bytes ≠ [] ∧ bytes.length ≤ maxPinBytes

/-- The helper to run, with the user that its legs are for. -/
def sessionSpec (argv : List OsString) (pamUser : Option OsString) : HelperSpec :=
  let spec := HelperSpec.resolve (moduleArgs argv)
  if spec.fingerprint || spec.face then
    let user := getUser pamUser
    let spec := if spec.fingerprint then spec.withFingerprintUser user else spec
    if spec.face then spec.withFaceUser user else spec
  else spec

theorem getUser_ne_nil {item : Option OsString} {user : Text} (h : getUser item = some user) :
    user ≠ [] := by
  simpa using (Option.filter_eq_some_iff.1 h).2

/-- Each enabled leg is for the login user. -/
theorem sessionSpec_eq (argv : List OsString) (pamUser : Option OsString) :
    sessionSpec argv pamUser =
      { HelperSpec.resolve (moduleArgs argv) with
        fingerprintUser := if fingerprintEnabled (moduleArgs argv) then getUser pamUser else none
        faceUser := if faceEnabled (moduleArgs argv) then getUser pamUser else none } := by
  unfold sessionSpec HelperSpec.resolve
  cases fingerprintEnabled (moduleArgs argv) <;> cases faceEnabled (moduleArgs argv) <;> rfl

/-- What the helper reads: a PIN, or nothing where the face alone may do. -/
def helperInput : Option OsString → Bool → Option OsString
  | some pin, _ => some pin
  | none, true => some []
  | none, false => none

/-- The command that the session phase runs, if any, with its input. -/
def sessionCommand (env : GateEnv) (argv : List OsString) (pamUser authtok : Option OsString) :
    Option (Command × OsString) :=
  let spec := sessionSpec argv pamUser
  let pin := if env.aborts then none else getPin authtok
  if env.aborts then none
  else (helperInput pin spec.face).map fun input => (spec.command, input)

end Pam

end Tess

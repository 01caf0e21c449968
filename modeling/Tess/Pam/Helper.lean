import Tess.Enroll.Primitives
import Tess.Pam.Gate

/-!
# Who the helper works for

The names that the helper goes by: the one it claims the fingerprint reader for, and the one it
looks up the face enrollment under. This module follows `pam_helper.rs` for the flags,
`fingerprint_front_gate` of `session.rs` and `current_username` of `face.rs`.

`names_command` says which names a helper has that a given command started. The name for the reader
is the user of the module, or nothing. So is the name for the enrollment when there is a user; with
the variable removed, the helper falls back to what the environment says (`namesFixed_iff`).
-/

namespace Tess

open Text

namespace Pam

/-! ## The helper -/

structure Flags where
  fingerprint : Bool
  face : Bool
  deriving DecidableEq

/-- One argument of the helper. -/
def Flags.scan (flags : Flags) (arg : Text) : Flags :=
  if arg = fingerprintFlag then { flags with fingerprint := true }
  else if arg = faceFlag then { flags with face := true }
  else flags

/-- The flags on the command line. An argument that is not text ends the helper. -/
def helperFlags (argv : List OsString) : Option Flags :=
  (argv.drop 1).foldlM (fun flags arg => (ofUtf8 arg).map flags.scan) ⟨false, false⟩

/-- The name to claim the reader for. -/
def fingerprintUser (env : Env) : Text := ((env fprintUserEnv).bind ofUtf8).getD []

/-- The first of the variables that is set to something. -/
def firstName (env : Env) : List String → Option Text
  | [] => none
  | var :: vars =>
    match env var with
    | some value =>
      if fromUtf8Lossy value ≠ [] then some (fromUtf8Lossy value) else firstName env vars
    | none => firstName env vars

/-- The name to look up the enrollment under. -/
def currentUsername (env : Env) : Except Error Text :=
  match firstName env [faceUserEnv, "USER", "LOGNAME"] with
  | some name => .ok name
  | none => .error ["cannot resolve the current username (none of $TESS_FACE_USER, $USER, " ++
      "$LOGNAME are set)"]

/-- The names that the enabled legs use. -/
structure Names where
  fprint : Option Text
  face : Option (Except Error Text)

def Started.names (p : Started) : Option Names :=
  (helperFlags p.argv).map fun flags =>
    { fprint := if flags.fingerprint then some (fingerprintUser p.env) else none
      face := if flags.face then some (currentUsername p.env) else none }

/-- The names of the helper that a session runs, when it is opened in the environment `parent`. -/
def sessionNames (env : GateEnv) (argv : List OsString) (pamUser authtok : Option OsString)
    (parent : Env) : Option Names :=
  (sessionCommand env argv pamUser authtok).bind fun run => (run.1.spawn parent).names

/-- Two environments make no difference to the names. -/
def NamesFixed (env : GateEnv) (argv : List OsString) (pamUser authtok : Option OsString) : Prop :=
  ∀ parent parent' : Env, sessionNames env argv pamUser authtok parent =
    sessionNames env argv pamUser authtok parent'

/-! ## What the names depend on -/

theorem firstName_congr {env env' : Env} {vars : List String}
    (h : ∀ var ∈ vars, env var = env' var) : firstName env vars = firstName env' vars := by
  induction vars with
  | nil => rfl
  | cons var vars ih =>
    simp only [List.mem_cons, forall_eq_or_imp] at h
    rw [firstName, firstName, h.1, ih h.2]

/-- The variable of the reader has nothing to do with the enrollment. -/
theorem currentUsername_update_fprint (env : Env) (value : Option OsString) :
    currentUsername (Function.update env fprintUserEnv value) = currentUsername env := by
  have hname : firstName (Function.update env fprintUserEnv value)
      [faceUserEnv, "USER", "LOGNAME"] = firstName env [faceUserEnv, "USER", "LOGNAME"] := by
    apply firstName_congr
    intro var hvar
    apply Function.update_of_ne
    rintro rfl
    revert hvar
    decide
  rw [currentUsername, hname, currentUsername]

/-- The user of the module comes first. -/
theorem currentUsername_update_face (env : Env) {user : Text} (hne : user ≠ []) :
    currentUsername (Function.update env faceUserEnv (some (utf8 user))) = .ok user := by
  unfold currentUsername
  rw [firstName, Function.update_self]
  simp only [fromUtf8Lossy_utf8, if_pos hne]

theorem helperFlags_command (spec : HelperSpec) (hargs : spec.args = []) (parent : Env) :
    helperFlags (spec.command.spawn parent).argv = some ⟨spec.fingerprint, spec.face⟩ := by
  have hflags : ¬ faceFlag = fingerprintFlag := by decide
  unfold helperFlags
  rw [HelperSpec.argv_command, hargs]
  cases spec.fingerprint <;> cases spec.face <;> simp [Flags.scan, hflags]

/-- **The names of a helper** that a command has started. -/
theorem names_command (spec : HelperSpec) (hargs : spec.args = []) (parent : Env) :
    (spec.command.spawn parent).names = some
      { fprint := if spec.fingerprint then some (spec.fingerprintUser.getD []) else none
        face := if spec.face then
          some (currentUsername (Function.update parent faceUserEnv (spec.faceUser.map utf8)))
          else none } := by
  have hvars : fprintUserEnv ≠ faceUserEnv := by decide
  have hdecode : ∀ user : Option Text, ((user.map utf8).bind ofUtf8).getD [] = user.getD [] := by
    intro user
    cases user <;> simp
  rw [Started.names, helperFlags_command spec hargs, HelperSpec.env_command]
  cases spec.fingerprint <;> cases spec.face <;>
    simp [fingerprintUser, hdecode, hvars, Function.update_comm hvars,
      currentUsername_update_fprint]

/-- With the variable of the module removed, the helper goes by what the environment says. -/
theorem currentUsername_fallback {user : Text} (hne : user ≠ []) :
    currentUsername (Function.update (fun var => if var = "USER" then some (utf8 user) else none)
      faceUserEnv none) = .ok user := by
  have hvars : "USER" ≠ faceUserEnv := by decide
  unfold currentUsername
  rw [firstName, Function.update_self, firstName, Function.update_of_ne hvars, if_pos rfl]
  simp only [fromUtf8Lossy_utf8, if_pos hne]

/-! ## A session in two environments -/

section Sessions

variable {env : GateEnv} {argv : List OsString} {pamUser authtok : Option OsString}

theorem sessionNames_aborted (h : env.aborts = true) (parent : Env) :
    sessionNames env argv pamUser authtok parent = none := by
  simp [sessionNames, sessionCommand, h]

/-- A session with an enabled face leg runs the helper. -/
theorem sessionNames_face (h : env.aborts = false) (hf : faceEnabled (moduleArgs argv) = true)
    (parent : Env) :
    sessionNames env argv pamUser authtok parent = some
      { fprint := if fingerprintEnabled (moduleArgs argv) then some ((getUser pamUser).getD [])
          else none
        face := some (currentUsername
          (Function.update parent faceUserEnv ((getUser pamUser).map utf8))) } := by
  have hinput : ∃ input, helperInput (getPin authtok) true = some input := by
    cases getPin authtok with
    | some pin => exact ⟨pin, rfl⟩
    | none => exact ⟨[], rfl⟩
  obtain ⟨input, hinput⟩ := hinput
  have hface : (sessionSpec argv pamUser).face = true := by
    rw [sessionSpec_eq]
    exact hf
  have hrun : sessionCommand env argv pamUser authtok =
      some ((sessionSpec argv pamUser).command, input) := by
    simp [sessionCommand, h, hface, hinput]
  rw [sessionNames, hrun, Option.bind_some, names_command _ (by rw [sessionSpec_eq]; rfl),
    sessionSpec_eq]
  cases hp : fingerprintEnabled (moduleArgs argv) <;> simp [HelperSpec.resolve, hf, hp]

/-- Without the face leg, the environment is not asked for a name. -/
theorem sessionNames_faceless (hf : faceEnabled (moduleArgs argv) = false) (parent parent' : Env) :
    sessionNames env argv pamUser authtok parent =
      sessionNames env argv pamUser authtok parent' := by
  have hface : (sessionSpec argv pamUser).face = false := by
    rw [sessionSpec_eq]
    exact hf
  have hnames : ∀ parent : Env, ((sessionSpec argv pamUser).command.spawn parent).names = some
      { fprint := if (sessionSpec argv pamUser).fingerprint then
          some ((sessionSpec argv pamUser).fingerprintUser.getD []) else none
        face := none } := by
    intro parent
    rw [names_command _ (by rw [sessionSpec_eq]; rfl), hface]
    rfl
  unfold sessionNames sessionCommand
  dsimp only
  split_ifs
  · rfl
  · cases helperInput (getPin authtok) (sessionSpec argv pamUser).face with
    | none => rfl
    | some input => exact (hnames parent).trans (hnames parent').symm

/-- Without a user, the environment names whom the face leg is for. -/
theorem not_namesFixed (ha : env.aborts = false) (hf : faceEnabled (moduleArgs argv) = true)
    (hu : getUser pamUser = none) : ¬ NamesFixed env argv pamUser authtok := by
  intro h
  have hnames := h (fun var => if var = "USER" then some (utf8 ['a']) else none)
    (fun var => if var = "USER" then some (utf8 ['b']) else none)
  rw [sessionNames_face ha hf, sessionNames_face ha hf, hu, Option.map_none,
    currentUsername_fallback (by simp), currentUsername_fallback (by simp)] at hnames
  simp at hnames

/-- **The environment cannot choose the names** of the helper, except where the face leg is enabled
and PAM knows no user. -/
theorem namesFixed_iff : NamesFixed env argv pamUser authtok ↔
    faceEnabled (moduleArgs argv) = false ∨ (getUser pamUser).isSome = true ∨
      env.aborts = true := by
  constructor
  · intro h
    by_contra hno
    simp only [not_or, Bool.not_eq_false, Bool.not_eq_true, Option.isSome_eq_false_iff,
      Option.isNone_iff_eq_none] at hno
    exact not_namesFixed hno.2.2 hno.1 hno.2.1 h
  · rintro (hf | hu | ha) parent parent'
    · exact sessionNames_faceless hf parent parent'
    · obtain ⟨user, hu⟩ := Option.isSome_iff_exists.1 hu
      cases ha : env.aborts with
      | true => rw [sessionNames_aborted ha, sessionNames_aborted ha]
      | false =>
        cases hf : faceEnabled (moduleArgs argv) with
        | false => exact sessionNames_faceless hf parent parent'
        | true =>
          rw [sessionNames_face ha hf, sessionNames_face ha hf, hu, Option.map_some,
            currentUsername_update_face _ (getUser_ne_nil hu),
            currentUsername_update_face _ (getUser_ne_nil hu)]
    · rw [sessionNames_aborted ha, sessionNames_aborted ha]

end Sessions

/-- A face leg that is enabled in a session without a user. -/
theorem not_namesFixed_userless :
    ¬ NamesFixed ⟨false, true⟩ [utf8 "face=yes".toList] none none := by
  apply not_namesFixed rfl _ rfl
  rw [moduleArgs, List.filterMap_cons, ofUtf8_utf8]
  decide

end Pam

end Tess

import Tess.Enroll.Calls

/-!
# The template store

One file per user in a directory of mode 0700. A save replaces only that user's file, and removes
its sibling when the write fails; a remove reports whether there was a record. This module follows
`EnrollStore` of `mug/src/store.rs`.
-/

namespace Tess

open Files Effects

def enrollmentVersion : ℕ := 1

def FaceEnrollment.validateVersion (t : FaceEnrollment) : Except Error Unit :=
  if t.version ≠ enrollmentVersion then
    .error ["enroll store error: unsupported enrollment version " ++ toString t.version ++
      " (expected " ++ toString enrollmentVersion ++ ")"]
  else .ok ()

namespace EnrollStore

variable (E : Primitives) (proc : Process)

/-- The message of a store error. -/
def storeError (what : String) : Error := ["enroll store error: " ++ what]

def storeContext {α : Type} (what : String) (x : FileIo α) : Io α :=
  ExceptT.adapt (fun e => storeError (what ++ ": " ++ e.display)) x

/-- A user name is one normal path component. -/
def singleNormal (username : String) : Prop :=
  username ≠ "" ∧ username ≠ "." ∧ username ≠ ".." ∧ '/' ∉ username.toList

instance (username : String) : Decidable (singleNormal username) :=
  inferInstanceAs (Decidable (_ ∧ _))

def userPath (username : String) : Except Error Artifact :=
  if singleNormal username then .ok (.template username)
  else .error (storeError ("invalid username: " ++ E.debug username))

def ensureDir : Io Unit := do
  let dir := proc.display .storeDir
  let there ← liftM (pathExists .storeDir)
  unlessThen (there = true) (storeContext ("create " ++ dir) (createDirAll .storeDir))
  let found ← storeContext ("stat " ++ dir) (metadata .storeDir)
  ensure (found.isDir = true) (storeError (dir ++ " exists but is not a directory"))
  unlessThen (found.mode &&& 0o777 = 0o700)
    (storeContext ("chmod 700 " ++ dir) (setDirPermissions .storeDir 0o700))

def save (username : String) (enrollment : FaceEnrollment) : Io Unit := do
  ofExcept enrollment.validateVersion
  ensureDir proc
  let a ← ofExcept (userPath E username)
  let tmp ← tempSibling proc a
  let json ← ofExcept ((E.enrollmentJson enrollment).mapError fun e =>
    storeError ("serialize enrollment: " ++ e))
  cleanup (writePrivate tmp json) (discard tmp)
    (fun e => storeError ("write " ++ proc.display tmp ++ ": " ++ e.display))
  publish tmp a
    (fun e => storeError ("rename into " ++ proc.display (.main a) ++ ": " ++ e.display))
    (fun e => storeError ("sync parent dir of " ++ proc.display (.main a) ++ ": " ++ e.display))

/-- Remove a user's record, and say whether there was one. -/
def remove (username : String) : Io Bool := do
  ensureDir proc
  let a ← ofExcept (userPath E username)
  match ← (fsRemoveFile (.main a)).run with
  | .ok () => pure true
  | .error .notFound => pure false
  | .error e => throw (storeError ("remove " ++ proc.display (.main a) ++ ": " ++ e.display))

end EnrollStore

end Tess

import Tess.Effects.Sessions
import Tess.Files.Paths
import Tess.Mug.Gate
import Tess.Mug.Store

/-!
# The enrollment store

One JSON file for each user, `<username>.json`, in a directory that holds the temporary files of
saves as well. User names are arbitrary strings, and what is enrolled is recovered from the names of
the files. This module follows `EnrollStore` of `mug/src/store.rs`: its functions, the system calls
they make, and what the names of the files can be.
-/

namespace Tess

namespace Mug

open Files Effects

variable {F : Type}

def FaceEnrollment.Finite (isFinite : F → Prop) (t : FaceEnrollment F) : Prop :=
  (∀ x ∈ t.embedding, isFinite x) ∧ isFinite t.matchThreshold ∧
    isFinite t.liveness.enrolledScore ∧ isFinite t.liveness.scoreThreshold

/-- A JSON reader and writer. Every record is written, one with a number that is not finite as well,
and those with finite numbers are read back. -/
structure EnrollmentJson (F : Type) where
  isFinite : F → Prop
  toVecPretty : FaceEnrollment F → Except String Bytes
  fromSlice : Bytes → Except String (FaceEnrollment F)
  toVecPretty_ok (t : FaceEnrollment F) : ∃ bytes, toVecPretty t = .ok bytes
  fromSlice_toVecPretty {t : FaceEnrollment F} {bytes : Bytes} (ht : t.Finite isFinite)
    (h : toVecPretty t = .ok bytes) : fromSlice bytes = .ok t

def unsupportedVersion (version : ℕ) : MugError F :=
  .store ("unsupported enrollment version " ++ toString version ++ " (expected " ++
    toString enrollmentVersion ++ ")")

def FaceEnrollment.validateVersion (t : FaceEnrollment F) : Except (MugError F) Unit :=
  if t.version ≠ enrollmentVersion then .error (unsupportedVersion t.version) else .ok ()

namespace EnrollStore

/-! ## Calls of the system -/

/-- The process, its sequence number and the clock. -/
structure Stamp where
  pid : ℕ
  seq : ℕ
  nanos : ℕ
  deriving Inhabited

inductive Op where
  | file (o : FileOp PathBuf)
  | readDir (dir : PathBuf)
  | stamp (path : PathBuf)

@[reducible] def Op.Res : Op → Type
  | .file o => o.Res
  | .readDir _ => Except IoError (List String)
  | .stamp _ => Stamp

abbrev Io (F : Type) := ExceptT (MugError F) (Prog Op.Res)

abbrev FileIo := ExceptT IoError (Prog Op.Res)

def sys (o : FileOp PathBuf) : Prog Op.Res o.Res := call (Op.file o)

def storeContext {α : Type} (what : String) (x : FileIo α) : Io F α :=
  ExceptT.adapt (fun e => .store (what ++ ": " ++ e.display)) x

def tempName (file : String) (s : Stamp) : String :=
  file ++ ".tmp." ++ toString s.pid ++ "." ++ toString s.seq ++ "." ++ toString s.nanos

/-- The sibling of `path` that a stamp names. -/
def sibling (path : PathBuf) (s : Stamp) : PathBuf :=
  withFileName path (tempName ((fileName path).getD "") s)

def tempSibling (path : PathBuf) : Prog Op.Res PathBuf := do
  let s ← call (Op.stamp path)
  pure (sibling path s)

/-- The system takes the bytes one at a time, so that a write can be stopped after any of them. -/
def writeAll (p : PathBuf) : Bytes → FileIo Unit
  | [] => pure ()
  | b :: bytes => do
    ExceptT.mk (sys (.writeAll p [b]))
    writeAll p bytes

def writePrivate (p : PathBuf) (bytes : Bytes) : FileIo Unit := do
  ExceptT.mk (sys (.createNew p 0o600))
  writeAll p bytes
  ExceptT.mk (sys (.syncAll p))

/-- Remove a file and ignore the outcome. -/
def discard (p : PathBuf) : Prog Op.Res Unit := do
  let _ ← sys (.removeFile p)
  pure ()

/-! ## The store -/

variable (J : EnrollmentJson F) (dir : PathBuf)

def userPath (username : String) : Except (MugError F) PathBuf :=
  if components username = [.normal username] then .ok (join dir (username ++ ".json"))
  else .error (.invalidUsername username)

def ensureDir : Io F Unit := do
  let there ← liftM (sys (.pathExists dir))
  unlessThen (there = true)
    (storeContext ("create " ++ display dir) (ExceptT.mk (sys (.createDirAll dir))))
  let found ← storeContext ("stat " ++ display dir) (ExceptT.mk (sys (.metadata dir)))
  ensure (found.isDir = true) (.store (display dir ++ " exists but is not a directory"))
  unlessThen (found.mode &&& 0o777 = 0o700)
    (storeContext ("chmod 700 " ++ display dir)
      (ExceptT.mk (sys (.setDirPermissions dir 0o700))))

/-- `is_enrolled`, which leaves the directory alone. -/
def isEnrolled (username : String) : Io F Bool := do
  let path ← ofResult (userPath dir username)
  liftM (sys (.isFile path))

def load (username : String) : Io F (Option (FaceEnrollment F)) := do
  ensureDir dir
  let path ← ofResult (userPath dir username)
  match ← liftM (sys (.read path)) with
  | .ok bytes =>
    let enrollment ← ofResult ((J.fromSlice bytes).mapError fun e =>
      .store ("parse " ++ display path ++ ": " ++ e))
    ofResult enrollment.validateVersion
    pure (some enrollment)
  | .error .notFound => pure none
  | .error e => throw (.store ("read " ++ display path ++ ": " ++ e.display))

def save (username : String) (enrollment : FaceEnrollment F) : Io F Unit := do
  ofResult enrollment.validateVersion
  ensureDir dir
  let path ← ofResult (userPath dir username)
  let tmp ← liftM (tempSibling path)
  let json ← ofResult ((J.toVecPretty enrollment).mapError fun e =>
    .store ("serialize enrollment: " ++ e))
  cleanup (writePrivate tmp json) (discard tmp)
    (fun e => .store ("write " ++ display tmp ++ ": " ++ e.display))
  cleanup (ExceptT.mk (sys (.rename tmp path)) : FileIo Unit) (discard tmp)
    (fun e => .store ("rename into " ++ display path ++ ": " ++ e.display))
  storeContext ("sync parent dir of " ++ display path) (ExceptT.mk (sys (.syncParentDir path)))

/-- Remove a user's record, and say whether there was one. -/
def remove (username : String) : Io F Bool := do
  ensureDir dir
  let path ← ofResult (userPath dir username)
  match ← liftM (sys (.removeFile path)) with
  | .ok () => pure true
  | .error .notFound => pure false
  | .error e => throw (.store ("remove " ++ display path ++ ": " ++ e.display))

/-- The user whose record a file of the directory is, going by its name. -/
def entryUser (name : String) : Option String :=
  if extension (child dir name) = some "json" then fileStem (child dir name) else none

def listUsers : Io F (List String) := do
  let there ← liftM (sys (.pathExists dir))
  if there then do
    ensureDir dir
    let entries ← storeContext ("read " ++ display dir) (ExceptT.mk (call (Op.readDir dir)))
    pure ((entries.filterMap (entryUser dir)).mergeSort)
  else pure []

/-- What the system chooses: the order of the entries of a directory, and a stamp. -/
structure Choice where
  names : List String
  stamp : Stamp
  deriving Inhabited

/-- A system whose file operations succeed. A directory is read as its entries, each once, and a
temporary file has a new name. -/
def machine : Machine Op.Res (Disk PathBuf) Choice where
  exec
    | .file o, _, d => o.exec .ok d
    | .readDir dir, c, d =>
      (if (d.stat dir).any Node.isDir then .ok c.names else .error .notFound, d)
    | .stamp _, c, d => (c.stamp, d)
  may d
    | .file _, _ => True
    | .readDir dir, c => c.names.Nodup ∧ ∀ name, name ∈ c.names ↔ d.node (child dir name) ≠ none
    | .stamp path, c => d.node (sibling path c.stamp) = none

inductive Call (F : Type) where
  | save (username : String) (enrollment : FaceEnrollment F)
  | load (username : String)
  | remove (username : String)
  | isEnrolled (username : String)
  | listUsers

def Call.username : Call F → Option String
  | .save username _ | .load username | .remove username | .isEnrolled username => some username
  | .listUsers => none

inductive Reply (F : Type) where
  | saved
  | record (enrollment : Option (FaceEnrollment F))
  | removed (existed : Bool)
  | enrolled (there : Bool)
  | users (names : List String)

def Call.io : Call F → Io F (Reply F)
  | .save username enrollment => do
    EnrollStore.save J dir username enrollment
    pure .saved
  | .load username => do
    let enrollment ← EnrollStore.load J dir username
    pure (.record enrollment)
  | .remove username => do
    let existed ← EnrollStore.remove dir username
    pure (.removed existed)
  | .isEnrolled username => do
    let there ← EnrollStore.isEnrolled dir username
    pure (.enrolled there)
  | .listUsers => do
    let names ← EnrollStore.listUsers dir
    pure (.users names)

/-- Calls in any order, each of which may be stopped wherever it is. -/
def service : Service Op.Res (Disk PathBuf) (Except (MugError F) (Reply F)) (Call F) where
  prog k := (k.io J dir).run
  allowed _ _ _ := True
  mayStop _ := True

/-! ## The names of the files -/

/-- The file of a user's record. -/
def recordPath (username : String) : PathBuf := child dir (username ++ ".json")

variable {dir}

/-- The names that are accepted are those the transactions on templates are about. -/
theorem components_eq_singleton_iff_singleNormal {username : String} :
    components username = [.normal username] ↔ EnrollStore.singleNormal username :=
  components_eq_singleton_iff

theorem append_json (username : String) : username ++ ".json" = username ++ "." ++ "json" := by
  rw [String.append_assoc]
  rfl

theorem isName_json {username : String} (h : IsName username) : IsName (username ++ ".json") :=
  h.append (by decide)

theorem userPath_of_isName {username : String} (h : IsName username) :
    userPath (F := F) dir username = .ok (recordPath dir username) := by
  rw [userPath, if_pos (components_eq_singleton_iff.2 h), join_of_isName _ (isName_json h),
    recordPath]

theorem userPath_of_not {username : String} (h : ¬ IsName username) :
    userPath dir username = .error (.invalidUsername username : MugError F) :=
  if_neg fun hc => h (components_eq_singleton_iff.1 hc)

theorem userPath_eq_ok {username : String} {path : PathBuf}
    (h : userPath (F := F) dir username = .ok path) :
    IsName username ∧ path = recordPath dir username := by
  by_cases hu : IsName username
  · rw [userPath_of_isName hu] at h
    exact ⟨hu, (Except.ok.inj h).symm⟩
  · rw [userPath_of_not hu] at h
    cases h

theorem recordPath_inj {u v : String} : recordPath dir u = recordPath dir v ↔ u = v := by
  rw [recordPath, recordPath, child_inj]
  exact ⟨fun h => String.append_left_inj _ |>.1 h, fun h => h ▸ rfl⟩

theorem extension_recordPath {u : String} (hu : u ≠ "") :
    extension (recordPath dir u) = some "json" := by
  rw [recordPath, append_json]
  exact extension_child dir hu (by decide) (by decide)

theorem entryUser_eq_some {name u : String} :
    entryUser dir name = some u ↔ u ≠ "" ∧ name = u ++ ".json" := by
  unfold entryUser
  constructor
  · intro h
    split at h
    · rename_i hext
      rw [append_json]
      exact eq_append_of_extension h hext
    · cases h
  · rintro ⟨hu, rfl⟩
    have hext : extension (child dir (u ++ ".json")) = some "json" := extension_recordPath hu
    rw [if_pos hext, append_json]
    exact fileStem_child dir hu (by decide) (by decide)

theorem isDigit_of_mem_toString {n : ℕ} {c : Char} (h : c ∈ (toString n).toList) :
    c.isDigit = true := by
  rw [Nat.toString_eq_repr, Nat.toList_repr] at h
  exact Nat.isDigit_of_mem_toDigits (by decide) (by decide) h

/-- A digit is no other character. -/
theorem notMem_toString {n : ℕ} {c : Char} (hc : c.isDigit = false) : c ∉ (toString n).toList :=
  fun h => Bool.false_ne_true (hc.symm.trans (isDigit_of_mem_toString h))

theorem extension_temp (file : String) (s : Stamp) :
    extension (child dir (tempName file s)) = some (toString s.nanos) := by
  refine extension_child dir ?_ ?_ (notMem_toString (by decide))
  · simp
  · simp

theorem toString_ne_json (n : ℕ) : toString n ≠ "json" := by
  intro h
  exact notMem_toString (n := n) (c := 'j') (by decide) (by rw [h]; decide)

theorem isName_temp {username : String} (h : IsName username) (s : Stamp) :
    IsName (tempName (username ++ ".json") s) := by
  refine IsName.append (IsName.append (IsName.append (IsName.append (IsName.append (IsName.append
    (isName_json h) ?_) ?_) ?_) ?_) ?_) ?_
  all_goals first | decide | exact notMem_toString (by decide)

theorem sibling_recordPath {username : String} (h : IsName username) (s : Stamp) :
    sibling (recordPath dir username) s = child dir (tempName (username ++ ".json") s) := by
  rw [sibling, recordPath, fileName_child]
  exact withFileName_child dir _ (isName_temp h s)

/-- A temporary file is not called a record. -/
theorem extension_sibling (dir : PathBuf) {username : String} (h : IsName username) (s : Stamp) :
    extension (sibling (recordPath dir username) s) ≠ some "json" := by
  rw [sibling_recordPath h, extension_temp]
  exact fun he => toString_ne_json _ (Option.some.inj he)

theorem recordPath_ne_sibling {u v : String} (hu : IsName u) (hv : IsName v) (s : Stamp) :
    recordPath dir u ≠ sibling (recordPath dir v) s := by
  intro h
  exact extension_sibling dir hv s (h ▸ extension_recordPath hu.1)

end EnrollStore

end Mug

end Tess

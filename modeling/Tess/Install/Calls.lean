import Tess.Effects.Sessions
import Tess.Install.Host
import Tess.Install.Stack

/-!
# Installing and uninstalling

`install` puts the module in place, makes the one-time backup and then renames the edited stack over
the service file; `uninstall` restores the stack and removes the module and the backup. This module
follows `install/mod.rs`. What a call draws at random, and the permissions a new file gets by
default, are arguments.
-/

namespace Tess

open Files Effects Text

namespace Install

/-- An error and its causes, the outermost first. -/
abbrev Failure := List Text

abbrev PamIo := ExceptT Failure (Prog PamOp.Res)

abbrev SysIo := ExceptT IoError (Prog PamOp.Res)

variable {α : Type}

/-! ## System calls -/

def ioContext (what : Text) (x : SysIo α) : PamIo α :=
  ExceptT.adapt (fun e => [what, e.display.toList]) x

/-- An error passed on as it is. -/
def bare (x : SysIo α) : PamIo α := ExceptT.adapt (fun e => [e.display.toList]) x

def sys (o : FileOp Text) : Prog PamOp.Res o.Res := call (PamOp.file o)

def isFile (p : Text) : Prog PamOp.Res Bool := sys (.isFile p)

def isDir (p : Text) : Prog PamOp.Res Bool := sys (.isDir p)

def symlinkMetadata (p : Text) : SysIo (Node Text) := ExceptT.mk (sys (.symlinkMetadata p))

def openNoFollow (p : Text) : SysIo (Node Text) := ExceptT.mk (sys (.openNoFollow p))

def metadataOpen (file : Node Text) : SysIo (Node Text) := ExceptT.mk (sys (.metadataOpen file))

def readOpen (file : Node Text) : SysIo Bytes := ExceptT.mk (sys (.readOpen file))

def read (p : Text) : SysIo Bytes := ExceptT.mk (sys (.read p))

def createNew (p : Text) (mode : ℕ) : SysIo Unit := ExceptT.mk (sys (.createNew p mode))

def writeAll (p : Text) (bytes : Bytes) : SysIo Unit := ExceptT.mk (sys (.writeAll p bytes))

def setPermissions (p : Text) (mode : ℕ) : SysIo Unit := ExceptT.mk (sys (.setPermissions p mode))

def syncAll (p : Text) : SysIo Unit := ExceptT.mk (sys (.syncAll p))

def rename (p q : Text) : SysIo Unit := ExceptT.mk (sys (.rename p q))

def fsRemoveFile (p : Text) : SysIo Unit := ExceptT.mk (sys (.removeFile p))

def syncParentDir (p : Text) : SysIo Unit := ExceptT.mk (sys (.syncParentDir p))

/-- Remove a file and ignore the outcome. -/
def discard (p : Text) : Prog PamOp.Res Unit := do
  let _ ← (fsRemoveFile p).run
  pure ()

/-! ## The plan -/

namespace InstallPlan

def installedModule (plan : InstallPlan) : Text := joinPath plan.moduleDir Config.moduleFile

def backupFile (plan : InstallPlan) : Text := backupPath plan.serviceFile

end InstallPlan

structure InstallReport where
  serviceFile : Text
  installedModule : Text
  backupFile : Text
  alreadyWired : Bool

structure UninstallReport where
  serviceFile : Text
  removedBlock : Bool
  removedModule : Bool
  removedBackup : Bool

/-! ## Reading the service file -/

/-- Open a regular file, and no link to one, and read its permissions from what was opened. -/
def openRegularNofollow (path : Text) : PamIo (Option (Node Text × ℕ)) := ExceptT.mk do
  match ← (openNoFollow path).run with
  | .ok file =>
    (do
      let found ← ioContext ("stat PAM service file ".toList ++ path) (metadataOpen file)
      ensure (found.isFile = true) ["PAM service file ".toList ++ path ++
        " is not a regular file".toList]
      pure (some (file, found.mode)) : PamIo (Option (Node Text × ℕ))).run
  | .error .notFound => pure (.ok none)
  | .error .loop =>
    pure (.error ["refusing to edit symlinked PAM service file ".toList ++ path ++
      " (expected a regular file)".toList])
  | .error e => pure (.error ["open PAM service file ".toList ++ path, e.display.toList])

/-- `read_to_string` of an open file. -/
def readToString (path : Text) (file : Node Text) : PamIo Text := ExceptT.mk do
  match ← (readOpen file).run with
  | .ok bytes =>
    match ofUtf8 bytes with
    | some content => pure (.ok content)
    | none =>
      pure (.error ["read PAM service file ".toList ++ path,
        "stream did not contain valid UTF-8".toList])
  | .error e => pure (.error ["read PAM service file ".toList ++ path, e.display.toList])

/-! ## Replacing files -/

/-- A sibling of a path with a random suffix. -/
def unpredictableTempPath (path : Text) (suffix : Bytes) : PamIo Text := ExceptT.mk do
  match ← call (PamOp.getrandom suffix) with
  | .ok bytes => pure (.ok (tempPath path bytes))
  | .error e => pure (.error ["draw temp-file suffix: ".toList ++ e])

/-- How the two writers report the failure of a step. -/
structure ReplaceTexts where
  onCreate : IoError → Failure
  onRename : IoError → Failure
  onSync : IoError → Failure

/-- Write a new file beside the target, then rename it over the target. -/
def writeAndRename (texts : ReplaceTexts) (tmp target : Text) (bytes : Bytes)
    (mode defaultMode : ℕ) : PamIo Unit := do
  ExceptT.adapt texts.onCreate (createNew tmp defaultMode)
  bare (writeAll tmp bytes)
  bare (setPermissions tmp mode)
  bare (syncAll tmp)
  ExceptT.adapt texts.onRename (rename tmp target)
  ExceptT.adapt texts.onSync (syncParentDir target)

/-- The same, removing the new file when a step fails. -/
def replaceVia (texts : ReplaceTexts) (tmp target : Text) (bytes : Bytes) (mode defaultMode : ℕ) :
    PamIo Unit :=
  cleanup (writeAndRename texts tmp target bytes mode defaultMode) (discard tmp) id

/-- Write the stack, with the permissions the file had. -/
def atomicWritePreservingMode (path content : Text) (mode : ℕ) (suffix : Bytes)
    (defaultMode : ℕ) : PamIo Unit := do
  ensure (hasParent path = true) [path ++ " has no parent directory".toList]
  let tmp ← unpredictableTempPath path suffix
  replaceVia
    { onCreate := fun e => ["create temp file ".toList ++ tmp, e.display.toList]
      onRename := fun e => [e.display.toList]
      onSync := fun e => [e.display.toList] }
    tmp path (utf8 content) mode defaultMode

/-- Refuse to install over a symbolic link. -/
def refuseSymlink (dst : Text) : PamIo Unit := ExceptT.mk do
  match ← (symlinkMetadata dst).run with
  | .ok found =>
    if found.isSymlink = true then
      pure (.error ["refusing to install the module over a symlink at ".toList ++ dst])
    else pure (.ok ())
  | .error _ => pure (.ok ())

/-- Copy the built module into the module directory. -/
def installModule (plan : InstallPlan) (suffix : Bytes) (defaultMode : ℕ) : PamIo Unit := do
  let there ← isFile plan.moduleSrc
  ensure (there = true) ["PAM module source ".toList ++ plan.moduleSrc ++
    " not found; build it (`cargo build -p tess-pam`) or pass --module".toList]
  let dir ← isDir plan.moduleDir
  ensure (dir = true) ["PAM module directory ".toList ++ plan.moduleDir ++
    " does not exist".toList]
  let dst := plan.installedModule
  refuseSymlink dst
  let bytes ← ioContext ("read module source ".toList ++ plan.moduleSrc) (read plan.moduleSrc)
  let tmp ← unpredictableTempPath dst suffix
  replaceVia
    { onCreate := fun e => ["create temp module file ".toList ++ tmp, e.display.toList]
      onRename := fun e => ["install module ".toList ++ plan.moduleSrc ++ " -> ".toList ++ dst,
        e.display.toList]
      onSync := fun e => ["sync parent dir of ".toList ++ dst, e.display.toList] }
    tmp dst bytes 0o644 defaultMode

/-! ## The calls -/

/-- Write the backup, which must not be there yet. -/
def createBackup (plan : InstallPlan) (original : Text) (mode defaultMode : ℕ) : PamIo Unit := do
  let backup := plan.backupFile
  ioContext ("back up ".toList ++ plan.serviceFile ++ " to ".toList ++ backup ++
    " before editing".toList) (createNew backup defaultMode)
  ioContext ("write backup ".toList ++ backup) (writeAll backup (utf8 original))
  ioContext ("set mode on backup ".toList ++ backup) (setPermissions backup mode)
  ioContext ("fsync backup ".toList ++ backup) (syncAll backup)
  ioContext ("sync parent dir of ".toList ++ backup) (syncParentDir backup)

/-- Trust a regular file at the backup path, and write one if there is nothing. -/
def ensureBackup (plan : InstallPlan) (original : Text) (mode defaultMode : ℕ) : PamIo Unit :=
  ExceptT.mk do
    match ← (symlinkMetadata plan.backupFile).run with
    | .ok found =>
      if found.isFile = true then pure (.ok ())
      else
        pure (.error ["backup path ".toList ++ plan.backupFile ++
          (" exists but is not a regular file; refusing to edit the PAM stack " ++
            "without a valid rollback backup").toList])
    | .error .notFound => (createBackup plan original mode defaultMode).run
    | .error e =>
      pure (.error ["inspect backup path ".toList ++ plan.backupFile, e.display.toList])

/-- The content and the permissions of the service file. -/
def readService (plan : InstallPlan) : Option (Node Text × ℕ) → PamIo (Text × ℕ)
  | none => throw ["PAM service file ".toList ++ plan.serviceFile ++
      " does not exist (run as root?)".toList]
  | some (file, mode) => do
    let original ← readToString plan.serviceFile file
    pure (original, mode)

/-- Check the stack; `what` says what is refused. -/
def validated (debug : Text → Text) (what content : Text) : PamIo Unit :=
  match Config.validateStack content with
  | .ok () => pure ()
  | .error e => throw [what, e.text debug]

variable (debug : Text → Text) (plan : InstallPlan)

/-- Wire the module into the stack. -/
def install (defaultMode : ℕ) (moduleSuffix stackSuffix : Bytes) : PamIo InstallReport := do
  let found ← openRegularNofollow plan.serviceFile
  let (original, mode) ← readService plan found
  let alreadyWired := Config.hasBlock original
  let edited := Config.addBlock original
  validated debug ("refusing to write ".toList ++ plan.serviceFile ++
    ": candidate PAM stack failed the fail-open safety check".toList) edited
  installModule plan moduleSuffix defaultMode
  ensureBackup plan original mode defaultMode
  ExceptT.adapt (("write edited PAM stack to ".toList ++ plan.serviceFile) :: ·)
    (atomicWritePreservingMode plan.serviceFile edited mode stackSuffix defaultMode)
  pure
    { serviceFile := plan.serviceFile
      installedModule := plan.installedModule
      backupFile := plan.backupFile
      alreadyWired }

/-- Take the block out of an opened service file, and say whether there was one. -/
def unwire (defaultMode : ℕ) (suffix : Bytes) : Option (Node Text × ℕ) → PamIo Bool
  | none => pure false
  | some (file, mode) => do
    let original ← readToString plan.serviceFile file
    if Config.hasBlock original then do
      let restored := Config.removeBlock original
      validated debug ("refusing to write ".toList ++ plan.serviceFile ++
        ": stack after removing the tess block failed validation".toList) restored
      ExceptT.adapt (("restore PAM stack in ".toList ++ plan.serviceFile) :: ·)
        (atomicWritePreservingMode plan.serviceFile restored mode suffix defaultMode)
      pure true
    else pure false

/-- Remove a file if it is there, and say whether it was. -/
def removeIfExists (path : Text) : SysIo Bool := ExceptT.mk do
  match ← (fsRemoveFile path).run with
  | .ok () => pure (.ok true)
  | .error .notFound => pure (.ok false)
  | .error e => pure (.error e)

/-- Remove a file where `c` holds, and say whether it was there. -/
def removeIf (c : Prop) [Decidable c] (what path : Text) : PamIo Bool :=
  if c then ioContext (what ++ path) (removeIfExists path) else pure false

/-- Take the module out of the stack, and remove it and the backup. -/
def uninstall (defaultMode : ℕ) (stackSuffix : Bytes) : PamIo UninstallReport := do
  let found ← openRegularNofollow plan.serviceFile
  let removedBlock ← unwire debug plan defaultMode stackSuffix found
  let removedModule ← removeIf (plan.moduleDir ≠ []) "remove installed module ".toList
    plan.installedModule
  let removedBackup ← removeIf (removedBlock = true) "remove backup ".toList plan.backupFile
  pure { serviceFile := plan.serviceFile, removedBlock, removedModule, removedBackup }

end Install

end Tess

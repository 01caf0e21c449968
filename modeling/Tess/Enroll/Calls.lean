import Tess.Effects.Errors
import Tess.Enroll.Host

/-!
# System calls as programs

The operations of the host as programs that return or fail, the two ways of adding context to an
error, and the fixed order in which every private file is written: a fresh sibling is created,
written and synced, renamed over the final name, and the directory is synced.
-/

namespace Tess

open Files Effects

/-- Programs with `anyhow` errors. -/
abbrev Io := ExceptT Error (Prog Op.Res)

/-- Programs with the errors of `std::io`. -/
abbrev FileIo := ExceptT IoError (Prog Op.Res)

variable {α : Type}

def context (what : String) (x : Io α) : Io α := ExceptT.adapt (what :: ·) x

def ioContext (what : String) (x : FileIo α) : Io α :=
  ExceptT.adapt (fun e => [what, e.display]) x

/-- A result that is already there. -/
def ofExcept (r : Except Error α) : Io α := ExceptT.mk (pure r)

/-! ## Files -/

section Files

def sys (o : FileOp Path) : Prog Op.Res o.Res := call (Op.file o)

def createDirAll (p : Path) : FileIo Unit := ExceptT.mk (sys (.createDirAll p))

def createNew (p : Path) (mode : ℕ) : FileIo Unit := ExceptT.mk (sys (.createNew p mode))

def writeAll (p : Path) (bytes : Bytes) : FileIo Unit :=
  ExceptT.mk (sys (.writeAll p bytes))

def setDirPermissions (p : Path) (mode : ℕ) : FileIo Unit :=
  ExceptT.mk (sys (.setDirPermissions p mode))

def syncAll (p : Path) : FileIo Unit := ExceptT.mk (sys (.syncAll p))

def rename (p q : Path) : FileIo Unit := ExceptT.mk (sys (.rename p q))

def fsRemoveFile (p : Path) : FileIo Unit := ExceptT.mk (sys (.removeFile p))

def syncParentDir (p : Path) : FileIo Unit := ExceptT.mk (sys (.syncParentDir p))

def read (p : Path) : FileIo Bytes := ExceptT.mk (sys (.read p))

def metadata (p : Path) : FileIo (Node Path) := ExceptT.mk (sys (.metadata p))

def pathExists (p : Path) : Prog Op.Res Bool := sys (.pathExists p)

/-- A number that names a new temporary sibling of `a`. -/
def tempSibling (proc : Process) (a : Artifact) : Prog Op.Res Path := do
  let tag ← sys .freshTag
  pure (.temp a proc.pid tag)

/-- Remove a file and ignore the outcome. -/
def discard (p : Path) : Prog Op.Res Unit := do
  let _ ← (fsRemoveFile p).run
  pure ()

/-- Create a file that does not exist, mode 0600, and write it durably. -/
def writePrivate (p : Path) (bytes : Bytes) : FileIo Unit := do
  createNew p 0o600
  writeAll p bytes
  syncAll p

/-- Put a written sibling under its final name. A rename that fails removes the sibling. -/
def publish (tmp : Path) (a : Artifact) (renameError syncError : IoError → Error) : Io Unit := do
  cleanup (rename tmp (.main a)) (discard tmp) renameError
  ExceptT.adapt syncError (syncParentDir (.main a))

end Files

/-! ## Keyring, TPM, terminal -/

section Devices

def getrandom (bytes : Bytes) (error : String → Error) : Io Bytes :=
  ExceptT.mk do
    let r ← call (Op.getrandom bytes)
    pure (r.mapError error)

def generateKey (key : SecretBytes) : Io SecretBytes := ExceptT.mk (call (Op.generateKey key))

def sealKey (entropy : Bytes) (pin key : SecretBytes) : Io SealedObject :=
  ExceptT.mk (call (Op.tpmSeal entropy pin key))

def unsealKey (sealed : SealedObject) (pin : SecretBytes) : Io SecretBytes :=
  ExceptT.mk (call (Op.tpmUnseal sealed pin))

def lockoutAuthIsSet : Io Bool := ExceptT.mk (call Op.lockoutAuthIsSet)

def setLockoutAuth (current new : SecretBytes) : Io Unit :=
  ExceptT.mk (call (Op.setLockoutAuth current new))

def keyringUnlock (secret : SecretBytes) : Io Unit := ExceptT.mk (call (Op.unlock secret))

def keyringIsLocked : Io Bool := ExceptT.mk (call Op.isLocked)

def keyringRekey (old new : SecretBytes) (generated : Bool) : Io Unit :=
  ExceptT.mk (call (Op.rekey old new generated))

def eprintln (text : String) : Prog Op.Res Unit := call (Op.eprintln text)

def warn (text : String) : Prog Op.Res Unit := eprintln ("warning: " ++ text)

end Devices

end Tess

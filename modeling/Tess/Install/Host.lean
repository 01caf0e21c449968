import Tess.Effects.Errors
import Tess.Files.Disk
import Tess.Formats.Text

/-!
# The files an installation touches

An installation acts on three places: the service file, the built module, and the directory that the
module is installed into. Here paths are texts, so that a plan may be any three of them.

Besides the disk, the world records what a caller cannot see afterwards: the whole contents that
files were read as, and which files have been created and not yet been written whole.
-/

namespace Tess

open Files Effects Text

namespace Install

/-- Where the installation acts. -/
structure InstallPlan where
  serviceFile : Text
  moduleSrc : Text
  moduleDir : Text

/-- `Path::join`, of a relative path. -/
def joinPath (dir name : Text) : Text :=
  if dir = [] ∨ dir.getLast? = some '/' then dir ++ name else dir ++ '/' :: name

/-- `Path::parent` is none for the empty path and for the root. -/
def hasParent (path : Text) : Bool :=
  path ≠ [] ∧ ¬ (path.head? = some '/' ∧ ∀ c ∈ path.splitOn '/', c = [] ∨ c = ['.'])

/-- Two lower-case hexadecimal digits. -/
def hexByte (b : Byte) : Text :=
  let digit (n : ℕ) : Char := "0123456789abcdef".toList.getD n '0'
  [digit (b.toNat / 16), digit (b.toNat % 16)]

/-- The sibling of a path that a suffix names. -/
def tempPath (path : Text) (suffix : Bytes) : Text :=
  path ++ ".tess-tmp.".toList ++ suffix.flatMap hexByte

def backupSuffix : Text := ".tess-backup".toList

def backupPath (serviceFile : Text) : Text := serviceFile ++ backupSuffix

structure PamHost where
  disk : Disk Text
  /-- What files were read as, the latest first. -/
  reads : List (Text × Bytes)
  /-- The files that were created and have not been written whole since. -/
  unwritten : List Text

/-- System calls, and random bytes, which are named by the operation that draws them. -/
inductive PamOp where
  | file (o : FileOp Text)
  | getrandom (bytes : Bytes)

@[reducible] def PamOp.Res : PamOp → Type
  | .file o => o.Res
  | .getrandom _ => Except Text Bytes

namespace PamHost

def put (h : PamHost) (p : Text) (n : Option (Node Text)) : PamHost :=
  { h with disk := h.disk.set p n }

/-- The record of a file operation, besides its effect on the disk. -/
def record (h : PamHost) : FileOp Text → Fault → PamHost
  | .read p, .ok =>
    match (FileOp.read p).exec .ok h.disk with
    | (.ok b, _) => { h with reads := (p, b) :: h.reads }
    | _ => h
  | .createNew p _, .ok =>
    if h.disk.node p = none then { h with unwritten := p :: h.unwritten } else h
  | .writeAll p b, f =>
    if (h.disk.node p).any Node.isFile ∧ f.written b = b then
      { h with unwritten := h.unwritten.filter (· ≠ p) }
    else h
  | _, _ => h

end PamHost

/-- What an operation returns and does, under a fault. -/
def exec : (o : PamOp) → Fault → PamHost → o.Res × PamHost
  | .file o, f, h => ((o.exec f h.disk).1, { h.record o f with disk := (o.exec f h.disk).2 })
  | .getrandom bytes, .ok, h => (.ok bytes, h)
  | .getrandom _, _, h => (.error "getrandom failed".toList, h)

def machine (may : PamHost → PamOp → Fault → Prop) : Machine PamOp.Res PamHost Fault where
  exec := exec
  may := may

end Install

end Tess

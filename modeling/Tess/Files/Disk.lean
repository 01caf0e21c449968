import Mathlib.Logic.Function.Basic
import Mathlib.Data.Nat.Notation

/-!
# A disk, and file operations that can fail

A disk maps paths to nodes: regular files with their bytes and permission bits, directories and
symbolic links. `FileOp` has one constructor for each system call the programs make, and
`FileOp.exec` says what a call returns and leaves behind under a given `Fault`. The path type is a
parameter, so that a program may use as few distinct names as it really has.

* A rename is atomic: it happens and succeeds, or it fails and nothing changes.
* A write may stop after any prefix of its bytes, and then fails.
* A test for existence has no error result: when the underlying `stat` fails, the answer is no.
-/

namespace Files

abbrev Byte := UInt8

abbrev Bytes := List Byte

/-- What the environment does to one operation: nothing, refuse it, cut a write short after `n`
bytes, or let it take effect and lose the reply. -/
inductive Fault where
  | ok
  | fail
  | late
  | cut (n : ℕ)
  deriving DecidableEq

/-- How much of a write reaches the file. -/
def Fault.written : Fault → Bytes → Bytes
  | ok, b => b
  | cut n, b => b.take n
  | fail, _ | late, _ => []

inductive IoError where
  | notFound
  | alreadyExists
  | loop
  | other
  deriving DecidableEq

/-- The text the standard library displays for an error. -/
def IoError.display : IoError → String
  | .notFound => "No such file or directory (os error 2)"
  | .alreadyExists => "File exists (os error 17)"
  | .loop => "Too many levels of symbolic links (os error 40)"
  | .other => "Input/output error (os error 5)"

variable {P : Type}

inductive Node (P : Type) where
  | file (data : Bytes) (mode : ℕ)
  | dir (mode : ℕ)
  | symlink (target : P)
  deriving DecidableEq

namespace Node

def isFile : Node P → Bool
  | file _ _ => true
  | _ => false

def isDir : Node P → Bool
  | dir _ => true
  | _ => false

def isSymlink : Node P → Bool
  | symlink _ => true
  | _ => false

def mode : Node P → ℕ
  | file _ m => m
  | dir m => m
  | symlink _ => 0o777

/-- Changing the permission bits; those of a link cannot be changed. -/
def chmod (m : ℕ) : Node P → Node P
  | file d _ => file d m
  | dir _ => dir m
  | symlink p => symlink p

/-- The node, without the permission bits of a directory. -/
def entry : Node P → Node P
  | dir _ => dir 0
  | n => n

@[simp] theorem entry_file (d : Bytes) (m : ℕ) : (file d m : Node P).entry = file d m := rfl

@[simp] theorem entry_eq_file {n : Node P} {d : Bytes} {m : ℕ} :
    n.entry = file d m ↔ n = file d m := by
  cases n <;> simp [entry]

end Node

/-- The nodes of a file system, and a clock that fresh names are taken from. -/
structure Disk (P : Type) where
  node : P → Option (Node P)
  clock : ℕ

namespace Disk

/-- The bound on the links followed in one lookup. -/
def maxLinks : ℕ := 40

/-- Where a path leads after following at most `n` links, with the node found there. -/
def follow (d : Disk P) : ℕ → P → Option (P × Node P)
  | 0, _ => none
  | n + 1, p =>
    match d.node p with
    | none => none
    | some (.symlink q) => d.follow n q
    | some x => some (p, x)

/-- The node a path leads to. -/
def stat (d : Disk P) (p : P) : Option (Node P) := (d.follow maxLinks p).map Prod.snd

variable [DecidableEq P]

def set (d : Disk P) (p : P) (n : Option (Node P)) : Disk P :=
  { d with node := Function.update d.node p n }

@[simp] theorem set_node_same (d : Disk P) (p : P) (n : Option (Node P)) :
    (d.set p n).node p = n := Function.update_self ..

@[simp] theorem set_node_of_ne (d : Disk P) {p q : P} (n : Option (Node P)) (h : q ≠ p) :
    (d.set p n).node q = d.node q := Function.update_of_ne h ..

theorem set_node (d : Disk P) (p q : P) (n : Option (Node P)) :
    (d.set p n).node q = if q = p then n else d.node q := by
  simp only [set, Function.update_apply]

theorem set_self {d : Disk P} {p : P} {n : Option (Node P)} (h : d.node p = n) : d.set p n = d := by
  subst h
  simp only [set, Function.update_eq_self]

@[simp] theorem set_set (d : Disk P) (p : P) (n n' : Option (Node P)) :
    (d.set p n).set p n' = d.set p n' := by
  simp only [set, Function.update_idem]

omit [DecidableEq P] in
/-- A directory is found where it is. -/
theorem follow_of_dir {d : Disk P} {p : P} {m : ℕ} (h : d.node p = some (.dir m)) :
    d.follow maxLinks p = some (p, .dir m) := by
  simp [maxLinks, follow, h]

omit [DecidableEq P] in
theorem stat_of_dir {d : Disk P} {p : P} {m : ℕ} (h : d.node p = some (.dir m)) :
    d.stat p = some (.dir m) := by
  simp [stat, follow_of_dir h]

omit [DecidableEq P] in
/-- A regular file is found where it is. -/
theorem stat_of_file {d : Disk P} {p : P} {b : Bytes} {m : ℕ} (h : d.node p = some (.file b m)) :
    d.stat p = some (.file b m) := by
  simp [stat, maxLinks, follow, h]

omit [DecidableEq P] in
theorem stat_of_none {d : Disk P} {p : P} (h : d.node p = none) : d.stat p = none := by
  simp [stat, maxLinks, follow, h]

end Disk

/-- The system calls on files. A descriptor of an open file is the node that was opened.
`setPermissions` is that of an open file, which is the one at the path itself; `setDirPermissions`
is that of a path which was seen to lead to a directory. -/
inductive FileOp (P : Type) where
  | pathExists (p : P)
  | isFile (p : P)
  | isDir (p : P)
  | metadata (p : P)
  | symlinkMetadata (p : P)
  | openNoFollow (p : P)
  | metadataOpen (n : Node P)
  | readOpen (n : Node P)
  | read (p : P)
  | createDirAll (p : P)
  | createNew (p : P) (mode : ℕ)
  | writeAll (p : P) (bytes : Bytes)
  | setPermissions (p : P) (mode : ℕ)
  | setDirPermissions (p : P) (mode : ℕ)
  | syncAll (p : P)
  | rename (p q : P)
  | removeFile (p : P)
  | syncParentDir (p : P)
  | freshTag

namespace FileOp

@[reducible] def Res : FileOp P → Type
  | pathExists _ | isFile _ | isDir _ => Bool
  | metadata _ | symlinkMetadata _ | openNoFollow _ | metadataOpen _ => Except IoError (Node P)
  | readOpen _ | read _ => Except IoError Bytes
  | freshTag => ℕ
  | _ => Except IoError Unit

/-- Reading a node as a regular file. -/
def readNode : Node P → Except IoError Bytes
  | .file b _ => .ok b
  | _ => .error .other

variable [DecidableEq P]

/-- What a call returns and what it leaves on the disk. A call has taken effect when it returns, and a
sync changes nothing: a program that is stopped leaves all that it has written. -/
def exec : (o : FileOp P) → Fault → Disk P → o.Res × Disk P
  | pathExists p, .ok, d => ((d.stat p).isSome, d)
  | pathExists _, _, d => (false, d)
  | isFile p, .ok, d => ((d.stat p).any Node.isFile, d)
  | isFile _, _, d => (false, d)
  | isDir p, .ok, d => ((d.stat p).any Node.isDir, d)
  | isDir _, _, d => (false, d)
  | metadata p, .ok, d => ((d.stat p).elim (.error .notFound) .ok, d)
  | metadata _, _, d => (.error .other, d)
  | symlinkMetadata p, .ok, d => ((d.node p).elim (.error .notFound) .ok, d)
  | symlinkMetadata _, _, d => (.error .other, d)
  | openNoFollow p, .ok, d =>
    match d.node p with
    | none => (.error .notFound, d)
    | some (.symlink _) => (.error .loop, d)
    | some n => (.ok n, d)
  | openNoFollow _, _, d => (.error .other, d)
  | metadataOpen n, .ok, d => (.ok n, d)
  | metadataOpen _, _, d => (.error .other, d)
  | readOpen n, .ok, d => (readNode n, d)
  | readOpen _, _, d => (.error .other, d)
  | read p, .ok, d => ((d.stat p).elim (.error .notFound) readNode, d)
  | read _, _, d => (.error .other, d)
  | createDirAll p, .ok, d =>
    match d.stat p with
    | some (.dir _) => (.ok (), d)
    | some _ => (.error .alreadyExists, d)
    | none => if d.node p = none then (.ok (), d.set p (some (.dir 0o755))) else
        (.error .alreadyExists, d)
  | createDirAll _, _, d => (.error .other, d)
  | createNew p m, .ok, d =>
    if d.node p = none then (.ok (), d.set p (some (.file [] m))) else (.error .alreadyExists, d)
  | createNew _ _, _, d => (.error .other, d)
  | writeAll p b, f, d =>
    match d.node p, f with
    | some (.file b₀ m), .ok => (.ok (), d.set p (some (.file (b₀ ++ b) m)))
    | some (.file b₀ m), .cut n => (.error .other, d.set p (some (.file (b₀ ++ b.take n) m)))
    | _, _ => (.error .other, d)
  | setPermissions p m, .ok, d =>
    match d.node p with
    | some n => (.ok (), d.set p (some (n.chmod m)))
    | none => (.error .notFound, d)
  | setPermissions _ _, _, d => (.error .other, d)
  | setDirPermissions p m, .ok, d =>
    match d.follow Disk.maxLinks p with
    | some (q, .dir _) => (.ok (), d.set q (some (.dir m)))
    | some _ => (.error .other, d)
    | none => (.error .notFound, d)
  | setDirPermissions _ _, _, d => (.error .other, d)
  | syncAll _, .ok, d => (.ok (), d)
  | syncAll _, _, d => (.error .other, d)
  | rename p q, .ok, d =>
    match d.node p, d.node q with
    | none, _ => (.error .notFound, d)
    | some _, some (.dir _) => (.error .other, d)
    | some n, _ => (.ok (), (d.set p none).set q (some n))
  | rename _ _, _, d => (.error .other, d)
  | removeFile p, .ok, d =>
    match d.node p with
    | none => (.error .notFound, d)
    | some (.dir _) => (.error .other, d)
    | some _ => (.ok (), d.set p none)
  | removeFile _, _, d => (.error .other, d)
  | syncParentDir _, .ok, d => (.ok (), d)
  | syncParentDir _, _, d => (.error .other, d)
  | freshTag, _, d => (d.clock, { d with clock := d.clock + 1 })

/-- A write to a regular file appends what reaches it, and succeeds when all of it was meant to. -/
theorem exec_writeAll {d : Disk P} {p : P} {b₀ : Bytes} {m : ℕ} (h : d.node p = some (.file b₀ m))
    (b : Bytes) (f : Fault) :
    (FileOp.writeAll p b).exec f d = (if f = .ok then .ok () else .error .other,
      d.set p (some (.file (b₀ ++ f.written b) m))) := by
  cases f <;> simp [exec, Fault.written, h, Disk.set_self]

end FileOp

end Files

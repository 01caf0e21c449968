import Tess.Enroll.Transaction

/-!
# What a host looks like between runs

`Host.view` keeps of a host what later runs, the user and the TPM's owner can tell apart: the
credential, the files under their final names, the TPM's seed and lockout authValue, the secrets
disclosed on the terminal, and the record of authorizations and events. Temporary files, lock
state, the PIN failure count and the permission bits of directories are not part of it.

An operation is `Quiet` for a process when it can only change what is not part of the view, and of
the temporary files only those of that process. `exec_quiet` is the proof that it does.
-/

namespace Tess

open Files Effects

/-! ## The view -/

structure View where
  credential : SecretBytes
  generated : Bool
  files : Artifact → Option (Node Path)
  seed : ℕ
  lockoutAuth : SecretBytes
  /-- How often a recovery secret was printed for the user. -/
  revealed : String → ℕ
  attempts : List (SecretBytes × SecretBytes)
  events : List Event

namespace View

def push (v : View) (e : Event) : View := { v with events := e :: v.events }

/-- A private file under the final name of `a`. -/
def place (v : View) (a : Artifact) (bytes : Bytes) : View :=
  { v with
    files := Function.update v.files a (some (.file bytes 0o600))
    events := .placed a (v.files a) (some (.file bytes 0o600)) :: v.events }

/-- The name of `a` is free. -/
def remove (v : View) (a : Artifact) : View := { v with files := Function.update v.files a none }

def rekey (v : View) (credential : SecretBytes) (generated : Bool) : View :=
  { v with credential := credential, generated := generated }

def attempt (v : View) (presented : SecretBytes) : View :=
  { v with attempts := (presented, v.lockoutAuth) :: v.attempts }

def setAuth (v : View) (auth : SecretBytes) : View := { v with lockoutAuth := auth }

def reveal (v : View) (display : String) : View :=
  { v with revealed := fun d => v.revealed d + if d = display then 1 else 0 }

@[simp] theorem files_place_self (v : View) (a : Artifact) (bytes : Bytes) :
    (v.place a bytes).files a = some (.file bytes 0o600) := Function.update_self ..

theorem files_place_of_ne (v : View) {a b : Artifact} (bytes : Bytes) (h : b ≠ a) :
    (v.place a bytes).files b = v.files b := Function.update_of_ne h _ _

theorem files_remove_of_ne (v : View) {a b : Artifact} (h : b ≠ a) :
    (v.remove a).files b = v.files b := by
  unfold remove
  exact Function.update_of_ne h _ _

end View

namespace Host

/-- What is at a path. -/
def at_ (h : Host) (p : Path) : Option (Node Path) := (h.disk.node p).map Node.entry

def files (h : Host) (a : Artifact) : Option (Node Path) := h.at_ (.main a)

theorem files_of_disk {h h' : Host} (hd : h'.disk = h.disk) : h'.files = h.files := by
  funext a
  rw [files, files, at_, at_, hd]

theorem at_eq_file {h : Host} {p : Path} {b : Bytes} {m : ℕ} :
    h.at_ p = some (.file b m) ↔ h.disk.node p = some (.file b m) := by
  simp [at_]

theorem at_eq_none {h : Host} {p : Path} : h.at_ p = none ↔ h.disk.node p = none := by
  simp [at_]

def view (h : Host) : View where
  credential := h.keyring.credential
  generated := h.keyring.generated
  files := h.files
  seed := h.tpm.seed
  lockoutAuth := h.tpm.lockoutAuth
  revealed d := h.printed.count (criticalText d)
  attempts := h.attempts
  events := h.events

end Host

/-- The environment may answer `o` by `f` in a host that looks like `v`. -/
def Allows (may : Host → Op → Fault → Prop) (v : View) (o : Op) (f : Fault) : Prop :=
  ∃ h : Host, h.view = v ∧ may h o f

theorem allows_of_may {may : Host → Op → Fault → Prop} {h : Host} {o : Op} {f : Fault}
    (hm : may h o f) : Allows may h.view o f := ⟨h, rfl, hm⟩

theorem Allows.anyFault {may : Host → Op → Fault → Prop} {v : View} {o : Op} {f : Fault}
    (ha : Allows may v o f) : Allows anyFault v o f := ha.imp fun _ h => ⟨h.1, trivial⟩

/-! ## The texts -/

theorem criticalText_inj {d d' : String} : criticalText d = criticalText d' ↔ d = d' :=
  ⟨fun h => (String.append_right_inj _).1 ((String.append_left_inj _).1 h), congrArg _⟩

theorem head_append {s : String} {c : Char} (h : s.toList.head? = some c) (t : String) :
    (s ++ t).toList.head? = some c := by
  rw [String.toList_append, List.head?_append, h]
  rfl

theorem ne_of_head {s t : String} {c d : Char} (hs : s.toList.head? = some c)
    (ht : t.toList.head? = some d) (hne : c ≠ d) : s ≠ t := by
  rintro rfl
  exact hne (Option.some.inj (hs.symm.trans ht))

/-- A warning does not disclose anything. -/
theorem warning_ne_criticalText (text display : String) :
    "warning: " ++ text ≠ criticalText display :=
  ne_of_head (head_append rfl text)
    (head_append (head_append (head_append (head_append rfl _) _) display) _) (by decide)

/-- Only a rollback that ended well says so. -/
theorem restoredText_head : restoredText.toList.head? = some 'e' := head_append rfl _

theorem cleanupFailedText_ne (e : Error) : cleanupFailedText e ≠ restoredText := by
  intro h
  have hlen := congrArg String.length h
  simp only [cleanupFailedText, String.length_append] at hlen
  have hpos : 0 < ", but ".length := by decide
  omega

theorem restoreFailedText_ne (e : Error) : restoreFailedText e ≠ restoredText := fun h =>
  ne_of_head (head_append (head_append (head_append rfl _) _) _)
    (head_append rfl _) (by decide) ((String.append_right_inj _).1 h)

theorem alreadyEnrolledText_ne (proc : Process) : alreadyEnrolledText proc ≠ restoredText :=
  ne_of_head (head_append (head_append (head_append rfl _) _) _) restoredText_head
    (by decide)

/-! ## Quiet operations -/

/-- File operations that no final name can notice. -/
def QuietFile (pid : ℕ) : FileOp Path → Prop
  | .createDirAll p => p = .dataDir ∨ p = .storeDir
  | .createNew p _ | .writeAll p _ | .removeFile p => ∃ a tag, p = .temp a pid tag
  | .setPermissions .. | .rename .. | .syncParentDir _ => False
  | _ => True

/-- Operations that leave the view and the temporary files of other processes alone. -/
def Quiet (pid : ℕ) : Op → Prop
  | .file o => QuietFile pid o
  | .setLockoutAuth .. | .resetLockout _ | .rekey .. => False
  | .eprintln text => ∀ display, text ≠ criticalText display
  | _ => True

/-- A step that changes the view by `g`, and no temporary file of another process. -/
structure Step (pid : ℕ) (g : View → View) (h h' : Host) : Prop where
  view : h'.view = g h.view
  temps : ∀ a pid' tag, pid' ≠ pid → h'.at_ (.temp a pid' tag) = h.at_ (.temp a pid' tag)

/-- A step that does not change the view. -/
abbrev QuietStep (pid : ℕ) (h h' : Host) : Prop := Step pid id h h'

theorem QuietStep.refl (pid : ℕ) (h : Host) : QuietStep pid h h := ⟨rfl, fun _ _ _ _ => rfl⟩

theorem at_setDisk_set (h : Host) (p q : Path) (n : Option (Node Path)) (es : List Event) :
    (h.setDisk (h.disk.set p n) es).at_ q = if q = p then n.map Node.entry else h.at_ q := by
  simp only [Host.at_, Host.setDisk, Disk.set_node]
  split <;> rfl

/-- Replacing what is at a path that the view and the other processes do not notice. -/
theorem quietStep_set {pid : ℕ} {h : Host} {p : Path} {n : Option (Node Path)}
    (hp : n.map Node.entry = h.at_ p ∨ p = .dataDir ∨ p = .storeDir ∨
      ∃ a tag, p = .temp a pid tag) :
    QuietStep pid h (h.setDisk (h.disk.set p n) []) := by
  have hat : ∀ q, q ≠ .dataDir → q ≠ .storeDir → (∀ a tag, q ≠ .temp a pid tag) →
      (h.setDisk (h.disk.set p n) []).at_ q = h.at_ q := by
    intro q hd hs ht
    rw [at_setDisk_set]
    split
    · subst_vars
      simpa [hd, hs, ht] using hp
    · rfl
  refine ⟨?_, fun a pid' tag hne => hat _ (by simp) (by simp) (by simp [hne])⟩
  have hf : (h.setDisk (h.disk.set p n) []).files = h.files :=
    funext fun a => hat _ (by simp) (by simp) (by simp)
  simp only [Host.view, hf]
  rfl

/-- A directory that a path leads to is where following it ends. -/
theorem follow_node {P : Type} {d : Disk P} {n : ℕ} {p q : P} {x : Node P}
    (h : d.follow n p = some (q, x)) : d.node q = some x := by
  induction n generalizing p with
  | zero => simp [Disk.follow] at h
  | succ n ih =>
    simp only [Disk.follow] at h
    split at h
    · cases h
    · exact ih h
    · rename_i hp hx
      cases h
      exact hx

theorem quietStep_file {pid : ℕ} {o : FileOp Path} (ho : QuietFile pid o) (f : Fault) (h : Host) :
    QuietStep pid h (h.setDisk (o.exec f h.disk).2 (fileEvents h.disk o f)) := by
  have hsame : QuietStep pid h (h.setDisk h.disk []) := .refl pid h
  cases o with
  | pathExists | isFile | isDir | metadata | symlinkMetadata | metadataOpen | readOpen | read
  | syncAll => cases f <;> exact hsame
  | openNoFollow p =>
    cases f <;> simp only [FileOp.exec, fileEvents]
    case ok => split <;> exact hsame
    all_goals exact hsame
  | createDirAll p =>
    cases f <;> simp only [FileOp.exec, fileEvents]
    case ok =>
      split
      · exact hsame
      · exact hsame
      · split
        · exact quietStep_set (by rcases ho with rfl | rfl <;> simp)
        · exact hsame
    all_goals exact hsame
  | createNew p m =>
    obtain ⟨a, tag, rfl⟩ := ho
    cases f <;> simp only [FileOp.exec, fileEvents]
    case ok =>
      split
      · exact quietStep_set (by simp)
      · exact hsame
    all_goals exact hsame
  | writeAll p b =>
    obtain ⟨a, tag, rfl⟩ := ho
    simp only [FileOp.exec, fileEvents]
    split
    · exact quietStep_set (by simp)
    · exact quietStep_set (by simp)
    · exact hsame
  | removeFile p =>
    obtain ⟨a, tag, rfl⟩ := ho
    cases f <;> simp only [FileOp.exec, fileEvents]
    case ok =>
      split
      · exact hsame
      · exact hsame
      · exact quietStep_set (by simp)
    all_goals exact hsame
  | setDirPermissions p m =>
    cases f <;> simp only [FileOp.exec, fileEvents]
    case ok =>
      split
      · rename_i q m' hq
        have hq := follow_node hq
        exact quietStep_set (.inl (by simp [Host.at_, hq, Node.entry]))
      · exact hsame
      · exact hsame
    all_goals exact hsame
  | freshTag => cases f <;> exact ⟨rfl, fun _ _ _ _ => rfl⟩
  | setPermissions | rename | syncParentDir => exact ho.elim

theorem exec_quiet (E : Primitives) {pid : ℕ} {o : Op} (ho : Quiet pid o) (f : Fault) (h : Host) :
    QuietStep pid h (exec E o f h).2 := by
  cases o with
  | file o => exact quietStep_file ho f h
  | eprintln text =>
    refine ⟨?_, fun _ _ _ _ => rfl⟩
    have hr : (fun d => (text :: h.printed).count (criticalText d)) =
        fun d => h.printed.count (criticalText d) :=
      funext fun d => List.count_cons_of_ne (ho d)
    simp only [exec, Host.view, hr]
    rfl
  | tpmUnseal sealed pin =>
    have hseed : (h.tpm.unsealKey E sealed pin).2.seed = h.tpm.seed ∧
        (h.tpm.unsealKey E sealed pin).2.lockoutAuth = h.tpm.lockoutAuth := by
      unfold Tpm.unsealKey
      repeat' split
      all_goals exact ⟨rfl, rfl⟩
    cases f with
    | ok =>
      refine ⟨?_, fun _ _ _ _ => rfl⟩
      simp only [exec, Host.setTpm, Host.view, hseed]
      rfl
    | _ => exact .refl pid h
  | unlock secret =>
    simp only [exec]
    split <;> exact ⟨rfl, fun _ _ _ _ => rfl⟩
  | setLockoutAuth | resetLockout | rekey => exact ho.elim
  | _ => cases f <;> exact ⟨rfl, fun _ _ _ _ => rfl⟩

/-! ## Events -/

/-- The events an operation may record. -/
def Op.Records : Op → Fault → Event → Prop
  | .file _, _, e => (∃ a was now, e = .placed a was now) ∨ ∃ a, e = .unsynced a
  | .setLockoutAuth current new, .late, e => e = .authLate current new
  | .setLockoutAuth current new, _, e => e = .authRefused current new
  | .rekey old new _, .late, e => e = .rekeyLate old new
  | _, _, _ => False

theorem mem_fileEvents {d : Disk Path} {o : FileOp Path} {f : Fault} {e : Event}
    (h : e ∈ fileEvents d o f) : Op.Records (.file o) f e := by
  unfold fileEvents at h
  split at h
  · split at h
    · cases h
    · cases h
    · exact .inl ⟨_, _, _, List.mem_singleton.mp h⟩
  · split at h
    · cases h
    · exact .inr ⟨_, List.mem_singleton.mp h⟩
  · cases h

/-- What an operation adds to the record of events. -/
theorem exec_events (E : Primitives) (o : Op) (f : Fault) (h : Host) :
    ∃ new, (exec E o f h).2.view.events = new ++ h.view.events ∧ ∀ e ∈ new, o.Records f e := by
  have hsame : ∃ new, h.view.events = new ++ h.view.events ∧ ∀ e ∈ new, o.Records f e :=
    ⟨[], rfl, by simp⟩
  cases o with
  | file o => exact ⟨_, rfl, fun e he => mem_fileEvents he⟩
  | setLockoutAuth current new =>
    simp only [exec]
    split
    · exact hsame
    · split
      · exact hsame
      · cases f <;> first | exact hsame | exact ⟨[_], rfl, fun e he => List.mem_singleton.mp he⟩
  | rekey old new generated =>
    simp only [exec]
    split
    · cases f <;> first | exact hsame | exact ⟨[_], rfl, fun e he => List.mem_singleton.mp he⟩
    · exact hsame
  | resetLockout =>
    simp only [exec]
    split <;> exact hsame
  | unlock =>
    simp only [exec]
    split <;> exact hsame
  | _ => cases f <;> exact hsame

end Tess

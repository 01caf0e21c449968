import Tess.Effects.Watch
import Tess.Enroll.Sample
import Tess.Enroll.Writers

/-!
# What a replacement leaves

The five writers of private files, each on its own host with any faults, and stopped anywhere. A
`Trail` is kept beside the host: what of each file has been synced, and which steps of the
replacement have gone wrong.

* `replaced_whole`: the file under the final name is the previous one or the whole new one, and the
  new one only when it has been synced.
* `unchanged_iff`: a writer that fails leaves the files as they were exactly when nothing went wrong
  that it does not clean up after.
-/

namespace Tess

open Files Effects

/-! ## The writers -/

inductive Writer where
  | save (m : Metadata) (a : Artifact)
  | saveBlob (blob : RecoveryBlob)
  | writeDurableMarker
  | writeSecretFile (a : Artifact) (secret : SecretBytes)
  | enrollStoreSave (username : String) (enrollment : FaceEnrollment)

namespace Writer

variable (E : Primitives) (proc : Process)

def prog : Writer → Io Unit
  | save m a => Persist.save E proc m a
  | saveBlob blob => Recovery.saveBlob E proc blob
  | writeDurableMarker => Recovery.writeDurableMarker proc
  | writeSecretFile a secret => Recovery.writeSecretFile proc a secret
  | enrollStoreSave username enrollment => EnrollStore.save E proc username enrollment

/-- The file it replaces. -/
def target : Writer → Artifact
  | save _ a | writeSecretFile a _ => a
  | saveBlob _ => .recovery
  | writeDurableMarker => .lockoutOwned
  | enrollStoreSave username _ => .template username

/-- What it puts there. -/
def Content : Writer → Bytes → Prop
  | save m _, bytes => E.metadataJson.toVecPretty m = .ok bytes
  | saveBlob blob, bytes => E.blobJson.toVecPretty blob = .ok bytes
  | writeDurableMarker, bytes => bytes = []
  | writeSecretFile _ secret, bytes => bytes = secret
  | enrollStoreSave _ enrollment, bytes => E.enrollmentJson enrollment = .ok bytes

/-- Whether it removes the sibling when that could not be written. -/
def Cleans : Writer → Prop
  | enrollStoreSave _ _ => True
  | _ => False

end Writer

/-! ## What is watched -/

/-- A step of a replacement that has failed: creating, writing or syncing a sibling, or syncing the
directory. -/
inductive Mishap where
  | create (p : Path)
  | write (p : Path)
  | sync (p : Path)
  | syncDir (a : Artifact)
  deriving DecidableEq

structure Trail where
  /-- What of the file at a path has been synced. -/
  synced : Path → Option Bytes
  /-- What has gone wrong, the latest first. -/
  mishaps : List Mishap

namespace Trail

def add (t : Trail) (m : Mishap) : Trail := { t with mishaps := m :: t.mishaps }

def setSynced (t : Trail) (p : Path) (b : Option Bytes) : Trail :=
  { t with synced := Function.update t.synced p b }

@[simp] theorem setSynced_self (t : Trail) (p : Path) (b : Option Bytes) :
    (t.setSynced p b).synced p = b := Function.update_self ..

/-- The data of a regular file. -/
def data : Node Path → Option Bytes
  | .file b _ => some b
  | _ => none

/-- The trail after an operation. -/
def after : Op → Fault → Host → Trail → Trail
  | .file (.createNew p _), f, h, t =>
    if f = .ok ∧ h.disk.node p = none then t.setSynced p none else t.add (.create p)
  | .file (.writeAll p _), f, _, t =>
    if f = .ok then t.setSynced p none else (t.setSynced p none).add (.write p)
  | .file (.syncAll p), f, h, t =>
    if f = .ok then t.setSynced p ((h.disk.node p).bind data) else t.add (.sync p)
  | .file (.rename p q), .ok, h, t =>
    match (FileOp.rename p q).exec .ok h.disk with
    | (.ok _, _) => (t.setSynced p none).setSynced q (t.synced p)
    | _ => t
  | .file (.syncParentDir (.main a)), f, _, t => if f = .ok then t else t.add (.syncDir a)
  | _, _, _, t => t

end Trail

namespace Host

/-- The files of the directories: those under their final names, and the temporary ones. -/
def entries (h : Host) (p : Path) : Option (Node Path) :=
  if p = .dataDir ∨ p = .storeDir then none else h.at_ p

end Host

/-- The host on its own, watched. -/
def watched (E : Primitives) (may : Host → Op → Fault → Prop) :
    Machine Op.Res (Host × Trail) Fault :=
  (machine E may).watch Trail.after

/-! ## Entries -/

section Entries

variable {h : Host} {p : Path}

theorem entries_main (h : Host) (a : Artifact) : h.entries (.main a) = h.files a := by
  simp [Host.entries, Host.files]

theorem entries_temp (h : Host) (a : Artifact) (pid tag : ℕ) :
    h.entries (.temp a pid tag) = h.at_ (.temp a pid tag) := by
  simp [Host.entries]

theorem entries_of_disk {h h' : Host} (hd : h'.disk = h.disk) : h'.entries = h.entries := by
  funext q
  rw [Host.entries, Host.entries, Host.at_, Host.at_, hd]

theorem entries_set (hp : ¬ (p = .dataDir ∨ p = .storeDir)) (n : Option (Node Path))
    (es : List Event) :
    (h.setDisk (h.disk.set p n) es).entries =
      Function.update h.entries p (n.map Node.entry) := by
  funext q
  rw [Host.entries, at_setDisk_set, Function.update_apply]
  by_cases hq : q = p
  · subst hq
    rw [if_neg hp, if_pos rfl, if_pos rfl]
  · simp only [if_neg hq, Host.entries]

/-- The files of the directories do not include the directories. -/
theorem entries_set_dir (hp : p = .dataDir ∨ p = .storeDir) (n : Option (Node Path))
    (es : List Event) : (h.setDisk (h.disk.set p n) es).entries = h.entries := by
  funext q
  rw [Host.entries, Host.entries, at_setDisk_set]
  by_cases hq : q = p
  · subst hq
    rw [if_pos hp, if_pos hp]
  · rw [if_neg hq]

/-- Neither do they show permission bits of directories. -/
theorem entries_set_same {n : Option (Node Path)} (hn : n.map Node.entry = h.at_ p)
    (es : List Event) : (h.setDisk (h.disk.set p n) es).entries = h.entries := by
  funext q
  rw [Host.entries, Host.entries, at_setDisk_set]
  by_cases hq : q = p
  · subst hq
    rw [if_pos rfl, hn]
  · rw [if_neg hq]

end Entries

/-! ## Operations that change no files -/

/-- Operations that change none of the files, and are not part of a replacement. -/
def Idle : Op → Prop
  | .file (.createDirAll p) => p = .dataDir ∨ p = .storeDir
  | .file (.createNew ..) | .file (.writeAll ..) | .file (.setPermissions ..) | .file (.syncAll _)
  | .file (.rename ..) | .file (.removeFile _) | .file (.syncParentDir _) => False
  | _ => True

theorem exec_idle (E : Primitives) {o : Op} (ho : Idle o) (f : Fault) (h : Host) :
    (exec E o f h).2.entries = h.entries := by
  cases o with
  | file o =>
    have hsame : ∀ es, (h.setDisk h.disk es).entries = h.entries := fun _ => rfl
    cases o with
    | createDirAll p =>
      cases f <;> simp only [exec, FileOp.exec]
      case ok =>
        split
        · exact hsame _
        · exact hsame _
        · split
          · exact entries_set_dir ho _ _
          · exact hsame _
      all_goals exact hsame _
    | setDirPermissions p m =>
      cases f <;> simp only [exec, FileOp.exec]
      case ok =>
        split
        · rename_i q m' hq
          exact entries_set_same (by simp [Host.at_, follow_node hq, Node.entry]) _
        · exact hsame _
        · exact hsame _
      all_goals exact hsame _
    | openNoFollow p =>
      cases f <;> simp only [exec, FileOp.exec]
      case ok => split <;> exact hsame _
      all_goals exact hsame _
    | createNew | writeAll | setPermissions | syncAll | rename | removeFile | syncParentDir =>
      exact ho.elim
    | freshTag => cases f <;> rfl
    | _ => cases f <;> exact hsame _
  | _ => exact entries_of_disk (disk_exec id)

theorem after_idle {o : Op} (ho : Idle o) (f : Fault) (h : Host) (t : Trail) :
    Trail.after o f h t = t := by
  cases o with
  | file o =>
    cases o with
    | createNew | writeAll | setPermissions | syncAll | rename | removeFile | syncParentDir =>
      exact ho.elim
    | _ => rfl
  | _ => rfl

/-! ## Steps of a replacement -/

/-- The files, and what has gone wrong so far. -/
def Stage (F : Path → Option (Node Path)) (ms : List Mishap) (s : Host × Trail) : Prop :=
  s.1.entries = F ∧ s.2.mishaps = ms

/-- Removing what is at a path, unless it is a directory. -/
def swept (F : Path → Option (Node Path)) (p : Path) : Path → Option (Node Path) :=
  if (F p).any Node.isDir = true then F else Function.update F p none

/-- Removing a file works if it is there. -/
def RemovalWorks : Host → Op → Fault → Prop :=
  fun _ o f => ∀ p, o = .file (.removeFile p) → f = .ok

section Steps

variable {E : Primitives} {may : Host → Op → Fault → Prop}
  {guar : Host × Trail → Host × Trail → Prop} {F : Path → Option (Node Path)} {ms : List Mishap}
  {s : Host × Trail} {b : Artifact} {pid tag : ℕ} {bytes : Bytes}

/-- An operation of the watched host. -/
theorem wp_watched {o : Op} {Q : o.Res → Host × Trail → Prop} :
    wp (watched E may) Eq guar (call o) Q s ↔ ∀ f, may s.1 o f →
      guar s ((exec E o f s.1).2, Trail.after o f s.1 s.2) ∧
        Q (exec E o f s.1).1 ((exec E o f s.1).2, Trail.after o f s.1 s.2) := wp_call_alone ..

/-- What changes no files keeps the stage. -/
theorem wp_idle {α : Type} {p : Prog Op.Res α} (hp : p.All Idle)
    (hg : ∀ s s', Stage F ms s' → guar s s') (hs : Stage F ms s) :
    wp (watched E may) Eq guar p (fun _ => Stage F ms) s := by
  refine wp_all hp (fun _ _ h hs => h ▸ hs) (fun s o f ho _ hs => ?_) hs
  have hnext : Stage F ms ((watched E may).exec o f s).2 :=
    ⟨(exec_idle E ho f s.1).trans hs.1,
      (congrArg Trail.mishaps (after_idle ho f s.1 s.2)).trans hs.2⟩
  exact ⟨hg _ _ hnext, hnext⟩

theorem wpe_idle {ε α : Type} {x : ExceptT ε (Prog Op.Res) α} (hx : AllOps Idle x)
    (hg : ∀ s s', Stage F ms s' → guar s s') (hs : Stage F ms s) :
    wpe (watched E may) Eq guar x (fun _ => Stage F ms) (fun _ => Stage F ms) s :=
  wp_post (wp_idle hx hg hs) fun r _ hr => by cases r <;> exact hr

/-- Creating a sibling. -/
theorem createNew_stage (hs : Stage F ms s)
    (hg : ∀ s' F' ms', (∀ a, F' (.main a) = F (.main a)) → Stage F' ms' s' → guar s s') :
    wpe (watched E may) Eq guar (createNew (.temp b pid tag) 0o600)
      (fun _ s' => F (.temp b pid tag) = none ∧
        Stage (Function.update F (.temp b pid tag) (some (.file [] 0o600))) ms s')
      (fun _ => Stage F (.create (.temp b pid tag) :: ms)) s := by
  obtain ⟨h, t⟩ := s
  obtain ⟨rfl, rfl⟩ := hs
  refine wp_watched.2 fun f _ => ?_
  by_cases hf : f = .ok ∧ h.disk.node (.temp b pid tag) = none
  · obtain ⟨rfl, hn⟩ := hf
    have hstage : Stage (Function.update h.entries (.temp b pid tag) (some (.file [] 0o600)))
        t.mishaps ((exec E (.file (.createNew (.temp b pid tag) 0o600)) .ok h).2,
          Trail.after (.file (.createNew (.temp b pid tag) 0o600)) .ok h t) := by
      simp only [exec, FileOp.exec, Trail.after, hn, if_true, and_self]
      exact ⟨entries_set (by simp) _ _, rfl⟩
    refine ⟨hg _ _ _ (fun a => Function.update_of_ne (by simp) _ _) hstage, ?_⟩
    refine outcome_of_ok (a := ()) (by simp [exec, FileOp.exec, hn]) ⟨?_, hstage⟩
    rw [entries_temp, Host.at_eq_none, hn]
  · have hstage : Stage h.entries (.create (.temp b pid tag) :: t.mishaps)
        ((exec E (.file (.createNew (.temp b pid tag) 0o600)) f h).2,
          Trail.after (.file (.createNew (.temp b pid tag) 0o600)) f h t) := by
      refine ⟨?_, by simp only [Trail.after, if_neg hf, Trail.add]⟩
      cases f with
      | ok =>
        have hn : ¬ h.disk.node (.temp b pid tag) = none := fun hn => hf ⟨rfl, hn⟩
        simp only [exec, FileOp.exec, if_neg hn]
        rfl
      | fail | late | cut => rfl
    refine ⟨hg _ _ _ (fun _ => rfl) hstage, ?_⟩
    cases f with
    | ok =>
      have hn : ¬ h.disk.node (.temp b pid tag) = none := fun hn => hf ⟨rfl, hn⟩
      exact outcome_of_error (e := .alreadyExists) (by simp [exec, FileOp.exec, hn]) hstage
    | fail | late | cut => exact outcome_of_error (e := .other) rfl hstage

/-- Writing it, after which it is not synced. -/
theorem writeAll_stage {b₀ : Bytes} (hs : Stage F ms s)
    (hn : F (.temp b pid tag) = some (.file b₀ 0o600))
    (hg : ∀ s' F' ms', (∀ a, F' (.main a) = F (.main a)) → Stage F' ms' s' → guar s s') :
    wpe (watched E may) Eq guar (writeAll (.temp b pid tag) bytes)
      (fun _ => Stage (Function.update F (.temp b pid tag) (some (.file (b₀ ++ bytes) 0o600))) ms)
      (fun e s' => e = .other ∧ ∃ b', Stage (Function.update F (.temp b pid tag)
        (some (.file b' 0o600))) (.write (.temp b pid tag) :: ms) s') s := by
  obtain ⟨h, t⟩ := s
  obtain ⟨rfl, rfl⟩ := hs
  rw [entries_temp, Host.at_eq_file] at hn
  refine wp_watched.2 fun f _ => ?_
  have hentries : (exec E (.file (.writeAll (.temp b pid tag) bytes)) f h).2.entries =
      Function.update h.entries (.temp b pid tag)
        (some (.file (b₀ ++ f.written bytes) 0o600)) := by
    simp only [exec, FileOp.exec_writeAll hn]
    exact entries_set (by simp) _ _
  have hmain : ∀ n a, Function.update h.entries (.temp b pid tag) n (.main a) =
      h.entries (.main a) := fun n a => Function.update_of_ne (by simp) _ _
  by_cases hf : f = .ok
  · subst hf
    have hstage : Stage (Function.update h.entries (.temp b pid tag)
        (some (.file (b₀ ++ bytes) 0o600))) t.mishaps
        ((exec E (.file (.writeAll (.temp b pid tag) bytes)) .ok h).2,
          Trail.after (.file (.writeAll (.temp b pid tag) bytes)) .ok h t) := ⟨hentries, rfl⟩
    exact ⟨hg _ _ _ (hmain _) hstage,
      outcome_of_ok (a := ()) (by simp [exec, FileOp.exec_writeAll hn]) hstage⟩
  · have hstage : Stage (Function.update h.entries (.temp b pid tag)
        (some (.file (b₀ ++ f.written bytes) 0o600))) (.write (.temp b pid tag) :: t.mishaps)
        ((exec E (.file (.writeAll (.temp b pid tag) bytes)) f h).2,
          Trail.after (.file (.writeAll (.temp b pid tag) bytes)) f h t) :=
      ⟨hentries, by simp only [Trail.after, if_neg hf, Trail.add, Trail.setSynced]⟩
    exact ⟨hg _ _ _ (hmain _) hstage,
      outcome_of_error (e := .other) (by simp [exec, FileOp.exec_writeAll hn, hf])
        ⟨rfl, _, hstage⟩⟩

/-- Syncing it. -/
theorem syncAll_stage (hs : Stage F ms s)
    (hn : F (.temp b pid tag) = some (.file bytes 0o600))
    (hg : ∀ s' ms', Stage F ms' s' → guar s s') :
    wpe (watched E may) Eq guar (syncAll (.temp b pid tag))
      (fun _ s' => Stage F ms s' ∧ s'.2.synced (.temp b pid tag) = some bytes)
      (fun e s' => e = .other ∧ Stage F (.sync (.temp b pid tag) :: ms) s') s := by
  obtain ⟨h, t⟩ := s
  obtain ⟨rfl, rfl⟩ := hs
  replace hn : h.disk.node (.temp b pid tag) = some (.file bytes 0o600) := by
    rwa [entries_temp, Host.at_eq_file] at hn
  refine wp_watched.2 fun f _ => ?_
  by_cases hf : f = .ok
  · subst hf
    have hstage : Stage h.entries t.mishaps ((exec E (.file (.syncAll (.temp b pid tag))) .ok h).2,
        Trail.after (.file (.syncAll (.temp b pid tag))) .ok h t) := ⟨rfl, rfl⟩
    refine ⟨hg _ _ hstage, outcome_of_ok (a := ()) rfl ⟨hstage, ?_⟩⟩
    simp only [Trail.after, Trail.setSynced, if_true, Function.update_self, hn]
    rfl
  · have hstage : Stage h.entries (.sync (.temp b pid tag) :: t.mishaps)
        ((exec E (.file (.syncAll (.temp b pid tag))) f h).2,
          Trail.after (.file (.syncAll (.temp b pid tag))) f h t) := by
      refine ⟨?_, by simp only [Trail.after, if_neg hf, Trail.add]⟩
      cases f <;> rfl
    refine ⟨hg _ _ hstage, outcome_of_error (e := .other) ?_ ⟨rfl, hstage⟩⟩
    cases f with
    | ok => exact absurd rfl hf
    | fail | late | cut => rfl

theorem entries_removeFile (f : Fault) (h : Host) :
    (exec E (.file (.removeFile (.temp b pid tag))) f h).2.entries =
      if f = .ok then swept h.entries (.temp b pid tag) else h.entries := by
  cases f with
  | ok =>
    have hat : h.entries (.temp b pid tag) = (h.disk.node (.temp b pid tag)).map Node.entry :=
      entries_temp ..
    cases hn : h.disk.node (.temp b pid tag) with
    | none =>
      rw [hn] at hat
      have hsame : Function.update h.entries (.temp b pid tag) none = h.entries := by
        rw [← Option.map_none, ← hat, Function.update_eq_self]
      simp only [exec, FileOp.exec, hn, if_true, swept, hat, hsame]
      rfl
    | some n =>
      rw [hn] at hat
      cases n with
      | dir m =>
        simp only [exec, FileOp.exec, hn, if_true, swept, hat]
        rfl
      | file | symlink =>
        simp only [exec, FileOp.exec, hn, if_true, swept, hat]
        exact entries_set (by simp) _ _
  | fail | late | cut => rfl

theorem swept_main (F : Path → Option (Node Path)) (a : Artifact) :
    swept F (.temp b pid tag) (.main a) = F (.main a) := by
  unfold swept
  split
  · rfl
  · exact Function.update_of_ne (by simp) _ _

/-- Removing a sibling, whatever comes of it. -/
theorem discard_stage (hs : Stage F ms s)
    (hg : ∀ s' F' ms', (∀ a, F' (.main a) = F (.main a)) → Stage F' ms' s' → guar s s') :
    wp (watched E may) Eq guar (discard (.temp b pid tag))
      (fun _ s' => (∀ h o f, may h o f → RemovalWorks h o f) →
        Stage (swept F (.temp b pid tag)) ms s') s := by
  obtain ⟨h, t⟩ := s
  obtain ⟨rfl, rfl⟩ := hs
  refine (wp_bind ..).2 (wp_watched.2 fun f hf => ?_)
  have hentries : (exec E (.file (.removeFile (.temp b pid tag))) f h).2.entries =
      if f = .ok then swept h.entries (.temp b pid tag) else h.entries := entries_removeFile f h
  constructor
  · refine hg _ _ t.mishaps ?_ ⟨hentries, rfl⟩
    intro a
    split
    · exact swept_main _ _
    · rfl
  · intro hall
    rw [if_pos (hall _ _ _ hf _ rfl)] at hentries
    exact ⟨hentries, rfl⟩

/-- Renaming it over the final name: that has the content that was synced, or nothing changes. -/
theorem rename_stage {a : Artifact} (hs : Stage F ms s)
    (hn : F (.temp b pid tag) = some (.file bytes 0o600))
    (hd : s.2.synced (.temp b pid tag) = some bytes) (hg : ∀ s', Stage F ms s' → guar s s')
    (hg' : ∀ s', Stage (Function.update (Function.update F (.temp b pid tag) none) (.main a)
      (some (.file bytes 0o600))) ms s' → s'.2.synced (.main a) = some bytes → guar s s') :
    wpe (watched E may) Eq guar (rename (.temp b pid tag) (.main a))
      (fun _ s' => Stage (Function.update (Function.update F (.temp b pid tag) none) (.main a)
        (some (.file bytes 0o600))) ms s' ∧ s'.2.synced (.main a) = some bytes)
      (fun _ => Stage F ms) s := by
  obtain ⟨h, t⟩ := s
  obtain ⟨rfl, rfl⟩ := hs
  replace hn : h.disk.node (.temp b pid tag) = some (.file bytes 0o600) := by
    rwa [entries_temp, Host.at_eq_file] at hn
  refine wp_watched.2 fun f _ => ?_
  have hentries : ∀ es, (h.setDisk ((h.disk.set (.temp b pid tag) none).set (.main a)
      (some (.file bytes 0o600))) es).entries =
        Function.update (Function.update h.entries (.temp b pid tag) none) (.main a)
          (some (.file bytes 0o600)) := by
    intro es
    have hfirst := entries_set (h := h) (p := .temp b pid tag) (by simp) none []
    have hsecond := entries_set (h := h.setDisk (h.disk.set (.temp b pid tag) none) [])
      (p := .main a) (by simp) (some (.file bytes 0o600)) es
    rw [hfirst] at hsecond
    exact hsecond
  have hsame : ∀ es, Stage h.entries t.mishaps (h.setDisk h.disk es, t) := fun _ => ⟨rfl, rfl⟩
  have hmoved : ∀ es, Stage (Function.update (Function.update h.entries (.temp b pid tag) none)
      (.main a) (some (.file bytes 0o600))) t.mishaps
      (h.setDisk ((h.disk.set (.temp b pid tag) none).set (.main a) (some (.file bytes 0o600))) es,
        (t.setSynced (.temp b pid tag) none).setSynced (.main a)
          (t.synced (.temp b pid tag))) := fun es => ⟨hentries es, rfl⟩
  have hsynced : ((t.setSynced (.temp b pid tag) none).setSynced (.main a)
      (t.synced (.temp b pid tag))).synced (.main a) = some bytes :=
    (Trail.setSynced_self ..).trans hd
  cases f with
  | ok =>
    cases ha : h.disk.node (.main a) with
    | none =>
      simp only [exec, FileOp.exec, Trail.after, hn, ha]
      exact ⟨hg' _ (hmoved _) hsynced, hmoved _, hsynced⟩
    | some n =>
      cases n with
      | dir m =>
        simp only [exec, FileOp.exec, Trail.after, hn, ha]
        exact ⟨hg _ (hsame _), hsame _⟩
      | file | symlink =>
        simp only [exec, FileOp.exec, Trail.after, hn, ha]
        exact ⟨hg' _ (hmoved _) hsynced, hmoved _, hsynced⟩
  | fail | late | cut => exact ⟨hg _ (hsame _), hsame _⟩

/-- Syncing the directory. -/
theorem syncParentDir_stage {a : Artifact} (hs : Stage F ms s)
    (hg : ∀ s', s'.1.entries = s.1.entries → s'.2.synced = s.2.synced → guar s s') :
    wpe (watched E may) Eq guar (syncParentDir (.main a)) (fun _ => Stage F ms)
      (fun _ => Stage F (.syncDir a :: ms)) s := by
  refine wp_watched.2 fun f _ => ?_
  cases f with
  | ok => exact ⟨hg _ rfl rfl, hs⟩
  | fail | late | cut => exact ⟨hg _ rfl rfl, hs.1, congrArg (List.cons _) hs.2⟩

end Steps

/-! ## A whole replacement -/

/-- The file under the final name is the previous one, or the whole new one, synced. -/
def Whole (F : Path → Option (Node Path)) (a : Artifact) (Content : Bytes → Prop)
    (s : Host × Trail) : Prop :=
  s.1.entries (.main a) = F (.main a) ∨ ∃ bytes, Content bytes ∧
    s.1.entries (.main a) = some (.file bytes 0o600) ∧ s.2.synced (.main a) = some bytes

/-- A mishap that leaves no trace: a writer that cleans up removes what has the name of its sibling,
one that does not leaves its sibling; and the new file stays when the directory is not synced. -/
def Harmless (F : Path → Option (Node Path)) (Content : Bytes → Prop) (cleans : Prop) :
    Mishap → Prop
  | .create p => cleans → F p = none ∨ (F p).any Node.isDir = true
  | .write _ | .sync _ => cleans
  | .syncDir a => ∃ bytes, Content bytes ∧ F (.main a) = some (.file bytes 0o600)

/-- The files are as before exactly when no mishap has left a trace. -/
def Accounted (F : Path → Option (Node Path)) (Content : Bytes → Prop) (cleans : Prop)
    (s : Host × Trail) : Prop :=
  s.1.entries = F ↔ ∀ m ∈ s.2.mishaps, Harmless F Content cleans m

section Replacement

variable {E : Primitives} {may : Host → Op → Fault → Prop} {F F' : Path → Option (Node Path)}
  {ms : List Mishap} {m : Mishap} {s : Host × Trail} {a : Artifact} {pid tag : ℕ} {bytes : Bytes}
  {Content : Bytes → Prop} {cleans : Prop}

theorem Stage.whole (hs : Stage F' ms s) (ha : F' (.main a) = F (.main a)) :
    Whole F a Content s := .inl (by rw [hs.1, ha])

/-- Nothing has changed. -/
theorem Stage.accounted (hs : Stage F ms s) (hms : ∀ m ∈ ms, Harmless F Content cleans m) :
    Accounted F Content cleans s := by
  rw [Accounted, hs.1, hs.2]
  exact iff_of_true rfl hms

/-- Something has changed, and the mishap says so. -/
theorem Stage.accounted_of_ne (hs : Stage F' (m :: ms) s) (hne : F' ≠ F)
    (hm : ¬ Harmless F Content cleans m) : Accounted F Content cleans s := by
  rw [Accounted, hs.1, hs.2]
  exact iff_of_false hne fun hall => hm (hall m List.mem_cons_self)

theorem update_ne {p : Path} {n : Option (Node Path)} (hn : F p ≠ n) : Function.update F p n ≠ F :=
  fun h => hn (by rw [← congrFun h p, Function.update_self])

/-- The directory is not synced. -/
theorem Stage.accounted_placed
    (hs : Stage (Function.update F (.main a) (some (.file bytes 0o600))) (.syncDir a :: ms) s)
    (hms : ∀ m ∈ ms, Harmless F Content cleans m) (hc : ∀ b, Content b ↔ b = bytes) :
    Accounted F Content cleans s := by
  by_cases ha : F (.main a) = some (.file bytes 0o600)
  · rw [← ha, Function.update_eq_self] at hs
    refine hs.accounted fun m hm => ?_
    rcases List.mem_cons.1 hm with rfl | hm
    · exact ⟨bytes, (hc _).2 rfl, ha⟩
    · exact hms m hm
  · refine hs.accounted_of_ne (update_ne ha) ?_
    rintro ⟨b, hb, hb'⟩
    rw [(hc b).1 hb] at hb'
    exact ha hb'

/-- Writing a sibling: it is there with its content synced, or the file could not be created, or it
is left behind. -/
theorem writePrivate_stage (hs : Stage F ms s) :
    wpe (watched E may) Eq (fun _ => Whole F a Content) (writePrivate (.temp a pid tag) bytes)
      (fun _ s' => F (.temp a pid tag) = none ∧
        Stage (Function.update F (.temp a pid tag) (some (.file bytes 0o600))) ms s' ∧
          s'.2.synced (.temp a pid tag) = some bytes)
      (fun e s' => Stage F (.create (.temp a pid tag) :: ms) s' ∨
        e = .other ∧ F (.temp a pid tag) = none ∧ ∃ b' m,
          (m = .write (.temp a pid tag) ∨ m = .sync (.temp a pid tag)) ∧
            Stage (Function.update F (.temp a pid tag) (some (.file b' 0o600))) (m :: ms) s') s := by
  have hmain : ∀ F' : Path → Option (Node Path), ∀ n c,
      Function.update F' (.temp a pid tag) n (.main c) = F' (.main c) :=
    fun _ _ _ => Function.update_of_ne (by simp) _ _
  refine wpe_step (createNew_stage hs fun _ _ _ hF hs' => hs'.whole (hF a)) (fun _ _ => .inl) ?_
  rintro - s₁ ⟨hfree, hs₁⟩
  refine wpe_step (writeAll_stage hs₁ (Function.update_self ..)
    fun _ _ _ hF hs' => hs'.whole ((hF a).trans (hmain ..)))
    (fun e s' ⟨he, n, hn⟩ => .inr ⟨he, hfree, n, _, .inl rfl, ?_⟩) ?_
  · rwa [Function.update_idem] at hn
  intro _ s₂ hs₂
  rw [Function.update_idem, List.nil_append] at hs₂
  refine wpe_mono (syncAll_stage hs₂ (Function.update_self ..) fun _ _ hs' => hs'.whole (hmain ..))
    (fun _ s' hs' => ⟨hfree, hs'⟩) fun e s' ⟨he, hs'⟩ => .inr ⟨he, hfree, _, _, .inr rfl, hs'⟩

/-- Publishing it: the new file is in place, or all is as before, or the directory is not synced. -/
theorem publish_stage {f g : IoError → Error} (hc : Content bytes)
    (hfree : F (.temp a pid tag) = none)
    (hs : Stage (Function.update F (.temp a pid tag) (some (.file bytes 0o600))) ms s)
    (hd : s.2.synced (.temp a pid tag) = some bytes) :
    wpe (watched E may) Eq (fun _ => Whole F a Content) (publish (.temp a pid tag) a f g)
      (fun _ => Stage (Function.update F (.main a) (some (.file bytes 0o600))) ms)
      (fun _ s' => ((∀ h o f, may h o f → RemovalWorks h o f) → Stage F ms s') ∨
        Stage (Function.update F (.main a) (some (.file bytes 0o600))) (.syncDir a :: ms) s') s := by
  have hmain : ∀ F' : Path → Option (Node Path), ∀ n c,
      Function.update F' (.temp a pid tag) n (.main c) = F' (.main c) :=
    fun _ _ _ => Function.update_of_ne (by simp) _ _
  have hgone : Function.update (Function.update F (.temp a pid tag) (some (.file bytes 0o600)))
      (.temp a pid tag) none = F := by
    rw [Function.update_idem, ← hfree, Function.update_eq_self]
  have hrename : wpe (watched E may) Eq (fun _ => Whole F a Content) (rename (.temp a pid tag)
      (.main a)) _ _ _ :=
    rename_stage hs (Function.update_self ..) hd (fun _ hs' => hs'.whole (hmain ..)) ?_
  · rw [hgone] at hrename
    refine wpe_seq ((wpe_cleanup ..).2 (wpe_mono hrename (fun _ _ => id) fun e s' hs' => ?_)) ?_
    · refine wp_post (discard_stage hs' fun _ _ _ hF hs'' => hs''.whole ((hF a).trans (hmain ..)))
        fun _ s'' hs'' => .inl fun hall => ?_
      have hswept := hs'' hall
      rw [swept, Function.update_self, if_neg (by simp [Node.isDir]), hgone] at hswept
      exact hswept
    · rintro - s' ⟨hs', hd'⟩
      refine (wpe_adapt ..).2 (wpe_mono (syncParentDir_stage hs' fun s'' he hsync =>
        .inr ⟨bytes, hc, ?_, ?_⟩)
        (fun _ _ => id) fun _ _ => .inr)
      · rw [he, hs'.1, Function.update_self]
      · rw [hsync, hd']
  · intro s' hs' hd'
    exact .inr ⟨bytes, hc, by rw [hs'.1, Function.update_self], hd'⟩

/-- The end of a replacement, for a writer to which its earlier mishaps do no harm. -/
theorem publish_accounted {f g : IoError → Error} (hc : ∀ b, Content b ↔ b = bytes)
    (hms : ∀ m ∈ ms, Harmless F Content cleans m) (hfree : F (.temp a pid tag) = none)
    (hs : Stage (Function.update F (.temp a pid tag) (some (.file bytes 0o600))) ms s)
    (hd : s.2.synced (.temp a pid tag) = some bytes) :
    wpe (watched E may) Eq (fun _ => Whole F a Content) (publish (.temp a pid tag) a f g)
      (fun _ _ => True)
      (fun _ s' => (∀ h o f, may h o f → RemovalWorks h o f) → Accounted F Content cleans s') s :=
  wpe_mono (publish_stage ((hc _).2 rfl) hfree hs hd) (fun _ _ _ => trivial) fun _ _ hs' hall =>
    hs'.elim (fun hsame => (hsame hall).accounted hms) fun hplaced =>
      hplaced.accounted_placed hms hc

/-- A writer that does not clean up leaves what it could not write. -/
theorem accounted_left {n : Node Path} (hfree : F (.temp a pid tag) = none) (hno : ¬ cleans)
    (hm : m = .write (.temp a pid tag) ∨ m = .sync (.temp a pid tag))
    (hs : Stage (Function.update F (.temp a pid tag) (some n)) (m :: ms) s) :
    Accounted F Content cleans s := by
  refine hs.accounted_of_ne (update_ne (by simp [hfree])) ?_
  rcases hm with rfl | rfl <;> exact hno

/-- A sibling that could not be created does not harm a writer that does not clean up. -/
theorem harmless_create {p : Path} (hno : ¬ cleans)
    (hms : ∀ m ∈ ms, Harmless F Content cleans m) :
    ∀ m ∈ (.create p :: ms), Harmless F Content cleans m := by
  intro m hm
  rcases List.mem_cons.1 hm with rfl | hm
  · exact fun hyes => absurd hyes hno
  · exact hms m hm

theorem tempSibling_stage (proc : Process) (hs : Stage F ms s) :
    wp (watched E may) Eq (fun _ => Whole F a Content) (tempSibling proc a)
      (fun p s' => Stage F ms s' ∧ ∃ tag, p = .temp a proc.pid tag) s :=
  (wp_bind ..).2 (wp_watched.2 fun _ _ => ⟨hs.whole rfl, hs, _, rfl⟩)

theorem replaceFile_stage {proc : Process} (hc : ∀ b, Content b ↔ b = bytes) (hno : ¬ cleans)
    (hs : Stage F [] s) :
    wpe (watched E may) Eq (fun _ => Whole F a Content) (Recovery.replaceFile proc a bytes)
      (fun _ _ => True)
      (fun _ s' => (∀ h o f, may h o f → RemovalWorks h o f) → Accounted F Content cleans s') s := by
  have hnone : ∀ m ∈ ([] : List Mishap), Harmless F Content cleans m := by simp
  refine wpe_seq ((wpe_adapt ..).2 (wpe_mono (wpe_idle ⟨parent_dir a, fun _ => trivial⟩
    (fun _ _ hs' => hs'.whole rfl) hs) (fun _ _ => id) fun _ _ hs' _ => hs'.accounted hnone)) ?_
  intro _ s hs
  refine wpe_seq ((wpe_lift ..).2 (tempSibling_stage proc hs)) ?_
  rintro _ s ⟨hs, tag, rfl⟩
  refine wpe_seq ((wpe_adapt ..).2 (wpe_mono (writePrivate_stage hs) (fun _ _ => id)
    fun e s' hs' _ => ?_)) ?_
  · rcases hs' with hs' | ⟨-, hfree, n, m, hm, hs'⟩
    · exact hs'.accounted (harmless_create hno hnone)
    · exact accounted_left hfree hno hm hs'
  · rintro _ s ⟨hfree, hs, hd⟩
    exact publish_accounted hc hnone hfree hs hd

/-- Every name that is taken is a mishap, and does no harm. -/
theorem saveTries_stage {proc : Process} (hc : ∀ b, Content b ↔ b = bytes) (hno : ¬ cleans)
    (n : ℕ) (last : Option IoError) (hms : ∀ m ∈ ms, Harmless F Content cleans m)
    (hs : Stage F ms s) :
    wpe (watched E may) Eq (fun _ => Whole F a Content) (Persist.saveTries proc a bytes last n)
      (fun _ _ => True)
      (fun _ s' => (∀ h o f, may h o f → RemovalWorks h o f) → Accounted F Content cleans s') s := by
  induction n generalizing last ms s with
  | zero => exact fun _ => hs.accounted hms
  | succ n ih =>
    unfold Persist.saveTries
    refine wpe_seq ((wpe_lift ..).2 (tempSibling_stage proc hs)) ?_
    rintro _ s ⟨hs, tag, rfl⟩
    refine (wpe_bind ..).2 ((wpe_lift ..).2 ((wp_run ..).2 (wpe_mono (writePrivate_stage hs)
      (fun _ s hs' => ?_) fun e s hs' => ?_)))
    · obtain ⟨hfree, hs', hd⟩ := hs'
      exact publish_accounted hc hms hfree hs' hd
    · cases e with
      | alreadyExists =>
        rcases hs' with hs' | ⟨he, -⟩
        · exact ih _ (harmless_create hno hms) hs'
        · cases he
      | notFound | loop | other =>
        intro _
        rcases hs' with hs' | ⟨-, hfree, n, m, hm, hs'⟩
        · exact hs'.accounted (harmless_create hno hms)
        · exact accounted_left hfree hno hm hs'

theorem swept_eq {p : Path} (hp : F p = none ∨ (F p).any Node.isDir = true) : swept F p = F := by
  rcases hp with hp | hp
  · rw [swept, hp, if_neg (by simp), ← hp, Function.update_eq_self]
  · rw [swept, if_pos hp]

/-- Cleaning up after a sibling that was there already, or could not be written. -/
theorem writeClean_stage (f : IoError → Error) (hc : cleans) (hs : Stage F [] s) :
    wpe (watched E may) Eq (fun _ => Whole F a Content)
      (cleanup (writePrivate (.temp a pid tag) bytes) (discard (.temp a pid tag)) f)
      (fun _ s' => F (.temp a pid tag) = none ∧
        Stage (Function.update F (.temp a pid tag) (some (.file bytes 0o600))) [] s' ∧
          s'.2.synced (.temp a pid tag) = some bytes)
      (fun _ s' => (∀ h o f, may h o f → RemovalWorks h o f) → Accounted F Content cleans s') s := by
  have hmain : ∀ n c, Function.update F (.temp a pid tag) n (.main c) = F (.main c) :=
    fun _ _ => Function.update_of_ne (by simp) _ _
  refine (wpe_cleanup ..).2 (wpe_mono (writePrivate_stage hs) (fun _ _ => id) fun e s hs => ?_)
  rcases hs with hs | ⟨-, hfree, b', m, hm, hs⟩
  · refine wp_post (discard_stage hs fun _ _ _ hF hs' => hs'.whole (hF a)) fun _ s' hs' hall => ?_
    have hswept := hs' hall
    by_cases hp : F (.temp a pid tag) = none ∨ (F (.temp a pid tag)).any Node.isDir = true
    · rw [swept_eq hp] at hswept
      exact hswept.accounted (by simpa [Harmless] using fun _ => by simpa using hp)
    · obtain ⟨hsome, hdir⟩ := not_or.1 hp
      rw [swept, if_neg hdir] at hswept
      exact hswept.accounted_of_ne (update_ne hsome) fun hno => hp (hno hc)
  · refine wp_post (discard_stage hs fun _ _ _ hF hs' => hs'.whole ((hF a).trans (hmain ..)))
      fun _ s' hs' hall => ?_
    have hswept := hs' hall
    rw [swept, Function.update_self, if_neg (by simp [Node.isDir]), Function.update_idem, ← hfree,
      Function.update_eq_self] at hswept
    refine hswept.accounted fun m' hm' => ?_
    obtain rfl := List.mem_singleton.1 hm'
    rcases hm with rfl | rfl <;> exact hc

end Replacement

/-! ## The writers -/

theorem content_iff {ε : Type} {r : Except ε Bytes} {bytes : Bytes} (h : r = .ok bytes) :
    ∀ b, r = .ok b ↔ b = bytes := by
  intro b
  rw [h, Except.ok.injEq, eq_comm]

/-- The result of a computation, with its error put into words. -/
theorem ofExcept_mapError {ε : Type} {W : Type} {M : Machine Op.Res W Fault}
    {guar : W → W → Prop} {r : Except ε Bytes} {f : ε → Error} {Q : Bytes → W → Prop}
    {X : Error → W → Prop} {w : W} (hok : ∀ b, r = .ok b → Q b w) (herr : ∀ e, X e w) :
    wpe M Eq guar (ofExcept (r.mapError f)) Q X w := by
  cases r with
  | ok b => exact hok b rfl
  | error e => exact herr _

theorem ensureDir_idle (proc : Process) : AllOps Idle (EnrollStore.ensureDir proc) := by
  have hmeta : AllOps Idle (metadata .storeDir) := ⟨trivial, fun _ => trivial⟩
  have hchmod : AllOps Idle (setDirPermissions .storeDir 0o700) := ⟨trivial, fun _ => trivial⟩
  have hexists : (pathExists .storeDir).All Idle := ⟨trivial, fun _ => trivial⟩
  have hcreate : AllOps Idle (createDirAll .storeDir) := ⟨.inr rfl, fun _ => trivial⟩
  exact .bind (allOps_lift hexists) fun there =>
    .bind ((hcreate.adapt _).unlessThen _) fun _ => .bind (hmeta.adapt _)
      fun found => .bind (allOps_ensure _ _) fun _ => (hchmod.adapt _).unlessThen _

section Writers

variable {E : Primitives} {may : Host → Op → Fault → Prop} {F : Path → Option (Node Path)}
  {s : Host × Trail} {proc : Process}

/-- What a writer leaves, and what there is on the way. -/
theorem writer_stage (w : Writer) (hs : Stage F [] s) :
    wpe (watched E may) Eq (fun _ => Whole F w.target (w.Content E)) (w.prog E proc)
      (fun _ _ => True)
      (fun _ s' => (∀ h o f, may h o f → RemovalWorks h o f) →
        Accounted F (w.Content E) w.Cleans s') s := by
  have hnone : ∀ m ∈ ([] : List Mishap), Harmless F (w.Content E) w.Cleans m := by simp
  cases w with
  | save m a =>
    refine wpe_seq (P := fun json s' => E.metadataJson.toVecPretty m = .ok json ∧ Stage F [] s')
      (ofExcept_mapError (fun _ hj => ⟨hj, hs⟩) fun _ _ => hs.accounted hnone) ?_
    rintro json s ⟨hj, hs⟩
    refine wpe_seq ((wpe_adapt ..).2 (wpe_mono (wpe_idle ⟨parent_dir a, fun _ => trivial⟩
      (fun _ _ hs' => hs'.whole rfl) hs) (fun _ _ => id) fun _ _ hs' _ => hs'.accounted hnone)) ?_
    intro _ s hs
    exact saveTries_stage (content_iff hj) id _ _ hnone hs
  | saveBlob blob =>
    refine wpe_seq (P := fun json s' => E.blobJson.toVecPretty blob = .ok json ∧ Stage F [] s')
      (ofExcept_mapError (fun _ hj => ⟨hj, hs⟩) fun _ _ => hs.accounted hnone) ?_
    rintro json s ⟨hj, hs⟩
    exact replaceFile_stage (content_iff hj) id hs
  | writeDurableMarker => exact replaceFile_stage (fun _ => Iff.rfl) id hs
  | writeSecretFile a secret => exact replaceFile_stage (fun _ => Iff.rfl) id hs
  | enrollStoreSave username enrollment =>
    have hquiet : ∀ e, ∀ s' : Host × Trail, Stage F [] s' →
        (fun (_ : Error) s' => (∀ h o f, may h o f → RemovalWorks h o f) →
          Accounted F (Writer.Content E (.enrollStoreSave username enrollment))
            (Writer.Cleans (.enrollStoreSave username enrollment)) s') e s' :=
      fun _ _ hs' _ => hs'.accounted hnone
    refine wpe_seq (P := fun _ => Stage F []) (ofExcept_spec (fun _ _ => hs) fun e => hquiet e _ hs)
      fun _ s hs => ?_
    refine wpe_step (wpe_idle (ensureDir_idle proc) (fun _ _ hs' => hs'.whole rfl) hs) hquiet
      fun _ s hs => ?_
    refine wpe_seq (P := fun a s' => a = .template username ∧ Stage F [] s')
      (ofExcept_spec (fun a ha => ?_) fun e => hquiet e _ hs) ?_
    · unfold EnrollStore.userPath at ha
      split at ha
      · exact ⟨(Except.ok.inj ha).symm, hs⟩
      · cases ha
    rintro _ s ⟨rfl, hs⟩
    refine wpe_seq ((wpe_lift ..).2 (tempSibling_stage proc hs)) ?_
    rintro _ s ⟨hs, tag, rfl⟩
    refine wpe_seq (P := fun json s' => E.enrollmentJson enrollment = .ok json ∧ Stage F [] s')
      (ofExcept_mapError (fun _ hj => ⟨hj, hs⟩) fun e => hquiet e _ hs) ?_
    rintro json s ⟨hj, hs⟩
    refine wpe_seq (writeClean_stage _ trivial hs) ?_
    rintro _ s ⟨hfree, hs, hd⟩
    exact publish_accounted (content_iff hj) hnone hfree hs hd

end Writers

/-! ## Wherever a writer is stopped -/

/-- Nothing is known to be synced, and nothing has gone wrong. -/
def Trail.start : Trail := ⟨fun _ => none, []⟩

/-- **A replacement is whole.** Wherever a writer is stopped, and whatever fails, the file under the
final name is as before, or it is the whole new file, and that has been synced. -/
theorem replaced_whole (E : Primitives) (proc : Process) (w : Writer) {h h' : Host} {t : Trail}
    {p : Prog Op.Res (Except Error Unit)}
    (hr : Reaches (watched E anyFault) (w.prog E proc).run (h, .start) p (h', t)) :
    h'.files w.target = h.files w.target ∨ ∃ bytes, w.Content E bytes ∧
      h'.files w.target = some (.file bytes 0o600) ∧ t.synced (.main w.target) = some bytes := by
  have hwhole := Reaches.invariant (writer_stage (F := h.entries) w ⟨rfl, rfl⟩) (.inl rfl) hr
  unfold Whole at hwhole
  rwa [entries_main, entries_main] at hwhole

/-- The same of the host that is not watched, but for what has been synced. -/
theorem replaced (E : Primitives) (proc : Process) (w : Writer) {h h' : Host}
    {p : Prog Op.Res (Except Error Unit)}
    (hr : Reaches (machine E anyFault) (w.prog E proc).run h p h') :
    h'.files w.target = h.files w.target ∨
      ∃ bytes, w.Content E bytes ∧ h'.files w.target = some (.file bytes 0o600) := by
  obtain ⟨t, hr⟩ : ∃ t, Reaches (watched E anyFault) (w.prog E proc).run (h, .start) p (h', t) :=
    hr.watch Trail.start
  have hwhole := Reaches.invariant (writer_stage (F := h.entries) w ⟨rfl, rfl⟩) (.inl rfl) hr
  unfold Whole at hwhole
  rw [entries_main, entries_main] at hwhole
  exact hwhole.imp_right fun ⟨bytes, hc, hn, _⟩ => ⟨bytes, hc, hn⟩

/-- **What a failed writer leaves**: the files are as before exactly when no mishap has left a
trace. A sibling that could not be written or synced stays, except for `EnrollStore::save`; that
removes whatever has the name of its sibling; and a file that was renamed stays when the directory
could not be synced. -/
theorem unchanged_iff (E : Primitives) (proc : Process) (w : Writer) {h h' : Host} {t : Trail}
    {e : Error} (hr : Returns (watched E RemovalWorks) (w.prog E proc).run (h, .start) (.error e)
      (h', t)) :
    h'.entries = h.entries ↔ ∀ m ∈ t.mishaps, Harmless h.entries (w.Content E) w.Cleans m :=
  Returns.post (writer_stage (F := h.entries) w ⟨rfl, rfl⟩) hr fun _ _ _ hf => hf

namespace Sample

/-- The face secret, to be written on a host without one. -/
def faceKeyWriter : Writer := .writeSecretFile .faceKey (List.replicate 32 7)

/-- The sibling is created and written, and cannot be synced. -/
def syncFails : List Fault := [.ok, .ok, .ok, .ok, .fail]

def unsyncedSecret : Prog Op.Res (Except Error Unit) × Host × Trail :=
  run (watched sample RemovalWorks) syncFails (faceKeyWriter.prog sample (proc 1)).run
    (fresh, .start)

theorem unsyncedSecret_returns : ∃ e, Returns (watched sample RemovalWorks)
    (faceKeyWriter.prog sample (proc 1)).run (fresh, .start) (.error e) unsyncedSecret.2 := by
  have hadmits : Admits (watched sample RemovalWorks) syncFails
      (faceKeyWriter.prog sample (proc 1)).run (fresh, .start) :=
    And.intro (fun _ _ => rfl) (And.intro (fun _ _ => rfl) (And.intro (fun _ _ => rfl)
      (And.intro (fun _ _ => rfl) (And.intro (fun _ h => by cases h) trivial))))
  exact ⟨_, returns_run hadmits rfl⟩

end Sample

open Sample in
theorem replaced_whole_unsyncedSecret :
    unsyncedSecret.2.1.files .faceKey = fresh.files .faceKey ∨
      ∃ bytes, faceKeyWriter.Content sample bytes ∧
        unsyncedSecret.2.1.files .faceKey = some (.file bytes 0o600) ∧
          unsyncedSecret.2.2.synced (.main .faceKey) = some bytes :=
  replaced_whole sample (proc 1) faceKeyWriter
    (reaches_run (admits_of_may (M := watched sample anyFault) (fun _ _ _ => trivial) syncFails
      _ _))

open Sample in
theorem unchanged_iff_unsyncedSecret : unsyncedSecret.2.1.entries = fresh.entries ↔
    ∀ m ∈ unsyncedSecret.2.2.mishaps,
      Harmless fresh.entries (faceKeyWriter.Content sample) faceKeyWriter.Cleans m :=
  unsyncedSecret_returns.elim fun _ hr => unchanged_iff sample (proc 1) faceKeyWriter hr

open Sample in
/-- **The secret is left behind**: when syncing it fails, the sibling with the whole face secret
stays on the disk. -/
theorem leftover_secret : ¬ ∀ (w : Writer) (h h' : Host) (e : Error),
    Returns (machine sample RemovalWorks) (w.prog sample (proc 1)).run h (.error e) h' →
      h'.entries = h.entries := by
  intro hall
  obtain ⟨e, hr⟩ := unsyncedSecret_returns
  have hsame := congrFun (hall _ _ _ _ hr.unwatch) (.temp .faceKey 1 0)
  have hleft : unsyncedSecret.2.1.entries (.temp .faceKey 1 0) =
      some (.file (List.replicate 32 7) 0o600) := by decide +kernel
  have hnone : fresh.entries (.temp .faceKey 1 0) = none := by decide +kernel
  rw [hleft, hnone] at hsame
  cases hsame

end Tess

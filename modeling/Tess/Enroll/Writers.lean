import Tess.Enroll.View

/-!
# What the writers of private files do

Each writer creates a temporary sibling, fills it, and renames it over the final name. The
specifications here are stated for any interference that leaves a process its own temporary files,
so that they serve a process on its own and one among others: an assertion that is `Stable`
survives until the rename, the rename is the one step that the view notices, and a directory sync
that fails is the only way to fail after it.
-/

namespace Tess

open Files Effects

variable {E : Primitives} {may : Host → Op → Fault → Prop} {rely guar : Host → Host → Prop}
  {pid : ℕ}

/-- The others do not touch the temporary files of the process. -/
def KeepsTemps (pid : ℕ) (rely : Host → Host → Prop) : Prop :=
  ∀ h h', rely h h' → ∀ a tag, h'.at_ (.temp a pid tag) = h.at_ (.temp a pid tag)

/-- An assertion that neither the others nor a quiet step of the process can break. -/
structure Stable (pid : ℕ) (rely guar : Host → Host → Prop) (P : Host → Prop) : Prop where
  rely : ∀ h h', rely h h' → P h → P h'
  quiet : ∀ h h', QuietStep pid h h' → P h → guar h h' ∧ P h'

/-! ## Quiet programs -/

theorem wp_quiet {α : Type} {P : Host → Prop} (hP : Stable pid rely guar P) {p : Prog Op.Res α}
    (hp : p.All (Quiet pid)) {h : Host} (h₀ : P h) :
    wp (machine E may) rely guar p (fun _ => P) h :=
  wp_all hp hP.rely (fun h _ f ho _ hPh => hP.quiet _ _ (exec_quiet E ho f h) hPh) h₀

theorem wpe_quiet {ε α : Type} {P : Host → Prop} (hP : Stable pid rely guar P)
    {x : ExceptT ε (Prog Op.Res) α} (hx : AllOps (Quiet pid) x) {h : Host} (h₀ : P h) :
    wpe (machine E may) rely guar x (fun _ => P) (fun _ => P) h :=
  wp_post (wp_quiet hP hx h₀) fun r _ hr => by cases r <;> exact hr

/-- A quiet operation, with what it returns. -/
theorem wp_op {P R : Host → Prop} (hP : Stable pid rely guar P)
    (hR : ∀ h h', rely h h' → R h → R h') {o : Op} (ho : Quiet pid o) {Q : o.Res → Host → Prop}
    (hQ : ∀ h f, P h → R h → Q (exec E o f h).1 (exec E o f h).2) {h : Host} (h₀ : P h)
    (hR₀ : R h) : wp (machine E may) rely guar (call o) (fun r h => P h ∧ Q r h) h := by
  intro h' hh f _
  have hP' := hP.rely _ _ hh h₀
  obtain ⟨hg, hP''⟩ := hP.quiet _ _ (exec_quiet E ho f h') hP'
  exact ⟨hg, hP'', hQ h' f hP' (hR _ _ hh hR₀)⟩

/-! ## A private temporary file -/

theorem tempSibling_spec {P : Host → Prop} (hP : Stable pid rely guar P) (proc : Process)
    (hpid : proc.pid = pid) (a : Artifact) {h : Host} (h₀ : P h) :
    wp (machine E may) rely guar (tempSibling proc a)
      (fun p h => P h ∧ ∃ tag, p = .temp a pid tag) h := by
  subst hpid
  refine (wp_bind ..).2 (wp_post (wp_op hP (R := fun _ => True) (fun _ _ _ _ => trivial)
    (o := .file .freshTag) trivial (Q := fun _ _ => True) (fun _ _ _ _ => trivial) h₀ trivial) ?_)
  exact fun tag h hh => ⟨hh.1, tag, rfl⟩

theorem discard_all {p : Path} (hp : ∃ a tag, p = .temp a pid tag) :
    (discard p).All (Quiet pid) := ⟨hp, fun _ => trivial⟩

theorem exec_createNew {h : Host} {p : Path} {m : ℕ} {f : Fault}
    (hr : (exec E (.file (.createNew p m)) f h).1 = .ok ()) :
    (exec E (.file (.createNew p m)) f h).2.at_ p = some (.file [] m) := by
  cases f <;> simp only [exec, FileOp.exec] at hr ⊢
  case ok =>
    split at hr
    · rename_i hn
      simp [hn, at_setDisk_set]
    · cases hr
  all_goals cases hr

theorem exec_writeAll {h : Host} {p : Path} {b₀ b : Bytes} {m : ℕ} {f : Fault}
    (hp : h.at_ p = some (.file b₀ m)) (hr : (exec E (.file (.writeAll p b)) f h).1 = .ok ()) :
    (exec E (.file (.writeAll p b)) f h).2.at_ p = some (.file (b₀ ++ b) m) := by
  rw [Host.at_eq_file] at hp
  cases f <;> simp only [exec, FileOp.exec, hp] at hr ⊢
  case ok => simp [at_setDisk_set]
  all_goals cases hr

theorem exec_syncAll {h : Host} {p q : Path} {f : Fault} :
    (exec E (.file (.syncAll p)) f h).2.at_ q = h.at_ q := by
  cases f <;> rfl

theorem writePrivate_spec {P : Host → Prop} (hP : Stable pid rely guar P)
    (ht : KeepsTemps pid rely) (a : Artifact) (tag : ℕ) (bytes : Bytes) {h : Host} (h₀ : P h) :
    wpe (machine E may) rely guar (writePrivate (.temp a pid tag) bytes)
      (fun _ h => P h ∧ h.at_ (.temp a pid tag) = some (.file bytes 0o600)) (fun _ => P) h := by
  have hkeep : ∀ n h h', rely h h' → h.at_ (.temp a pid tag) = n → h'.at_ (.temp a pid tag) = n :=
    fun n h h' hh hn => by rw [ht _ _ hh, hn]
  refine wpe_seq (P := fun _ h => P h ∧ h.at_ (.temp a pid tag) = some (.file [] 0o600)) ?_ ?_
  · refine wp_post (wp_op hP (R := fun _ => True) (fun _ _ _ _ => trivial)
      (o := .file (.createNew _ _)) ⟨a, tag, rfl⟩
      (Q := fun r h => r = .ok () → h.at_ (.temp a pid tag) = some (.file [] 0o600))
      (fun h f _ _ hr => exec_createNew hr) h₀ trivial) ?_
    intro r h hr
    cases r with
    | ok u => exact ⟨hr.1, hr.2 rfl⟩
    | error e => exact hr.1
  rintro _ h ⟨h₁, hn⟩
  refine wpe_seq (P := fun _ h => P h ∧ h.at_ (.temp a pid tag) = some (.file bytes 0o600)) ?_ ?_
  · refine wp_post (wp_op hP (hkeep _) (o := .file (.writeAll _ _)) ⟨a, tag, rfl⟩
      (Q := fun r h => r = .ok () → h.at_ (.temp a pid tag) = some (.file bytes 0o600))
      (fun h f _ hn hr => by simpa using exec_writeAll hn hr) h₁ hn) ?_
    intro r h hr
    cases r with
    | ok u => exact ⟨hr.1, hr.2 rfl⟩
    | error e => exact hr.1
  rintro _ h ⟨h₂, hn⟩
  refine wp_post (wp_op hP (hkeep _) (o := .file (.syncAll _)) trivial
    (Q := fun _ h => h.at_ (.temp a pid tag) = some (.file bytes 0o600))
    (fun h f _ hn => exec_syncAll.trans hn) h₂ hn) ?_
  intro r h hr
  cases r with
  | ok u => exact hr
  | error e => exact hr.1

/-! ## Publishing it -/

theorem exec_rename {h : Host} {a b : Artifact} {tag : ℕ} {bytes : Bytes} (f : Fault)
    (hp : h.at_ (.temp b pid tag) = some (.file bytes 0o600)) :
    (f = .ok ∧ (exec E (.file (.rename (.temp b pid tag) (.main a))) f h).1 = .ok () ∧
      Step pid (·.place a bytes) h (exec E (.file (.rename (.temp b pid tag) (.main a))) f h).2) ∨
    ∃ e, (exec E (.file (.rename (.temp b pid tag) (.main a))) f h).1 = .error e ∧
      (exec E (.file (.rename (.temp b pid tag) (.main a))) f h).2 = h := by
  rw [Host.at_eq_file] at hp
  cases f with
  | ok =>
    by_cases hd : ∃ m, h.disk.node (.main a) = some (.dir m)
    · obtain ⟨m, hd⟩ := hd
      exact .inr ⟨.other, by simp [exec, FileOp.exec, hp, hd],
        by simp [exec, FileOp.exec, fileEvents, hp, hd, Host.setDisk]⟩
    · have hexec : exec E (.file (.rename (.temp b pid tag) (.main a))) .ok h =
          (.ok (), h.setDisk ((h.disk.set (.temp b pid tag) none).set (.main a)
            (some (.file bytes 0o600))) [.placed a (h.files a) (some (.file bytes 0o600))]) := by
        cases hn : h.disk.node (.main a) with
        | none => simp [exec, FileOp.exec, fileEvents, hp, hn, Host.files, Host.at_]
        | some n =>
          cases n with
          | dir m => exact absurd ⟨m, hn⟩ hd
          | _ => simp [exec, FileOp.exec, fileEvents, hp, hn, Host.files, Host.at_, Node.entry]
      rw [hexec]
      have hat : ∀ es q, (h.setDisk ((h.disk.set (.temp b pid tag) none).set (.main a)
          (some (.file bytes 0o600))) es).at_ q =
            if q = .main a then some (.file bytes 0o600) else
              if q = .temp b pid tag then none else h.at_ q := by
        intro es q
        simp only [Host.at_, Host.setDisk, Disk.set_node]
        split
        · rfl
        · split <;> rfl
      refine .inl ⟨rfl, rfl, ?_, fun c pid' tag' hne => by simp [hat, hne]⟩
      have hfiles : ∀ es, (h.setDisk ((h.disk.set (.temp b pid tag) none).set (.main a)
          (some (.file bytes 0o600))) es).files =
            Function.update h.files a (some (.file bytes 0o600)) := by
        intro es
        funext c
        rw [Host.files, hat, Function.update_apply]
        by_cases hc : c = a <;> simp [hc, Host.files]
      simp only [Host.view, hfiles]
      rfl
  | _ => exact .inr ⟨.other, rfl, rfl⟩

theorem exec_syncParentDir (h : Host) (a : Artifact) (f : Fault) :
    ((exec E (.file (.syncParentDir (.main a))) f h).1 = .ok () ∧
      (exec E (.file (.syncParentDir (.main a))) f h).2 = h) ∨
    ∃ e, (exec E (.file (.syncParentDir (.main a))) f h).1 = .error e ∧
      Step pid (·.push (.unsynced a)) h (exec E (.file (.syncParentDir (.main a))) f h).2 := by
  cases f with
  | ok => exact .inl ⟨rfl, rfl⟩
  | _ => exact .inr ⟨.other, rfl, rfl, fun _ _ _ _ => rfl⟩

/-- What a writer of `bytes` to `a` may rely on and has to guarantee, with `P` holding until the
rename, `R` after it, and `S` when the directory is not synced. -/
structure PlaceRule (may : Host → Op → Fault → Prop) (rely guar : Host → Host → Prop) (pid : ℕ)
    (a : Artifact) (bytes : Bytes) (P R S : Host → Prop) : Prop where
  temps : KeepsTemps pid rely
  before : Stable pid rely guar P
  after : ∀ h h', rely h h' → R h → R h'
  refl : ∀ h, R h → guar h h
  place : ∀ tag h h', P h → may h (.file (.rename (.temp a pid tag) (.main a))) .ok →
    Step pid (·.place a bytes) h h' → guar h h' ∧ R h'
  spoil : ∀ h h', R h → Step pid (·.push (.unsynced a)) h h' → guar h h' ∧ S h'

variable {P R S : Host → Prop} {a : Artifact} {bytes : Bytes}

/-- A writer on its own, of which nothing is asked but the file. -/
theorem fileRule (pid : ℕ) (a : Artifact) (bytes : Bytes) :
    PlaceRule may Eq (fun _ _ => True) pid a bytes (fun _ => True)
      (fun h => h.files a = some (.file bytes 0o600)) (fun _ => True) where
  temps _ _ h _ _ := h ▸ rfl
  before := ⟨fun _ _ _ => id, fun _ _ _ _ => ⟨trivial, trivial⟩⟩
  after _ _ h := h ▸ id
  refl _ _ := trivial
  place _ h h' _ _ hs := by
    have hfiles : h'.view.files a = some (.file bytes 0o600) := by
      rw [hs.view, View.files_place_self]
    exact ⟨trivial, hfiles⟩
  spoil _ _ _ _ := ⟨trivial, trivial⟩

/-- **Publishing**: a written sibling is renamed, and the directory is synced. -/
theorem publish_spec (hr : PlaceRule may rely guar pid a bytes P R S) (tag : ℕ)
    (f g : IoError → Error) {h : Host} (h₀ : P h)
    (hn : h.at_ (.temp a pid tag) = some (.file bytes 0o600)) :
    wpe (machine E may) rely guar (publish (.temp a pid tag) a f g) (fun _ => R)
      (fun _ h => P h ∨ S h) h := by
  refine wpe_seq (P := fun _ => R) ((wpe_cleanup ..).2 ?_) fun _ h hRh => (wpe_adapt ..).2 ?_
  · intro h' hh c hc
    have hP' := hr.before.rely _ _ hh h₀
    rcases exec_rename (E := E) (a := a) c ((hr.temps _ _ hh a tag).trans hn) with
      ⟨rfl, hres, hstep⟩ | ⟨e, hres, hsame⟩
    · obtain ⟨hg, hR'⟩ := hr.place tag _ _ hP' hc hstep
      exact ⟨hg, outcome_of_ok hres hR'⟩
    · refine ⟨?_, outcome_of_error hres ?_⟩
      · change guar h' (exec E _ c h').2
        rw [hsame]
        exact (hr.before.quiet _ _ (.refl pid h') hP').1
      · change wp _ _ _ _ _ (exec E _ c h').2
        rw [hsame]
        exact wp_post (wp_quiet hr.before (discard_all ⟨a, tag, rfl⟩) hP') fun _ _ => .inl
  · intro h' hh c _
    have hR' := hr.after _ _ hh hRh
    rcases @exec_syncParentDir E pid h' a c with ⟨hres, hsame⟩ | ⟨e, hres, hstep⟩
    · refine ⟨?_, outcome_of_ok hres ?_⟩
      · change guar h' (exec E _ c h').2
        rw [hsame]
        exact hr.refl _ hR'
      · change R (exec E _ c h').2
        rw [hsame]
        exact hR'
    · obtain ⟨hg, hS⟩ := hr.spoil _ _ hR' hstep
      exact ⟨hg, outcome_of_error hres (.inr hS)⟩

/-! ## The writers -/

theorem createDirAll_all {p : Path} (hp : p = .dataDir ∨ p = .storeDir) :
    AllOps (Quiet pid) (createDirAll p) := ⟨hp, fun _ => trivial⟩

theorem parent_dir (a : Artifact) :
    Path.parent (.main a) = .dataDir ∨ Path.parent (.main a) = .storeDir := by
  cases a <;> simp [Path.parent]

theorem ofExcept_spec {W χ α : Type} {M : Machine Op.Res W χ} {rely guar : W → W → Prop}
    {r : Except Error α} {Q : α → W → Prop} {X : Error → W → Prop} {w : W}
    (hok : ∀ x, r = .ok x → Q x w) (herr : ∀ e, X e w) :
    wpe M rely guar (ofExcept r) Q X w := by
  cases r with
  | ok x => exact hok x rfl
  | error e => exact herr e

theorem replaceFile_spec (hr : PlaceRule may rely guar pid a bytes P R S) {proc : Process}
    (hpid : proc.pid = pid) {h : Host} (h₀ : P h) :
    wpe (machine E may) rely guar (Recovery.replaceFile proc a bytes) (fun _ => R)
      (fun _ h => P h ∨ S h) h := by
  refine wpe_seq (P := fun _ => P) ((wpe_adapt ..).2 ?_) fun _ h h₁ => ?_
  · exact wpe_mono (wpe_quiet hr.before (createDirAll_all (parent_dir a)) h₀) (fun _ _ => id)
      fun _ _ => .inl
  refine wpe_seq ((wpe_lift ..).2 (tempSibling_spec hr.before proc hpid a h₁)) ?_
  rintro _ h ⟨h₂, tag, rfl⟩
  refine wpe_seq ((wpe_adapt ..).2 (wpe_mono (writePrivate_spec hr.before hr.temps a tag bytes h₂)
    (fun _ _ => id) fun _ _ => .inl)) ?_
  rintro _ h ⟨h₃, hn⟩
  exact publish_spec hr tag _ _ h₃ hn

theorem saveTries_spec (hr : PlaceRule may rely guar pid a bytes P R S) {proc : Process}
    (hpid : proc.pid = pid) (n : ℕ) (last : Option IoError) {h : Host} (h₀ : P h) :
    wpe (machine E may) rely guar (Persist.saveTries proc a bytes last n) (fun _ => R)
      (fun _ h => P h ∨ S h) h := by
  induction n generalizing last h with
  | zero => exact .inl h₀
  | succ n ih =>
    unfold Persist.saveTries
    refine wpe_seq ((wpe_lift ..).2 (tempSibling_spec hr.before proc hpid a h₀)) ?_
    rintro _ h ⟨h₂, tag, rfl⟩
    refine wpe_seq (P := outcome
        (fun _ h => P h ∧ h.at_ (.temp a pid tag) = some (.file bytes 0o600)) fun _ => P)
      ((wpe_lift ..).2 (writePrivate_spec hr.before hr.temps a tag bytes h₂)) ?_
    rintro (e | _) h hh
    · cases e with
      | alreadyExists => exact ih _ hh
      | _ => exact .inl hh
    · exact publish_spec hr tag _ _ hh.1 hh.2

/-- Saving metadata, whose JSON form is `bytes` if it has one. -/
theorem save_spec (hr : PlaceRule may rely guar pid a bytes P R S) {proc : Process}
    (hpid : proc.pid = pid) {m : Metadata}
    (hjson : ∀ json, E.metadataJson.toVecPretty m = .ok json → json = bytes) {h : Host}
    (h₀ : P h) :
    wpe (machine E may) rely guar (Persist.save E proc m a) (fun _ => R) (fun _ h => P h ∨ S h)
      h := by
  refine wpe_seq (P := fun json h => json = bytes ∧ P h) ?_ ?_
  · exact ofExcept_spec (fun json hj => ⟨hjson json (mapError_eq_ok.1 hj), h₀⟩) fun _ => .inl h₀
  rintro _ h ⟨rfl, h₁⟩
  refine wpe_seq (P := fun _ => P) ((wpe_adapt ..).2 ?_) fun _ h h₂ =>
    saveTries_spec hr hpid _ _ h₂
  exact wpe_mono (wpe_quiet hr.before (createDirAll_all (parent_dir a)) h₁) (fun _ _ => id)
    fun _ _ => .inl

theorem ensureDir_all (proc : Process) : AllOps (Quiet pid) (EnrollStore.ensureDir proc) := by
  have hmeta : AllOps (Quiet pid) (metadata .storeDir) := ⟨trivial, fun _ => trivial⟩
  have hchmod : AllOps (Quiet pid) (setDirPermissions .storeDir 0o700) :=
    ⟨trivial, fun _ => trivial⟩
  have hexists : (pathExists .storeDir).All (Quiet pid) := ⟨trivial, fun _ => trivial⟩
  exact .bind (allOps_lift hexists) fun there =>
    .bind (((createDirAll_all (.inr rfl)).adapt _).unlessThen _) fun _ => .bind (hmeta.adapt _)
      fun found => .bind (allOps_ensure _ _) fun _ => (hchmod.adapt _).unlessThen _

/-- Saving a template, whose JSON form is `bytes` if it has one. -/
theorem store_save_spec {username : String}
    (hr : PlaceRule may rely guar pid (.template username) bytes P R S) {proc : Process}
    (hpid : proc.pid = pid) {t : FaceEnrollment}
    (hjson : ∀ json, E.enrollmentJson t = .ok json → json = bytes) {h : Host} (h₀ : P h) :
    wpe (machine E may) rely guar (EnrollStore.save E proc username t) (fun _ => R)
      (fun _ h => P h ∨ S h) h := by
  refine wpe_seq (P := fun _ => P) (ofExcept_spec (fun _ _ => h₀) fun _ => .inl h₀) fun _ h h₁ => ?_
  refine wpe_step (P := fun _ => P) (wpe_quiet hr.before (ensureDir_all proc) h₁) (fun _ _ => .inl)
    fun _ h h₂ => ?_
  refine wpe_seq (P := fun a h => a = .template username ∧ P h) (ofExcept_spec (fun a ha => ?_)
    fun _ => .inl h₂) ?_
  · unfold EnrollStore.userPath at ha
    split at ha
    · exact ⟨(Except.ok.inj ha).symm, h₂⟩
    · cases ha
  rintro _ h ⟨rfl, h₃⟩
  refine wpe_seq ((wpe_lift ..).2 (tempSibling_spec hr.before proc hpid _ h₃)) ?_
  rintro _ h ⟨h₄, tag, rfl⟩
  refine wpe_seq (P := fun json h => json = bytes ∧ P h) (ofExcept_spec (fun json hj =>
    ⟨hjson json (mapError_eq_ok.1 hj), h₄⟩) fun _ => .inl h₄) ?_
  rintro _ h ⟨rfl, h₅⟩
  refine wpe_seq ((wpe_cleanup ..).2 (wpe_mono (writePrivate_spec hr.before hr.temps _ tag _ h₅)
    (fun _ _ => id) fun _ _ hP => wp_post (wp_quiet hr.before (discard_all ⟨_, tag, rfl⟩) hP)
      fun _ _ => .inl)) ?_
  rintro _ h ⟨h₆, hn⟩
  exact publish_spec hr tag _ _ h₆ hn

end Tess

import Mathlib.Data.Set.Insert
import Tess.Install.Effective
import Tess.Install.Safety

/-!
# What a call that returns has done

`install_ok` says what an installation that succeeds leaves, whatever host it finds, and
`uninstall_outcome` what an uninstallation leaves, whether it succeeds or fails. Both see the three
files of the plan and nothing else: a temporary sibling is created where nothing was, and a call that
succeeds has renamed it away.
-/

namespace Tess

open Files Effects Text

namespace Install

variable {may : PamHost → PamOp → Fault → Prop} {h h' : PamHost}

/-- Weakest preconditions for a call whose intermediate states do not matter. -/
abbrev wpr {ε α : Type} (may : PamHost → PamOp → Fault → Prop) (x : ExceptT ε (Prog PamOp.Res) α)
    (Q : α → PamHost → Prop) (E : ε → PamHost → Prop) : PamHost → Prop :=
  wpe (machine may) Eq (fun _ _ => True) x Q E

theorem wpr_conj {ε α : Type} {y : ExceptT ε (Prog PamOp.Res) α} {Q Q' : α → PamHost → Prop}
    {E E' : ε → PamHost → Prop} (hy : wpr may y Q E h) (hy' : wpr may y Q' E' h) :
    wpr may y (fun a h => Q a h ∧ Q' a h) (fun e h => E e h ∧ E' e h) h :=
  wpe_guar (wpe_conj hy hy') (fun _ _ _ => trivial) (fun _ _ => id) fun _ _ => id

/-- The disk is the same but for the files at the paths of `S`. -/
def SameBut (S : Set Text) (h h' : PamHost) : Prop := ∀ p ∉ S, h'.disk.node p = h.disk.node p

theorem SameBut.refl (S : Set Text) (h : PamHost) : SameBut S h h := fun _ _ => rfl

theorem SameBut.trans {S : Set Text} {h₁ h₂ h₃ : PamHost} (h : SameBut S h₁ h₂)
    (h' : SameBut S h₂ h₃) : SameBut S h₁ h₃ := fun p hp => (h' p hp).trans (h p hp)

theorem SameBut.mono {S T : Set Text} (h₀ : SameBut S h h') (hST : S ⊆ T) : SameBut T h h' :=
  fun p hp => h₀ p fun hS => hp (hST hS)

theorem SameBut.put {S : Set Text} (h₀ : SameBut S h h') {p : Text} (hp : p ∈ S)
    (n : Option (Node Text)) (us : List Text) :
    SameBut S h { h'.put p n with unwritten := us } := by
  intro q hq
  have hne : q ≠ p := fun heq => hq (heq ▸ hp)
  exact (Disk.set_node_of_ne _ _ hne).trans (h₀ q hq)

theorem put_node_of_ne (h : PamHost) {p q : Text} (n : Option (Node Text)) (hne : q ≠ p) :
    (h.put p n).disk.node q = h.disk.node q := Disk.set_node_of_ne _ _ hne

/-! ## Replacing a file -/

/-- A replacement that succeeds changes the target only: it has made the sibling, and renamed it. -/
theorem replaceVia_ok {texts : ReplaceTexts} {tmp target : Text} {bytes : Bytes} {mode dm : ℕ} :
    wpr may (replaceVia texts tmp target bytes mode dm)
      (fun _ h' => h'.disk.node target = some (.file bytes mode) ∧ SameBut {target} h h')
      (fun _ _ => True) h := by
  refine (wpe_cleanup ..).2 (wpe_mono (Q := fun _ h' => h'.disk.node target =
    some (.file bytes mode) ∧ SameBut {target} h h') (E := fun _ _ => True) ?_ (fun _ _ => id)
    fun _ _ _ => wp_true ..)
  -- The sibling was not there, and nothing else changes up to the rename.
  let Stage (b : Bytes) (m : ℕ) (h' : PamHost) : Prop :=
    h.disk.node tmp = none ∧ h'.disk.node tmp = some (.file b m) ∧ SameBut {tmp} h h'
  refine wpe_seq (P := fun _ => Stage [] dm) ((wpe_adapt ..).2 (createNew_spec
    (fun hnone => ⟨trivial, hnone, put_node_self .., (SameBut.refl {tmp} h).put rfl _ _⟩)
    fun _ => ⟨trivial, trivial⟩)) ?_
  rintro - h₁ ⟨hnone, hn, hsame⟩
  refine wpe_seq (P := fun _ => Stage bytes dm) ((wpe_adapt ..).2 (writeAll_spec hn
    ⟨trivial, hnone, put_node_self .., hsame.put rfl _ _⟩ fun _ _ _ _ => ⟨trivial, trivial⟩)) ?_
  rintro - h₂ ⟨hnone, hn, hsame⟩
  refine wpe_seq (P := fun _ => Stage bytes mode) ((wpe_adapt ..).2 (setPermissions_spec hn
    ⟨trivial, hnone, put_node_self .., hsame.put rfl _ _⟩ fun _ => ⟨trivial, trivial⟩)) ?_
  rintro - h₃ hstage
  refine wpe_seq (P := fun _ => Stage bytes mode) ((wpe_adapt ..).2 (syncAll_spec
    ⟨trivial, hstage⟩ fun _ => ⟨trivial, trivial⟩)) ?_
  rintro - h₄ ⟨hnone, hn, hsame⟩
  have hrenamed : SameBut {target} h ((h₄.put tmp none).put target (some (.file bytes mode))) := by
    intro p hp
    rw [put_node_of_ne _ _ hp]
    by_cases htmp : p = tmp
    · rw [htmp, put_node_self, hnone]
    · rw [put_node_of_ne _ _ htmp, hsame p htmp]
  refine wpe_seq (P := fun _ h' => h'.disk.node target = some (.file bytes mode) ∧
    SameBut {target} h h') ((wpe_adapt ..).2 (rename_spec hn
      ⟨trivial, put_node_self .., hrenamed⟩ fun _ => ⟨trivial, trivial⟩)) ?_
  rintro - h₅ hdone
  exact (wpe_adapt ..).2 (syncParentDir_spec ⟨trivial, hdone⟩ fun _ => ⟨trivial, trivial⟩)

/-- A replacement that fails leaves the target as it was, or has replaced it. -/
theorem replaceVia_outcome {texts : ReplaceTexts} {tmp target : Text} {bytes : Bytes} {mode dm : ℕ}
    (hne : tmp ≠ target) :
    wpr may (replaceVia texts tmp target bytes mode dm)
      (fun _ h' => h'.disk.node target = some (.file bytes mode) ∧ SameBut {target} h h')
      (fun _ h' => (h'.disk.node target = h.disk.node target ∨
        h'.disk.node target = some (.file bytes mode)) ∧ SameBut {target, tmp} h h') h := by
  let I (h' : PamHost) : Prop := SameBut {tmp} h h'
  let J (h' : PamHost) : Prop :=
    h'.disk.node target = some (.file bytes mode) ∧ SameBut {target, tmp} h h'
  have hI : Blind I tmp := fun h' n us hh => SameBut.put hh rfl n us
  have hJ : Blind J tmp := fun h' n us hh =>
    ⟨(put_node_of_ne h' n hne.symm).trans hh.1, hh.2.put (by simp) n us⟩
  have hrename : ∀ h', I h' → J (h'.put target (some (.file bytes mode))) := fun h' hh =>
    ⟨put_node_self .., (SameBut.mono hh (by simp)).put (by simp) _ h'.unwritten⟩
  refine wpe_mono (wpr_conj replaceVia_ok (wpe_guar (replaceVia_spec hI hJ hrename
    (SameBut.refl _ h)) (fun _ _ _ => trivial) (fun _ _ => id) fun _ _ => id))
    (fun _ _ hh => hh.1) ?_
  rintro - h' ⟨-, hh | hh⟩
  · exact ⟨.inl (hh target (by simpa using hne.symm)), SameBut.mono hh (by simp)⟩
  · exact ⟨.inr hh.1, hh.2⟩

/-- Writing the stack. -/
theorem atomicWrite_outcome {path content : Text} {mode dm : ℕ} {suffix : Bytes} :
    wpr may (atomicWritePreservingMode path content mode suffix dm)
      (fun _ h' => h'.disk.node path = some (.file (utf8 content) mode) ∧ SameBut {path} h h')
      (fun _ h' => (h'.disk.node path = h.disk.node path ∨
        h'.disk.node path = some (.file (utf8 content) mode)) ∧
        SameBut {path, tempPath path suffix} h h') h := by
  have hsame := SameBut.refl {path, tempPath path suffix} h
  refine (wpe_bind ..).2 ((wpe_ensure ..).2 ⟨fun _ => ?_, fun _ => ⟨.inl rfl, hsame⟩⟩)
  refine wpe_step (P := fun tmp h' => h' = h ∧ tmp = tempPath path suffix)
    (unpredictableTempPath_spec trivial) ?_ ?_
  · rintro e _ rfl
    exact ⟨.inl rfl, hsame⟩
  · rintro _ _ ⟨rfl, rfl⟩
    exact replaceVia_outcome (tempPath_ne_self path suffix)

/-! ## Installing -/

/-- What is opened is the file at the path. -/
theorem openRegularNofollow_ok {p : Text} :
    wpr may (openRegularNofollow p)
      (fun r h' => h' = h ∧ ∀ n m, r = some (n, m) → h.disk.node p = some n ∧ m = n.mode)
      (fun _ _ => True) h := by
  refine wpe_look (P := fun n h' => h' = h ∧ h.disk.node p = some n) (F := fun _ h' => h' = h)
    ?_ ?_ ?_
  · rintro _ rfl f -
    refine ⟨trivial, ?_⟩
    change outcome _ _ (exec (.file (.openNoFollow p)) f h).1 (exec (.file (.openNoFollow p)) f h).2
    cases f with
    | ok =>
      cases hn : h.disk.node p with
      | none => simp [exec, FileOp.exec, PamHost.record, hn]
      | some n => cases n <;> simp [exec, FileOp.exec, PamHost.record, hn]
    | fail | late | cut => exact rfl
  · rintro n h ⟨rfl, hn⟩
    refine wpe_seq (P := fun m h' => h' = h ∧ m = n) ((wpe_adapt ..).2 ?_) ?_
    · rintro _ rfl f -
      cases f with
      | ok => exact ⟨trivial, rfl, rfl⟩
      | fail | late | cut => exact ⟨trivial, trivial⟩
    · rintro _ h ⟨rfl, rfl⟩
      refine (wpe_bind ..).2 ((wpe_ensure ..).2 ⟨fun _ => ⟨rfl, ?_⟩, fun _ => trivial⟩)
      intro n' m' heq
      cases heq
      exact ⟨hn, rfl⟩
  · rintro e h rfl
    cases e with
    | notFound =>
      refine ⟨rfl, fun n m heq => ?_⟩
      cases heq
    | alreadyExists | loop | other => trivial

theorem readToString_ok {p : Text} {n : Node Text} :
    wpr may (readToString p n)
      (fun r h' => h' = h ∧ ∀ c m, n = .file (utf8 c) m → r = c) (fun _ _ => True) h := by
  refine wpe_look (P := fun b h' => h' = h ∧ FileOp.readNode n = .ok b) (F := fun _ _ => True)
    ?_ ?_ ?_
  · rintro _ rfl f -
    refine ⟨trivial, ?_⟩
    change outcome _ _ (exec (.file (.readOpen n)) f h).1 (exec (.file (.readOpen n)) f h).2
    cases f with
    | ok => cases n <;> simp [exec, FileOp.exec, FileOp.readNode, PamHost.record]
    | fail | late | cut => trivial
  · rintro b h ⟨rfl, hb⟩
    cases hc : ofUtf8 b with
    | none => simp only [hc]; trivial
    | some content =>
      simp only [hc]
      refine ⟨rfl, ?_⟩
      rintro c m rfl
      obtain rfl : utf8 c = b := by simpa [FileOp.readNode] using hb
      simpa using hc.symm
  · rintro e h -
    trivial

theorem installModule_ok {plan : InstallPlan} {suffix : Bytes} {dm : ℕ} :
    wpr may (installModule plan suffix dm)
      (fun _ h' => (h.disk.stat plan.moduleDir).any Node.isDir = true ∧
        (∃ b m, h'.disk.node plan.installedModule = some (.file b m)) ∧
        SameBut {plan.installedModule} h h') (fun _ _ => True) h := by
  refine wpe_seq (P := fun _ h' => h' = h)
    ((wpe_lift ..).2 (wp_same (fun f => by cases f <;> rfl) trivial fun _ _ => rfl)) ?_
  rintro there h rfl
  refine (wpe_bind ..).2 ((wpe_ensure ..).2 ⟨fun _ => ?_, fun _ => trivial⟩)
  refine wpe_seq (P := fun r h' => h' = h ∧
      (r = true → (h.disk.stat plan.moduleDir).any Node.isDir = true))
    ((wpe_lift ..).2 (wp_same (fun f => by cases f <;> rfl) trivial fun f _ => ⟨rfl, ?_⟩)) ?_
  · cases f with
    | ok => exact id
    | fail | late | cut => exact fun hf => by cases hf
  rintro dir h ⟨rfl, hdir⟩
  refine (wpe_bind ..).2 ((wpe_ensure ..).2 ⟨fun htrue => ?_, fun _ => trivial⟩)
  refine wpe_step (P := fun _ h' => h' = h) (refuseSymlink_spec trivial) (fun _ _ _ => trivial) ?_
  rintro - h rfl
  refine wpe_seq (P := fun _ h' => h'.disk = h.disk) ((wpe_adapt ..).2
    (read_spec (fun _ => ⟨trivial, rfl⟩) fun _ => ⟨trivial, trivial⟩)) ?_
  intro bytes h₁ hdisk
  refine wpe_step (P := fun _ h' => h' = h₁) (wpe_mono (unpredictableTempPath_spec trivial)
    (fun _ _ hh => hh.1) fun _ _ => id) (fun _ _ _ => trivial) ?_
  rintro tmp _ rfl
  refine wpe_mono replaceVia_ok (fun _ h' hh => ⟨hdir htrue, ⟨bytes, _, hh.1⟩, fun p hp => ?_⟩)
    fun _ _ => id
  rw [hh.2 p hp, hdisk]

theorem ensureBackup_ok {plan : InstallPlan} {original : Text} {mode dm : ℕ} :
    wpr may (ensureBackup plan original mode dm)
      (fun _ h' => (∃ b m, h'.disk.node plan.backupFile = some (.file b m)) ∧
        SameBut {plan.backupFile} h h') (fun _ _ => True) h := by
  have hsame := SameBut.refl {plan.backupFile} h
  refine wpe_look (symlinkMetadata_spec trivial) ?_ ?_
  · rintro n h ⟨rfl, hn⟩
    cases n with
    | file b m => exact ⟨⟨b, m, hn⟩, hsame⟩
    | dir | symlink => trivial
  · rintro e h ⟨rfl, -⟩
    cases e with
    | notFound =>
      -- Every operation is on the backup.
      let Written (h' : PamHost) : Prop :=
        (∃ b m, h'.disk.node plan.backupFile = some (.file b m)) ∧ SameBut {plan.backupFile} h h'
      have hput : ∀ {h'} (b m us), SameBut {plan.backupFile} h h' →
          Written { h'.put plan.backupFile (some (.file b m)) with unwritten := us } :=
        fun b m us hh => ⟨⟨b, m, put_node_self ..⟩, hh.put rfl _ us⟩
      refine wpe_seq (P := fun _ => Written) ((wpe_adapt ..).2 (createNew_spec
        (fun _ => ⟨trivial, hput _ _ _ hsame⟩) fun _ => ⟨trivial, trivial⟩)) ?_
      rintro - h₁ ⟨⟨b, m, hn⟩, hh⟩
      refine wpe_seq (P := fun _ => Written) ((wpe_adapt ..).2 (writeAll_spec hn
        ⟨trivial, hput _ _ _ hh⟩ fun _ _ _ _ => ⟨trivial, trivial⟩)) ?_
      rintro - h₂ ⟨⟨b, m, hn⟩, hh⟩
      refine wpe_seq (P := fun _ => Written) ((wpe_adapt ..).2 (setPermissions_spec hn
        ⟨trivial, hput _ _ _ hh⟩ fun _ => ⟨trivial, trivial⟩)) ?_
      rintro - h₃ hh
      refine wpe_seq (P := fun _ => Written) ((wpe_adapt ..).2 (syncAll_spec
        ⟨trivial, hh⟩ fun _ => ⟨trivial, trivial⟩)) ?_
      rintro - h₄ hh
      exact (wpe_adapt ..).2 (syncParentDir_spec ⟨trivial, hh⟩ fun _ => ⟨trivial, trivial⟩)
    | alreadyExists | loop | other => trivial

variable {debug : Text → Text} {plan : InstallPlan} {c : Text} {mode dm : ℕ}

/-- The paths of a plan. -/
def InstallPlan.paths (plan : InstallPlan) : Set Text :=
  {plan.serviceFile, plan.installedModule, plan.backupFile}

/-- What a successful installation leaves: a checked stack with the block, and nothing else changed
but at the paths of the plan. -/
structure Committed (plan : InstallPlan) (content : Text) (mode : ℕ) (h h' : PamHost) : Prop where
  service : ServiceIs plan mode (Config.addBlock content) h'
  checked : Config.validateStack (Config.addBlock content) = .ok ()
  present : ∃ b m, h'.disk.node plan.installedModule = some (.file b m)
  backed : ∃ b m, h'.disk.node plan.backupFile = some (.file b m)
  same : SameBut plan.paths h h'
  read : ∀ c m, ServiceIs plan m c h → content = c ∧ mode = m
  moduleDir : (h.disk.stat plan.moduleDir).any Node.isDir = true

/-- **An installation that succeeds**, on any host. -/
theorem install_ok {s₁ s₂ : Bytes} :
    wpr may (install debug plan dm s₁ s₂)
      (fun _ h' => ∃ content mode, Committed plan content mode h h') (fun _ _ => True) h := by
  refine wpe_seq openRegularNofollow_ok ?_
  rintro found h ⟨rfl, hfound⟩
  refine wpe_seq (P := fun r h' => h' = h ∧ ∀ c m, ServiceIs plan m c h → r.1 = c ∧ r.2 = m) ?_ ?_
  · cases found with
    | none => trivial
    | some opened =>
      obtain ⟨n, m⟩ := opened
      obtain ⟨hn, rfl⟩ := hfound n m rfl
      refine wpe_seq readToString_ok ?_
      rintro content h ⟨rfl, hcontent⟩
      refine ⟨rfl, fun c m hx => ?_⟩
      obtain rfl : n = .file (utf8 c) m := Option.some.inj (hn.symm.trans hx)
      exact ⟨hcontent c m rfl, rfl⟩
  rintro ⟨content, mode⟩ h ⟨rfl, hread⟩
  refine wpe_seq (P := fun _ h' => h' = h ∧
    Config.validateStack (Config.addBlock content) = .ok ()) ?_ ?_
  · unfold validated
    cases hv : Config.validateStack (Config.addBlock content) with
    | ok u => exact ⟨rfl, rfl⟩
    | error e => trivial
  rintro - h ⟨rfl, hchecked⟩
  refine wpe_seq installModule_ok ?_
  rintro - h₁ ⟨hdir, ⟨b₁, m₁, hn₁⟩, hmodule⟩
  refine wpe_seq ensureBackup_ok ?_
  rintro - h₂ ⟨⟨b, m, hb⟩, hbackup⟩
  refine wpe_step (wpe_adapt .. |>.2 (wpe_mono atomicWrite_outcome (fun _ _ => id) fun _ _ _ =>
    trivial)) (fun _ _ => id) ?_
  rintro - h₃ ⟨hx, hservice⟩
  have hbacked := (hservice _ (by simpa using backupFile_ne_serviceFile plan)).trans hb
  have hpresent : ∃ b m, h₃.disk.node plan.installedModule = some (.file b m) := by
    by_cases heq : plan.installedModule = plan.serviceFile
    · exact ⟨_, _, heq ▸ hx⟩
    · refine ⟨b₁, m₁, ((hservice _ heq).trans (hbackup _ ?_)).trans hn₁⟩
      simpa using (backupFile_ne_installedModule plan).symm
  refine ⟨content, mode, hx, hchecked, hpresent, ⟨b, m, hbacked⟩, ?_, hread, hdir⟩
  exact ((hmodule.mono (by simp [InstallPlan.paths])).trans
    (hbackup.mono (by simp [InstallPlan.paths]))).trans
    (hservice.mono (by simp [InstallPlan.paths]))

/-! ## Uninstalling -/

theorem fsRemoveFile_outcome {p : Text} :
    wpr may (fsRemoveFile p) (fun _ h' => h' = h.put p none)
      (fun e h' => h' = h ∧ (e = .notFound → h.disk.node p = none)) h := by
  rintro _ rfl f -
  refine ⟨trivial, ?_⟩
  change outcome _ _ (exec (.file (.removeFile p)) f h).1 (exec (.file (.removeFile p)) f h).2
  cases f with
  | ok =>
    cases hn : h.disk.node p with
    | none => simp [exec, FileOp.exec, PamHost.record, hn]
    | some n => cases n <;> simp [exec, FileOp.exec, PamHost.record, PamHost.put, hn]
  | fail | late | cut => exact ⟨rfl, by simp⟩

/-- Where a file is to be removed it is gone, unless nothing has changed. -/
theorem removeIf_outcome {k : Prop} [Decidable k] {what p : Text} :
    wpr may (removeIf k what p)
      (fun _ h' => SameBut {p} h h' ∧ (k → h'.disk.node p = none) ∧ (¬ k → h' = h))
      (fun _ h' => h' = h) h := by
  unfold removeIf
  split
  next hk =>
    refine (wpe_adapt ..).2 (wpe_look fsRemoveFile_outcome ?_ ?_)
    · rintro - _ rfl
      exact ⟨(SameBut.refl {p} h).put rfl none h.unwritten, fun _ => put_node_self ..,
        fun hno => absurd hk hno⟩
    · rintro e h ⟨rfl, hnone⟩
      cases e with
      | notFound => exact ⟨SameBut.refl {p} h, fun _ => hnone rfl, fun _ => rfl⟩
      | alreadyExists | loop | other => exact rfl
  next hk => exact ⟨SameBut.refl {p} h, fun hk' => absurd hk' hk, fun _ => rfl⟩

/-- The removals, after the stack has been dealt with. -/
theorem removals_outcome (removedBlock : Bool) :
    wpr may
      (do
        let removedModule ← removeIf (plan.moduleDir ≠ []) "remove installed module ".toList
          plan.installedModule
        let removedBackup ← removeIf (removedBlock = true) "remove backup ".toList plan.backupFile
        pure
          ({ serviceFile := plan.serviceFile, removedBlock, removedModule, removedBackup } :
            UninstallReport))
      (fun _ h' => SameBut {plan.installedModule, plan.backupFile} h h' ∧
        (plan.moduleDir ≠ [] → h'.disk.node plan.installedModule = none) ∧
        h'.disk.node plan.backupFile =
          if removedBlock = true then none else h.disk.node plan.backupFile)
      (fun _ h' => SameBut {plan.installedModule} h h' ∧
        (h'.disk.node plan.installedModule = h.disk.node plan.installedModule ∨
          h'.disk.node plan.installedModule = none)) h := by
  have hne := backupFile_ne_installedModule plan
  refine wpe_step removeIf_outcome ?_ ?_
  · rintro - _ rfl
    exact ⟨SameBut.refl _ _, .inl rfl⟩
  rintro - h₁ ⟨hsame₁, hmodule, hkept⟩
  refine wpe_step removeIf_outcome ?_ ?_
  · rintro - _ rfl
    refine ⟨hsame₁, ?_⟩
    by_cases hdir : plan.moduleDir = []
    · exact .inl (by rw [hkept (by simp [hdir])])
    · exact .inr (hmodule hdir)
  rintro - h₂ ⟨hsame₂, hbackup, hkept₂⟩
  refine ⟨(hsame₁.mono (by simp)).trans (hsame₂.mono (by simp)), fun hdir => ?_, ?_⟩
  · rw [hsame₂ _ (by simpa using hne.symm), hmodule hdir]
  · split_ifs with hr
    · exact hbackup hr
    · rw [hkept₂ hr, hsame₁ _ (by simpa using hne)]

/-- The stack with the block is in place, and the backup is as it was. -/
def Pending (plan : InstallPlan) (x : Text) (mode : ℕ) (backup : Option (Node Text))
    (h : PamHost) : Prop :=
  ServiceIs plan mode x h ∧ h.disk.node plan.backupFile = backup

/-- The stack is restored, and the backup is as it was. Where the module is the service file, it may
be gone. -/
def Restored (plan : InstallPlan) (x : Text) (mode : ℕ) (backup : Option (Node Text))
    (h : PamHost) : Prop :=
  (ServiceIs plan mode (Config.removeBlock x) h ∨
    plan.serviceFile = plan.installedModule ∧ h.disk.node plan.serviceFile = none) ∧
    h.disk.node plan.backupFile = backup

/-- The stack is restored and the module is gone. -/
def Clean (plan : InstallPlan) (x : Text) (mode : ℕ) (h : PamHost) : Prop :=
  (plan.serviceFile ≠ plan.installedModule → ServiceIs plan mode (Config.removeBlock x) h) ∧
    (plan.moduleDir ≠ [] → h.disk.node plan.installedModule = none)

theorem hasBlock_removeBlock (x : Text) : Config.hasBlock (Config.removeBlock x) = false :=
  Config.hasBlock_eq_false.2 (Config.blockFree_removeBlock x)

variable {x : Text} {backup : Option (Node Text)} {s : Bytes}

theorem SameBut.serviceIs {S : Set Text} {y : Text} (h₀ : SameBut S h h')
    (hS : plan.serviceFile ∉ S)
    (hx : ServiceIs plan mode y h) : ServiceIs plan mode y h' := (h₀ _ hS).trans hx

/-- The removals keep what is restored. -/
theorem Restored.removals (hr : Restored plan x mode backup h)
    (hsame : SameBut {plan.installedModule} h h')
    (hmodule : h'.disk.node plan.installedModule = h.disk.node plan.installedModule ∨
      h'.disk.node plan.installedModule = none) : Restored plan x mode backup h' := by
  refine ⟨?_, (hsame _ (by simpa using backupFile_ne_installedModule plan)).trans hr.2⟩
  by_cases heq : plan.serviceFile = plan.installedModule
  · rcases hmodule with hkept | hgone
    · refine hr.1.imp (fun hx => ?_) fun hnone => ⟨heq, ?_⟩
      · rw [ServiceIs, heq, hkept, ← heq]
        exact hx
      · rw [heq, hkept, ← heq, hnone.2]
    · exact .inr ⟨heq, by rw [heq, hgone]⟩
  · refine hr.1.imp (hsame.serviceIs (by simpa using heq)) fun hnone => absurd hnone.1 heq

theorem Restored.clean (hr : Restored plan x mode backup h)
    (hsame : SameBut {plan.installedModule, plan.backupFile} h h')
    (hmodule : plan.moduleDir ≠ [] → h'.disk.node plan.installedModule = none) :
    Clean plan x mode h' := by
  refine ⟨fun hne => ?_, hmodule⟩
  have hx := hr.1.resolve_right fun hnone => hne hnone.1
  exact hsame.serviceIs (by simp [hne, (backupFile_ne_serviceFile plan).symm]) hx

theorem openRegularNofollow_absent {p : Text} (hn : h.disk.node p = none) :
    wpr may (openRegularNofollow p) (fun r h' => h' = h ∧ r = none) (fun _ h' => h' = h) h := by
  refine wpe_look (P := fun _ _ => False) (F := fun _ h' => h' = h) ?_ (fun _ _ => False.elim) ?_
  · rintro _ rfl f -
    refine ⟨trivial, ?_⟩
    change outcome _ _ (exec (.file (.openNoFollow p)) f h).1 (exec (.file (.openNoFollow p)) f h).2
    cases f with
    | ok => simp [exec, FileOp.exec, PamHost.record, hn]
    | fail | late | cut => exact rfl
  · rintro e h rfl
    cases e with
    | notFound => exact ⟨rfl, rfl⟩
    | alreadyExists | loop | other => exact rfl

/-- **Uninstalling a restored stack** removes the module, and keeps the backup. -/
theorem uninstall_restored (hr : Restored plan x mode backup h) :
    wpr may (uninstall debug plan dm s)
      (fun _ h' => Clean plan x mode h' ∧ h'.disk.node plan.backupFile = backup)
      (fun _ h' => Restored plan x mode backup h') h := by
  have hopen : wpr may (openRegularNofollow plan.serviceFile)
      (fun r h' => h' = h ∧
        (r = none ∨ r = some (.file (utf8 (Config.removeBlock x)) mode, mode)))
      (fun _ h' => h' = h) h := by
    rcases hr.1 with hx | ⟨-, hnone⟩
    · exact wpe_mono (openRegularNofollow_spec trivial hx) (fun _ _ => And.imp id .inr)
        fun _ _ => id
    · exact wpe_mono (openRegularNofollow_absent hnone) (fun _ _ => And.imp id .inl) fun _ _ => id
  have hread : ∀ found,
      (found = none ∨ found = some (.file (utf8 (Config.removeBlock x)) mode, mode)) →
      wpr may (unwire debug plan dm s found) (fun r h' => h' = h ∧ r = false) (fun _ h' => h' = h)
        h := by
    rintro _ (rfl | rfl)
    · exact ⟨rfl, rfl⟩
    · refine wpe_step (readToString_spec trivial) (fun _ _ => id) ?_
      rintro _ h ⟨rfl, rfl⟩
      rw [hasBlock_removeBlock]
      exact ⟨rfl, rfl⟩
  refine wpe_step hopen (fun _ _ heq => heq ▸ hr) ?_
  rintro found h ⟨rfl, hfound⟩
  refine wpe_step (hread found hfound) (fun _ _ heq => heq ▸ hr) ?_
  rintro _ h ⟨rfl, rfl⟩
  refine wpe_mono (removals_outcome false) ?_ fun _ h' hh => hr.removals hh.1 hh.2
  rintro - h' ⟨hsame, hmodule, hbackup⟩
  exact ⟨hr.clean hsame hmodule, hbackup.trans hr.2⟩

/-- **Uninstalling a stack with the block** restores it and removes the module and the backup; when it
fails, the backup is still there. -/
theorem uninstall_pending (hb : Config.hasBlock x = true) (hp : Pending plan x mode backup h) :
    wpr may (uninstall debug plan dm s)
      (fun _ h' => Clean plan x mode h' ∧ h'.disk.node plan.backupFile = none ∧
        SameBut plan.paths h h')
      (fun _ h' => Pending plan x mode backup h' ∨ Restored plan x mode backup h') h := by
  refine wpe_step (openRegularNofollow_spec trivial hp.1) (fun _ _ heq => .inl (heq ▸ hp)) ?_
  rintro _ h ⟨rfl, rfl⟩
  refine wpe_seq (P := fun r h' => r = true ∧ Restored plan x mode backup h' ∧
    SameBut {plan.serviceFile} h h') ?_ ?_
  · refine wpe_step (readToString_spec trivial) (fun _ _ heq => .inl (heq ▸ hp)) ?_
    rintro x h ⟨rfl, rfl⟩
    rw [hb]
    refine wpe_seq (P := fun _ h' => h' = h) (validated_spec rfl fun _ => .inl hp) ?_
    rintro - h rfl
    have hsame : ∀ {S : Set Text} {h'}, plan.backupFile ∉ S → SameBut S h h' →
        h'.disk.node plan.backupFile = backup := fun hS hh => (hh _ hS).trans hp.2
    refine wpe_seq (P := fun _ h' => Restored plan x mode backup h' ∧
      SameBut {plan.serviceFile} h h') ((wpe_adapt ..).2 (wpe_mono atomicWrite_outcome ?_ ?_))
      fun _ _ hh => ⟨rfl, hh⟩
    · rintro - h' ⟨hx, hh⟩
      exact ⟨⟨.inl hx, hsame (by simpa using backupFile_ne_serviceFile plan) hh⟩, hh⟩
    · rintro - h' ⟨hx, hh⟩
      have hbackup := hsame (by simp [backupFile_ne_serviceFile plan,
        (tempPath_ne_backupFile plan plan.serviceFile s).symm]) hh
      rcases hx with hkept | hdone
      · exact .inl ⟨hkept.trans hp.1, hbackup⟩
      · exact .inr ⟨.inl hdone, hbackup⟩
  rintro _ h₁ ⟨rfl, hr, hservice⟩
  refine wpe_mono (removals_outcome true) ?_ fun _ h' hh => .inr (hr.removals hh.1 hh.2)
  rintro - h' ⟨hsame, hmodule, hbackup⟩
  refine ⟨hr.clean hsame hmodule, hbackup, ?_⟩
  exact (hservice.mono (by simp [InstallPlan.paths])).trans
    (hsame.mono (by simp [InstallPlan.paths]))

/-! ## Refusals -/

/-- The call ends because the restored stack is refused. -/
def Refused (plan : InstallPlan) (f : Failure) : Prop :=
  f.head? = some ("refusing to write ".toList ++ plan.serviceFile ++
    ": stack after removing the tess block failed validation".toList)

theorem not_refused_cons {t : Text} {f : Failure} (ht : t.take 14 ≠ "refusing to wr".toList) :
    ¬ Refused plan (t :: f) := by
  intro hr
  rw [Option.some.inj hr] at ht
  exact ht (by simp)

/-- What an operation reports is no refusal. -/
theorem not_refused_ioContext {α : Type} {what : Text} {y : SysIo α}
    (hwhat : what.take 14 ≠ "refusing to wr".toList) :
    wpr may (ioContext what y) (fun _ _ => True) (fun f _ => ¬ Refused plan f) h :=
  (wpe_adapt ..).2 (wpe_mono (wpe_true ..) (fun _ _ => id) fun _ _ _ => not_refused_cons hwhat)

theorem not_refused_open (plan : InstallPlan) {p : Text} :
    wpr may (openRegularNofollow p) (fun _ _ => True) (fun f _ => ¬ Refused plan f) h := by
  refine wpe_look (wpe_true ..) ?_ ?_
  · rintro n h -
    refine wpe_seq (not_refused_ioContext (by simp)) fun m h _ => ?_
    exact (wpe_bind ..).2 ((wpe_ensure ..).2
      ⟨fun _ => trivial, fun _ => not_refused_cons (by simp)⟩)
  · rintro e h -
    cases e with
    | notFound => trivial
    | alreadyExists | loop | other => exact not_refused_cons (by simp)

theorem not_refused_read (plan : InstallPlan) {p : Text} {n : Node Text} :
    wpr may (readToString p n) (fun _ _ => True) (fun f _ => ¬ Refused plan f) h := by
  refine wpe_look (wpe_true ..) ?_ ?_
  · rintro b h -
    cases hc : ofUtf8 b with
    | none =>
      simp only [hc]
      exact not_refused_cons (by simp)
    | some content =>
      simp only [hc]
      trivial
  · rintro e h -
    exact not_refused_cons (by simp)

theorem not_refused_removeIf {k : Prop} [Decidable k] {what p : Text}
    (hwhat : (what ++ p).take 14 ≠ "refusing to wr".toList) :
    wpr may (removeIf k what p) (fun _ _ => True) (fun f _ => ¬ Refused plan f) h := by
  unfold removeIf
  split
  · exact not_refused_ioContext hwhat
  · trivial

/-- **No refusal**: a checked stack is restored without the check failing. -/
theorem uninstall_not_refused (hv : Config.validateStack x = .ok ())
    (hx : ServiceIs plan mode x h) :
    wpr may (uninstall debug plan dm s) (fun _ _ => True) (fun f _ => ¬ Refused plan f) h := by
  refine wpe_step (wpr_conj (openRegularNofollow_spec trivial hx) (not_refused_open plan))
    (fun _ _ => And.right) ?_
  rintro _ h ⟨⟨rfl, rfl⟩, -⟩
  refine wpe_seq (P := fun _ _ => True) ?_ ?_
  · refine wpe_step (wpr_conj (readToString_spec trivial) (not_refused_read plan))
      (fun _ _ => And.right) ?_
    rintro x h ⟨⟨rfl, rfl⟩, -⟩
    split
    · refine wpe_seq (P := fun _ _ => True) ?_ fun _ h _ => ?_
      · rw [validated, Config.validateStack_removeBlock hv]
        trivial
      · refine wpe_seq (P := fun _ _ => True) ((wpe_adapt ..).2 (wpe_mono (wpe_true ..)
          (fun _ _ => id) fun _ _ _ => not_refused_cons (by simp))) fun _ _ => id
    · trivial
  intro removedBlock h _
  refine wpe_seq (not_refused_removeIf (by simp)) fun _ h _ => ?_
  exact wpe_seq (not_refused_removeIf (by simp)) fun _ h _ => trivial

end Install

end Tess

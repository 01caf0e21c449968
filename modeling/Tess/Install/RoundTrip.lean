import Tess.Install.Outcome

/-!
# Installing and uninstalling again

Any number of installations and one uninstallation give back the disk (`install_uninstall`). An
uninstallation that fails may be repeated: when it succeeds, the stack is restored and the module is
gone. The backup goes with the call that restores the stack, if that call does not fail afterwards
(`resumed_uninstall`).
-/

namespace Tess

open Files Effects Text

namespace Install

/-- A host on which every operation may fail. -/
abbrev anyFault : Machine PamOp.Res PamHost Fault := machine fun _ _ _ => True

variable (debug : Text → Text) (plan : InstallPlan)

/-- Installations one after another, all of them successful. -/
inductive Installs : ℕ → PamHost → PamHost → Prop
  | zero (h : PamHost) : Installs 0 h h
  | succ {n : ℕ} {h₀ h h' : PamHost} {dm : ℕ} {s₁ s₂ : Bytes} {r : InstallReport}
      (hs : Installs n h₀ h)
      (hr : Returns anyFault (install debug plan dm s₁ s₂).run h (.ok r) h') :
      Installs (n + 1) h₀ h'

/-- Uninstallations one after another, all of them failed. -/
inductive FailedUninstalls : PamHost → PamHost → Prop
  | none (h : PamHost) : FailedUninstalls h h
  | more {h₀ h h' : PamHost} {dm : ℕ} {s : Bytes} {f : Failure} (hs : FailedUninstalls h₀ h)
      (hr : Returns anyFault (uninstall debug plan dm s).run h (.error f) h') :
      FailedUninstalls h₀ h'

variable {debug plan} {c : Text} {mode : ℕ} {h₀ h h' : PamHost}

/-! ## What an installation has committed -/

theorem committed_of_returns {dm : ℕ} {s₁ s₂ : Bytes} {r : InstallReport}
    (hr : Returns anyFault (install debug plan dm s₁ s₂).run h₀ (.ok r) h) :
    ∃ content mode, Committed plan content mode h₀ h :=
  returns_ok install_ok hr

/-- **The edit keeps the stack.** Adding the block keeps the effective lines that removing it leaves,
and appends one; so the check accepts both or neither, and removing the block from an accepted
stack leaves an accepted one. What an installation has committed is never refused when it is
uninstalled. -/
theorem edit_keeps_stack (content : Text) :
    Config.effectiveLines (Config.addBlock content) =
      Config.effectiveLines (Config.removeBlock content) ++ [Config.snippetLine] ∧
    (Config.validateStack (Config.addBlock content) = .ok () ↔
      Config.validateStack (Config.removeBlock content) = .ok ()) ∧
    (Config.validateStack content = .ok () →
      Config.validateStack (Config.removeBlock content) = .ok ()) ∧
    ∀ debug plan dm s₁ s₂ r h₀ h,
      Returns anyFault (install debug plan dm s₁ s₂).run h₀ (.ok r) h →
      ∀ h₁ dm' s f h₂, h₁.disk.node plan.serviceFile = h.disk.node plan.serviceFile →
        Returns anyFault (uninstall debug plan dm' s).run h₁ (.error f) h₂ → ¬ Refused plan f := by
  refine ⟨Config.effectiveLines_addBlock content, Config.validateStack_addBlock content,
    Config.validateStack_removeBlock, ?_⟩
  intro debug plan dm s₁ s₂ r h₀ h hi h₁ dm' s f h₂ hservice hu
  obtain ⟨x, mode, hc⟩ := committed_of_returns hi
  exact returns_error (uninstall_not_refused hc.checked (hservice.trans hc.service)) hu

/-! ## The round trip -/

theorem nil_notMem_paths (hx : ServiceIs plan mode c h) (hempty : h.disk.node [] = none) :
    ([] : Text) ∉ plan.paths := by
  rintro (heq | heq | heq)
  · rw [ServiceIs, ← heq, hempty] at hx
    cases hx
  · have := getLast?_installedModule plan
    rw [← heq] at this
    cases this
  · have := getLast?_backupFile plan
    rw [← heq] at this
    cases this

/-- The module directory of a successful installation has a name. -/
theorem Committed.moduleDir_ne_nil {content : Text} (hc : Committed plan content mode h₀ h)
    (hempty : h₀.disk.node [] = none) : plan.moduleDir ≠ [] := by
  intro hnil
  have hdir := hc.moduleDir
  rw [hnil, Disk.stat_of_none hempty] at hdir
  cases hdir

/-- What any number of installations leave. -/
theorem installs_committed {n : ℕ} (hx : ServiceIs plan mode c h₀)
    (hempty : h₀.disk.node [] = none) (hs : Installs debug plan n h₀ h) :
    SameBut plan.paths h₀ h ∧
      (n = 0 ∧ ServiceIs plan mode c h ∨
        ServiceIs plan mode (Config.addBlock c) h ∧ plan.moduleDir ≠ []) := by
  induction hs with
  | zero h => exact ⟨SameBut.refl _ h, .inl ⟨rfl, hx⟩⟩
  | succ hs hr ih =>
    obtain ⟨hsame, hservice⟩ := ih hx hempty
    obtain ⟨content, mode', hc⟩ := committed_of_returns hr
    have hdir := hc.moduleDir_ne_nil ((hsame _ (nil_notMem_paths hx hempty)).trans hempty)
    refine ⟨hsame.trans hc.same, .inr ⟨?_, hdir⟩⟩
    have hnext := hc.service
    rcases hservice with ⟨-, hx'⟩ | ⟨hx', -⟩
    · obtain ⟨rfl, rfl⟩ := hc.read _ _ hx'
      exact hnext
    · obtain ⟨rfl, rfl⟩ := hc.read _ _ hx'
      rwa [Config.addBlock_addBlock] at hnext

/-- **The round trip.** From a stack without a block and no module and no backup, installing any
number of times and then uninstalling, each successfully, gives back every file. -/
theorem install_uninstall (hfree : Config.hasBlock c = false) (hend : EndsLine c)
    (hx : ServiceIs plan mode c h₀) (hmodule : h₀.disk.node plan.installedModule = none)
    (hbackup : h₀.disk.node plan.backupFile = none) (hempty : h₀.disk.node [] = none) {n : ℕ}
    (hn : 1 ≤ n) (hs : Installs debug plan n h₀ h) {dm : ℕ} {s : Bytes} {r : UninstallReport}
    (hr : Returns anyFault (uninstall debug plan dm s).run h (.ok r) h') :
    h'.disk.node = h₀.disk.node ∧ ServiceIs plan mode c h' ∧
      h'.disk.node plan.installedModule = none ∧ h'.disk.node plan.backupFile = none := by
  have hne : plan.serviceFile ≠ plan.installedModule := by
    intro heq
    rw [ServiceIs, heq, hmodule] at hx
    cases hx
  obtain ⟨hsame, hservice⟩ := installs_committed hx hempty hs
  obtain ⟨hwired, hdir⟩ := hservice.resolve_left fun hzero => by omega
  obtain ⟨hclean, hgone, hsame'⟩ :=
    returns_ok (uninstall_pending (Config.hasBlock_addBlock c) ⟨hwired, rfl⟩) hr
  have hx' := hclean.1 hne
  rw [Config.removeBlock_addBlock_of_blockFree (Config.hasBlock_eq_false.1 hfree) hend] at hx'
  have hmodule' := hclean.2 hdir
  refine ⟨?_, hx', hmodule', hgone⟩
  funext p
  by_cases hp : p ∈ plan.paths
  · rcases hp with rfl | rfl | rfl
    · exact hx'.trans hx.symm
    · exact hmodule'.trans hmodule.symm
    · exact hgone.trans hbackup.symm
  · exact (hsame' p hp).trans (hsame p hp)

/-! ## Resuming -/

/-- The stack is restored, and the module and the backup are gone. -/
def Uninstalled (plan : InstallPlan) (x : Text) (mode : ℕ) (h : PamHost) : Prop :=
  Clean plan x mode h ∧ h.disk.node plan.backupFile = none

/-- What failed uninstallations leave: they have restored the stack or they have not, and the backup
is still there. -/
theorem failedUninstalls_outcome {x : Text} {backup : Option (Node Text)}
    (hb : Config.hasBlock x = true) (hp : Pending plan x mode backup h₀)
    (hs : FailedUninstalls debug plan h₀ h) :
    Pending plan x mode backup h ∨ Restored plan x mode backup h := by
  induction hs with
  | none => exact .inl hp
  | more _ hr ih =>
    rcases ih with hpending | hrestored
    · exact returns_error (E := fun _ h => Pending plan x mode backup h ∨
        Restored plan x mode backup h) (uninstall_pending hb hpending) hr
    · exact .inr (returns_error (E := fun _ h => Restored plan x mode backup h)
        (uninstall_restored hrestored) hr)

/-- A restored stack is not the stack with the block. -/
theorem Restored.not_serviceIs {x : Text} {backup : Option (Node Text)}
    (hb : Config.hasBlock x = true) (hr : Restored plan x mode backup h) :
    ¬ ServiceIs plan mode x h := by
  intro hx
  rcases hr.1 with hx' | ⟨-, hnone⟩
  · rw [hx.unique hx', hasBlock_removeBlock] at hb
    cases hb
  · rw [ServiceIs, hnone] at hx
    cases hx

/-- **Resuming an uninstallation.** After a successful installation and any uninstallations that have
failed, one that succeeds leaves the stack without the block, and no module. The backup is gone if
the stack still had its block before that call, and otherwise it is what the installation left. -/
theorem resumed_uninstall {dm : ℕ} {s₁ s₂ : Bytes} {r : InstallReport}
    (hempty : h₀.disk.node [] = none)
    (hi : Returns anyFault (install debug plan dm s₁ s₂).run h₀ (.ok r) h) :
    ∃ x mode b m, ServiceIs plan mode (Config.addBlock x) h ∧
      h.disk.node plan.backupFile = some (.file b m) ∧
      ∀ h₁ dm' s r' h', FailedUninstalls debug plan h h₁ →
        Returns anyFault (uninstall debug plan dm' s).run h₁ (.ok r') h' →
        (plan.serviceFile ≠ plan.installedModule →
          ServiceIs plan mode (Config.removeBlock (Config.addBlock x)) h') ∧
        h'.disk.node plan.installedModule = none ∧
        (ServiceIs plan mode (Config.addBlock x) h₁ → h'.disk.node plan.backupFile = none) ∧
        (¬ ServiceIs plan mode (Config.addBlock x) h₁ →
          h'.disk.node plan.backupFile = some (.file b m)) := by
  obtain ⟨x, mode, hc⟩ := committed_of_returns hi
  obtain ⟨b, m, hbacked⟩ := hc.backed
  have hb := Config.hasBlock_addBlock x
  have hdir := hc.moduleDir_ne_nil hempty
  refine ⟨x, mode, b, m, hc.service, hbacked, fun h₁ dm' s r' h' hs hu => ?_⟩
  rcases failedUninstalls_outcome hb ⟨hc.service, hbacked⟩ hs with hpending | hrestored
  · obtain ⟨hclean, hgone, -⟩ := returns_ok (uninstall_pending hb hpending) hu
    exact ⟨hclean.1, hclean.2 hdir, fun _ => hgone, fun hnot => absurd hpending.1 hnot⟩
  · obtain ⟨hclean, hkept⟩ := returns_ok (uninstall_restored hrestored) hu
    exact ⟨hclean.1, hclean.2 hdir, fun hx => absurd hx (hrestored.not_serviceIs hb),
      fun _ => hkept⟩

/-! ## Without faults -/

section Faultless

variable {x : Text} {dm : ℕ} {s : Bytes}

theorem yields_readToString {p : Text} {m : ℕ} :
    Yields anyFault .ok (readToString p (.file (utf8 x) m)) h x h := by
  have hread : eval anyFault .ok (readOpen (.file (utf8 x) m)).run h = (.ok (utf8 x), h) := rfl
  rw [Yields, readToString, ExceptT.run_mk, eval_bind, hread]
  simp only [ofUtf8_utf8]
  rfl

theorem yields_openRegularNofollow {p : Text} {b : Bytes} {m : ℕ}
    (hn : h.disk.node p = some (.file b m)) :
    Yields anyFault .ok (openRegularNofollow p) h (some (.file b m, m)) h := by
  have hopen : eval anyFault .ok (openNoFollow p).run h = (.ok (.file b m), h) := by
    simp [openNoFollow, sys, call, eval, exec, machine, FileOp.exec, PamHost.record, hn]
  rw [Yields, openRegularNofollow, ExceptT.run_mk, eval_bind, hopen]
  rfl

theorem yields_createNew {p : Text} {m : ℕ} (hn : h.disk.node p = none) :
    Yields anyFault .ok (createNew p m) h ()
      { h.put p (some (.file [] m)) with unwritten := p :: h.unwritten } := by
  simp [Yields, createNew, sys, call, eval, exec, machine, FileOp.exec, PamHost.record, PamHost.put,
    hn]

theorem yields_writeAll {p : Text} {b b₀ : Bytes} {m : ℕ} (hn : h.disk.node p = some (.file b₀ m)) :
    Yields anyFault .ok (writeAll p b) h () { h.put p (some (.file (b₀ ++ b) m)) with
      unwritten := h.unwritten.filter (· ≠ p) } := by
  simp [Yields, writeAll, sys, call, eval, exec, machine, FileOp.exec, PamHost.record, PamHost.put,
    hn, Fault.written, Node.isFile]

theorem yields_setPermissions {p : Text} {b : Bytes} {m m₀ : ℕ}
    (hn : h.disk.node p = some (.file b m₀)) :
    Yields anyFault .ok (setPermissions p m) h () (h.put p (some (.file b m))) := by
  simp [Yields, setPermissions, sys, call, eval, exec, machine, FileOp.exec, PamHost.record,
    PamHost.put, hn, Node.chmod]

theorem yields_rename {p q : Text} {n : Node Text} (hn : h.disk.node p = some n)
    (hq : ∀ m, h.disk.node q ≠ some (.dir m)) :
    Yields anyFault .ok (rename p q) h () ((h.put p none).put q (some n)) := by
  cases hq' : h.disk.node q with
  | none =>
    simp [Yields, rename, sys, call, eval, exec, machine, FileOp.exec, PamHost.record, PamHost.put,
      hn, hq']
  | some n' =>
    cases n' with
    | dir m => exact absurd hq' (hq m)
    | file | symlink =>
      simp [Yields, rename, sys, call, eval, exec, machine, FileOp.exec, PamHost.record,
        PamHost.put, hn, hq']

theorem yields_replaceVia {texts : ReplaceTexts} {tmp target : Text} {bytes : Bytes}
    (hne : tmp ≠ target) (htmp : h.disk.node tmp = none)
    (hn : ∀ m, h.disk.node target ≠ some (.dir m)) :
    ∃ h', Yields anyFault .ok (replaceVia texts tmp target bytes mode dm) h () h' := by
  obtain ⟨h₁, hcreate, hn₁, hsame₁⟩ : ∃ h₁, Yields anyFault .ok (createNew tmp dm) h () h₁ ∧
      h₁.disk.node tmp = some (.file [] dm) ∧ SameBut {tmp} h h₁ :=
    ⟨_, yields_createNew htmp, put_node_self .., (SameBut.refl {tmp} h).put rfl _ _⟩
  obtain ⟨h₂, hwrite, hn₂, hsame₂⟩ : ∃ h₂, Yields anyFault .ok (writeAll tmp bytes) h₁ () h₂ ∧
      h₂.disk.node tmp = some (.file bytes dm) ∧ SameBut {tmp} h h₂ :=
    ⟨_, yields_writeAll hn₁, put_node_self .., hsame₁.put rfl _ _⟩
  obtain ⟨h₃, hmode, hn₃, hsame₃⟩ : ∃ h₃, Yields anyFault .ok (setPermissions tmp mode) h₂ () h₃ ∧
      h₃.disk.node tmp = some (.file bytes mode) ∧ SameBut {tmp} h h₃ :=
    ⟨_, yields_setPermissions hn₂, put_node_self .., hsame₂.put rfl _ _⟩
  have hsync : Yields anyFault .ok (bare (syncAll tmp)) h₃ () h₃ := rfl
  have hrename := yields_rename hn₃ fun m => by
    rw [hsame₃ target (by simpa using hne.symm)]
    exact hn m
  have hsyncDir : ∀ h, Yields anyFault .ok (syncParentDir target) h () h := fun _ => rfl
  exact ⟨_, ((hcreate.adapt _).bind ((hwrite.adapt _).bind ((hmode.adapt _).bind
    (hsync.bind ((hrename.adapt _).bind ((hsyncDir _).adapt _)))))).cleanup _ _⟩

theorem yields_atomicWrite {path : Text} (content : Text) (mode dm : ℕ)
    (hparent : hasParent path = true)
    (htmp : h.disk.node (tempPath path s) = none) (hn : ∀ m, h.disk.node path ≠ some (.dir m)) :
    ∃ h', Yields anyFault .ok (atomicWritePreservingMode path content mode s dm) h () h' := by
  have hdraw : Yields anyFault .ok (unpredictableTempPath path s) h (tempPath path s) h := rfl
  obtain ⟨h', hreplace⟩ := yields_replaceVia (tempPath_ne_self path s) htmp hn
  exact ⟨h', (yields_ensure hparent _).bind (hdraw.bind hreplace)⟩

/-- A file, a link or nothing is removed. -/
theorem yields_removeIf (k : Prop) [Decidable k] (what : Text) {p : Text}
    (hn : ∀ m, h.disk.node p ≠ some (.dir m)) :
    ∃ b h', Yields anyFault .ok (removeIf k what p) h b h' := by
  have hrun : ∃ b h', Yields anyFault .ok (removeIfExists p) h b h' := by
    cases hn' : h.disk.node p with
    | none =>
      have hremove : eval anyFault .ok (fsRemoveFile p).run h = (.error .notFound, h) := by
        simp [fsRemoveFile, sys, call, eval, exec, machine, FileOp.exec, PamHost.record, hn']
      refine ⟨false, h, ?_⟩
      rw [Yields, removeIfExists, ExceptT.run_mk, eval_bind, hremove]
      rfl
    | some n =>
      have hremove : eval anyFault .ok (fsRemoveFile p).run h = (.ok (), h.put p none) := by
        cases n with
        | dir m => exact absurd hn' (hn m)
        | file | symlink =>
          simp [fsRemoveFile, sys, call, eval, exec, machine, FileOp.exec, PamHost.record,
            PamHost.put, hn']
      refine ⟨true, h.put p none, ?_⟩
      rw [Yields, removeIfExists, ExceptT.run_mk, eval_bind, hremove]
      rfl
  unfold removeIf
  split
  · obtain ⟨b, h', hb⟩ := hrun
    exact ⟨b, h', hb.adapt _⟩
  · exact ⟨false, h, yields_pure _⟩

/-- What uninstalling needs: a name for the new stack, and no directory where it removes a file. -/
structure Removable (plan : InstallPlan) (s : Bytes) (h : PamHost) : Prop where
  parent : hasParent plan.serviceFile = true
  sibling : h.disk.node (tempPath plan.serviceFile s) = none
  noDir : ∀ p ∈ plan.paths, ∀ m, h.disk.node p ≠ some (.dir m)

theorem returns_of_yields {α : Type} {y : PamIo α} {a : α} (hy : Yields anyFault .ok y h a h') :
    Returns anyFault y.run h (.ok a) h' := by
  have hr := returns_eval (M := anyFault) (c := .ok) (fun _ _ => trivial) y.run h
  rwa [show eval anyFault .ok y.run h = _ from hy] at hr

/-- Restoring a stack with the block. -/
theorem yields_unwire (debug : Text → Text) (mode dm : ℕ) (hrem : Removable plan s h)
    (hb : Config.hasBlock x = true)
    (hv : Config.validateStack x = .ok ()) :
    ∃ h', Yields anyFault .ok (unwire debug plan dm s (some (.file (utf8 x) mode, mode))) h true
        h' ∧ ServiceIs plan mode (Config.removeBlock x) h' ∧ SameBut {plan.serviceFile} h h' := by
  obtain ⟨h', hwrite⟩ := yields_atomicWrite (Config.removeBlock x) mode dm hrem.parent
    hrem.sibling (hrem.noDir _ (by simp [InstallPlan.paths]))
  have hdone := returns_ok (Q := fun _ h' => ServiceIs plan mode (Config.removeBlock x) h' ∧
    SameBut {plan.serviceFile} h h') atomicWrite_outcome (returns_of_yields hwrite)
  refine ⟨h', yields_readToString.bind ?_, hdone⟩
  rw [hb]
  have hvalid : ∀ what,
      Yields anyFault .ok (validated debug what (Config.removeBlock x)) h () h := by
    intro what
    rw [validated, Config.validateStack_removeBlock hv]
    exact yields_pure _
  exact (hvalid _).bind ((hwrite.adapt _).bind (yields_pure _))

theorem yields_removals (hn : ∀ p ∈ plan.paths, ∀ m, h.disk.node p ≠ some (.dir m))
    (removedBlock : Bool) :
    ∃ r h', Yields anyFault .ok
      (do
        let removedModule ← removeIf (plan.moduleDir ≠ []) "remove installed module ".toList
          plan.installedModule
        let removedBackup ← removeIf (removedBlock = true) "remove backup ".toList plan.backupFile
        pure
          ({ serviceFile := plan.serviceFile, removedBlock, removedModule, removedBackup } :
            UninstallReport)) h r h' := by
  obtain ⟨b₁, h₁, hr₁⟩ := yields_removeIf (plan.moduleDir ≠ []) "remove installed module ".toList
    (hn plan.installedModule (by simp [InstallPlan.paths]))
  have hsame : SameBut {plan.installedModule} h h₁ :=
    (returns_ok removeIf_outcome (returns_of_yields hr₁)).1
  obtain ⟨b₂, h₂, hr₂⟩ := yields_removeIf (removedBlock = true) "remove backup ".toList
    (h := h₁) (p := plan.backupFile) fun m => by
      rw [hsame _ (by simpa using backupFile_ne_installedModule plan)]
      exact hn plan.backupFile (by simp [InstallPlan.paths]) m
  exact ⟨_, h₂, hr₁.bind (hr₂.bind (yields_pure _))⟩

/-- Nothing is a directory after the stack is restored. -/
theorem Removable.restored (hrem : Removable plan s h) {y : Text}
    (hx : ServiceIs plan mode y h') (hsame : SameBut {plan.serviceFile} h h') :
    ∀ p ∈ plan.paths, ∀ m, h'.disk.node p ≠ some (.dir m) := by
  intro p hp m
  by_cases heq : p = plan.serviceFile
  · rw [heq, hx]
    simp
  · rw [hsame p heq]
    exact hrem.noDir p hp m

/-- After a successful installation nothing is a directory. -/
theorem Committed.noDir {content : Text} (hc : Committed plan content mode h₀ h) :
    ∀ p ∈ plan.paths, ∀ m, h.disk.node p ≠ some (.dir m) := by
  rintro p (rfl | rfl | rfl) m
  · rw [hc.service]
    simp
  · obtain ⟨b, m', hn⟩ := hc.present
    simp [hn]
  · obtain ⟨b, m', hn⟩ := hc.backed
    simp [hn]

/-- **Progress**: without faults, uninstalling a checked stack with the block succeeds. -/
theorem uninstall_succeeds (debug : Text → Text) (dm : ℕ) (hrem : Removable plan s h)
    (hb : Config.hasBlock x = true) (hv : Config.validateStack x = .ok ())
    (hx : ServiceIs plan mode x h) :
    ∃ r h', Returns anyFault (uninstall debug plan dm s).run h (.ok r) h' := by
  obtain ⟨h₁, hunwire, hx₁, hsame⟩ := yields_unwire debug mode dm hrem hb hv
  obtain ⟨r, h₂, hremovals⟩ := yields_removals (hrem.restored hx₁ hsame) true
  exact ⟨r, h₂, returns_of_yields ((yields_openRegularNofollow hx).bind (hunwire.bind hremovals))⟩

/-- Without faults, uninstalling a stack without the block succeeds. -/
theorem uninstall_free_succeeds (debug : Text → Text) (dm : ℕ)
    (hn : ∀ p ∈ plan.paths, ∀ m, h.disk.node p ≠ some (.dir m))
    (hb : Config.hasBlock x = false) (hx : ServiceIs plan mode x h) :
    ∃ r h', Returns anyFault (uninstall debug plan dm s).run h (.ok r) h' := by
  obtain ⟨r, h', hremovals⟩ := yields_removals hn false
  have hunwire : Yields anyFault .ok
      (unwire debug plan dm s (some (.file (utf8 x) mode, mode))) h false h := by
    refine yields_readToString.bind ?_
    rw [hb]
    exact yields_pure _
  exact ⟨r, h', returns_of_yields ((yields_openRegularNofollow hx).bind (hunwire.bind hremovals))⟩

/-- An uninstallation may restore the stack and fail to remove the module. -/
theorem uninstall_fails (debug : Text → Text) (dm : ℕ) (hrem : Removable plan s h)
    (hdir : plan.moduleDir ≠ []) (hb : Config.hasBlock x = true)
    (hv : Config.validateStack x = .ok ()) (hx : ServiceIs plan mode x h) :
    ∃ f h', Returns anyFault (uninstall debug plan dm s).run h (.error f) h' ∧
      ServiceIs plan mode (Config.removeBlock x) h' ∧ SameBut {plan.serviceFile} h h' := by
  obtain ⟨h₁, hunwire, hx₁, hsame⟩ := yields_unwire debug mode dm hrem hb hv
  have hfail : ∃ f, Returns anyFault (removeIf (plan.moduleDir ≠ []) "remove installed module ".toList
      plan.installedModule).run h₁ (.error f) h₁ := by
    rw [removeIf, if_pos hdir]
    exact ⟨_, .step (c := .fail) trivial (.refl _ _)⟩
  obtain ⟨f, hf⟩ := hfail
  exact ⟨f, h₁, Returns.bind_ok (returns_of_yields (yields_openRegularNofollow hx))
    (Returns.bind_ok (returns_of_yields hunwire) (Returns.bind_error _ hf)), hx₁, hsame⟩

end Faultless

/-! ## A host to run the calls on -/

/-- The sample host after an installation. -/
def wiredHost : PamHost :=
  (eval anyFault .ok (install id samplePlan 0o644 [1] [2]).run sampleHost).2

theorem returns_wiredHost :
    ∃ r, Returns anyFault (install id samplePlan 0o644 [1] [2]).run sampleHost (.ok r)
      wiredHost := by
  have hok : (eval anyFault .ok (install id samplePlan 0o644 [1] [2]).run
      sampleHost).1.toOption.isSome = true := by decide +kernel
  have hr := returns_eval (M := anyFault) (c := .ok) (fun _ _ => trivial)
    (install id samplePlan 0o644 [1] [2]).run sampleHost
  cases hx : (eval anyFault .ok (install id samplePlan 0o644 [1] [2]).run sampleHost).1 with
  | ok r => exact ⟨r, hx ▸ hr⟩
  | error e =>
    rw [hx] at hok
    cases hok

theorem committed_wiredHost : Committed samplePlan sampleStack 0o644 sampleHost wiredHost := by
  obtain ⟨r, hr⟩ := returns_wiredHost
  obtain ⟨content, mode, hc⟩ := committed_of_returns hr
  obtain ⟨rfl, rfl⟩ := hc.read _ _ sample_fresh.service
  exact hc

theorem removable_wiredHost : Removable samplePlan [3] wiredHost where
  parent := by decide +kernel
  sibling := by
    rw [committed_wiredHost.same]
    · decide +kernel
    · have hne : tempPath samplePlan.serviceFile [3] ∉ [samplePlan.serviceFile,
          samplePlan.installedModule, samplePlan.backupFile] := by decide +kernel
      simpa [InstallPlan.paths] using hne
  noDir := committed_wiredHost.noDir

theorem install_uninstall_sample : ∃ h', h'.disk.node = sampleHost.disk.node ∧
    ServiceIs samplePlan 0o644 sampleStack h' ∧ h'.disk.node samplePlan.installedModule = none ∧
    h'.disk.node samplePlan.backupFile = none := by
  obtain ⟨r, hi⟩ := returns_wiredHost
  have hc := committed_wiredHost
  obtain ⟨r', h', hu⟩ := uninstall_succeeds id 0o644 removable_wiredHost
    (Config.hasBlock_addBlock _) hc.checked hc.service
  exact ⟨h', install_uninstall sample_free.1 sample_free.2 sample_fresh.service
    sample_fresh.noModule sample_fresh.noBackup (by decide +kernel) le_rfl (.succ (.zero _) hi) hu⟩

/-- An uninstallation that could not remove the module, and one that can. -/
theorem halfUninstalled : ∃ h₁ h' r', FailedUninstalls id samplePlan wiredHost h₁ ∧
    Returns anyFault (uninstall id samplePlan 0o644 [3]).run h₁ (.ok r') h' ∧
    Restored samplePlan (Config.addBlock sampleStack) 0o644
      (wiredHost.disk.node samplePlan.backupFile) h₁ := by
  have hc := committed_wiredHost
  have hrem := removable_wiredHost
  obtain ⟨f, h₁, hu, hx₁, hsame⟩ := uninstall_fails id 0o644 hrem (by decide)
    (Config.hasBlock_addBlock _) hc.checked hc.service
  obtain ⟨r', h', hu'⟩ := uninstall_free_succeeds (s := [3]) id 0o644
    (hrem.restored hx₁ hsame) (hasBlock_removeBlock _) hx₁
  exact ⟨h₁, h', r', .more (.none _) hu, hu', .inl hx₁,
    hsame _ (by simpa using backupFile_ne_serviceFile samplePlan)⟩

/-- The backup is left behind. -/
theorem not_uninstalled_resumed : ¬ ∀ debug plan dm s₁ s₂ r h₀ h,
    Returns anyFault (install debug plan dm s₁ s₂).run h₀ (.ok r) h →
    ∀ h₁ dm' s r' h', FailedUninstalls debug plan h h₁ →
      Returns anyFault (uninstall debug plan dm' s).run h₁ (.ok r') h' →
      ∀ x mode, ServiceIs plan mode x h → Uninstalled plan x mode h' := by
  intro hall
  obtain ⟨r, hi⟩ := returns_wiredHost
  obtain ⟨h₁, h', r', hf, hu, hrestored⟩ := halfUninstalled
  have hgone := (hall _ _ _ _ _ _ _ _ hi _ _ _ _ _ hf hu _ _ committed_wiredHost.service).2
  have hkept := (returns_ok (Q := fun _ h' => Clean samplePlan (Config.addBlock sampleStack) 0o644 h' ∧
    h'.disk.node samplePlan.backupFile = wiredHost.disk.node samplePlan.backupFile)
    (uninstall_restored hrestored) hu).2
  obtain ⟨b, m, hb⟩ := committed_wiredHost.backed
  rw [hgone, hb] at hkept
  cases hkept

/-- There the module is removed, and the backup is not. -/
theorem resumed_uninstall_sample : ∃ (h₁ h' : PamHost) (b : Bytes) (m : ℕ),
    FailedUninstalls id samplePlan wiredHost h₁ ∧
    h'.disk.node samplePlan.installedModule = none ∧
    h'.disk.node samplePlan.backupFile = some (.file b m) := by
  obtain ⟨r, hi⟩ := returns_wiredHost
  obtain ⟨h₁, h', r', hf, hu, hrestored⟩ := halfUninstalled
  obtain ⟨x, mode, b, m, hx, -, hall⟩ := resumed_uninstall (by decide +kernel) hi
  obtain ⟨-, hmodule, -, hkept⟩ := hall _ _ _ _ _ hf hu
  obtain rfl : mode = 0o644 := by
    have hw := hx.symm.trans committed_wiredHost.service
    simpa using (Node.file.inj (Option.some.inj hw)).2
  rw [hx.unique committed_wiredHost.service] at hkept
  exact ⟨h₁, h', b, m, hf, hmodule, hkept (hrestored.not_serviceIs (Config.hasBlock_addBlock _))⟩

end Install

end Tess

import Tess.Install.Blocks
import Tess.Install.Writers

/-!
# A wired stack has its module and its backup

Sessions of installations and uninstallations over one plan, with any faults and any stops, from a
stack `c` without a block. The service file is always the whole of `c`, of `c` with its last line
ended, or of `addBlock c`, with the permissions it had; when it is the last, the whole module is in
place (`wired_session`).

The same induction serves for the backup, which is written in place, and of whatever the stack is
then. What may be said of it depends on the backups that later installations meet with, so that is a
parameter of the invariant: `Regime` says which bytes a backup may hold, and when one has been begun
that may hold others.
-/

namespace Tess

open Files Effects Text

namespace Install

/-! ## Sessions -/

/-- The calls, with the permissions that new files get and the random suffixes. -/
inductive InstallCall where
  | install (defaultMode : ℕ) (moduleSuffix stackSuffix : Bytes)
  | uninstall (defaultMode : ℕ) (stackSuffix : Bytes)

inductive InstallReply where
  | install (r : Except Failure InstallReport)
  | uninstall (r : Except Failure UninstallReport)

variable (debug : Text → Text) (plan : InstallPlan)

def InstallCall.prog : InstallCall → Prog PamOp.Res InstallReply
  | install defaultMode moduleSuffix stackSuffix =>
    InstallReply.install <$> (Install.install debug plan defaultMode moduleSuffix stackSuffix).run
  | uninstall defaultMode stackSuffix =>
    InstallReply.uninstall <$> (Install.uninstall debug plan defaultMode stackSuffix).run

/-- The random name of the new module is not by chance that of the service file. -/
def InstallCall.Distinct : InstallCall → Prop
  | install _ moduleSuffix _ => tempPath plan.installedModule moduleSuffix ≠ plan.serviceFile
  | uninstall _ _ => True

/-- The calls of an administrator, each of which may be stopped where `mayStop` allows it. -/
def installService (mayStop : PamHost → Prop) :
    Service PamOp.Res PamHost InstallReply InstallCall where
  prog := InstallCall.prog debug plan
  allowed _ _ k := k.Distinct plan
  mayStop := mayStop

/-! ## The invariant -/

/-- The service file is a regular file with this content and these permissions. -/
def ServiceIs (mode : ℕ) (content : Text) (h : PamHost) : Prop :=
  h.disk.node plan.serviceFile = some (.file (utf8 content) mode)

/-- The installed module is the whole of what the module source was read as. -/
def ModulePresent (h : PamHost) : Prop :=
  ∃ b, (plan.moduleSrc, b) ∈ h.reads ∧ h.disk.node plan.installedModule = some (.file b 0o644)

/-- What may be in a backup, and which unwritten files mean that one has been begun. -/
structure Regime (plan : InstallPlan) (c : Text) where
  trusted : Bytes → Prop
  draft : List Text → Prop
  original : trusted (utf8 c)
  begun : ∀ b b' us, trusted b → b' <+: b → plan.backupFile ∈ us → trusted b' ∨ draft us

variable {plan} {c : Text} {mode : ℕ} (R : Regime plan c)

/-- The backup is a regular file that may be trusted. -/
def Backed (h : PamHost) : Prop :=
  ∃ b m, h.disk.node plan.backupFile = some (.file b m) ∧ R.trusted b

/-- The service file holds the stack. What an uninstallation puts there ends a line. -/
def Plain (plan : InstallPlan) (c : Text) (mode : ℕ) (h : PamHost) : Prop :=
  ServiceIs plan mode c h ∨ ServiceIs plan mode (Config.terminate c) h

def Unwired (mode : ℕ) (h : PamHost) : Prop :=
  Plain plan c mode h ∧ (h.disk.node plan.backupFile = none ∨ Backed R h)

def Wired (mode : ℕ) (h : PamHost) : Prop :=
  ServiceIs plan mode (Config.addBlock c) h ∧ ModulePresent plan h ∧ Backed R h

/-- A backup has been begun, and the stack is as it was. -/
def Drafted (mode : ℕ) (h : PamHost) : Prop := Plain plan c mode h ∧ R.draft h.unwritten

/-- Any backup may be trusted. -/
def Settled (mode : ℕ) (h : PamHost) : Prop := Unwired R mode h ∨ Wired R mode h

/-- What holds throughout. -/
def Safe (mode : ℕ) (h : PamHost) : Prop := Settled R mode h ∨ Drafted R mode h

/-- The stack `x` may become a backup, if there is none. -/
def Original (x : Text) (h : PamHost) : Prop :=
  h.disk.node plan.backupFile = none → R.trusted (utf8 x)

/-- An installation has found the stack `x`. -/
def Found (mode : ℕ) (x : Text) (h : PamHost) : Prop :=
  Settled R mode h ∧ ServiceIs plan mode x h ∧ Original R x h

/-! ## What the assertions look at -/

section Blind

variable {R} {p : Text}

theorem ServiceIs.blind {x : Text} (hp : p ≠ plan.serviceFile) :
    Blind (ServiceIs plan mode x) p := by
  intro h n us hh
  simpa [ServiceIs, PamHost.put, Disk.set_node_of_ne _ _ hp.symm] using hh

theorem ModulePresent.blind (hp : p ≠ plan.installedModule) : Blind (ModulePresent plan) p := by
  rintro h n us ⟨b, hb, hn⟩
  exact ⟨b, hb, by simpa [PamHost.put, Disk.set_node_of_ne _ _ hp.symm] using hn⟩

theorem Backed.blind (hp : p ≠ plan.backupFile) : Blind (Backed R) p := by
  rintro h n us ⟨b, m, hn, hb⟩
  exact ⟨b, m, by simpa [PamHost.put, Disk.set_node_of_ne _ _ hp.symm] using hn, hb⟩

theorem Plain.blind (hp : p ≠ plan.serviceFile) : Blind (Plain plan c mode) p :=
  fun h n us => Or.imp (ServiceIs.blind hp h n us) (ServiceIs.blind hp h n us)

theorem Unwired.blind (hs : p ≠ plan.serviceFile) (hb : p ≠ plan.backupFile) :
    Blind (Unwired R mode) p := by
  rintro h n us ⟨hx, hback⟩
  refine ⟨Plain.blind hs h n us hx, hback.imp (fun hn => ?_) (Backed.blind hb h n us)⟩
  simpa [PamHost.put, Disk.set_node_of_ne _ _ hb.symm] using hn

theorem Original.blind {x : Text} (hb : p ≠ plan.backupFile) : Blind (Original R x) p := by
  intro h n us ho hn
  exact ho (by simpa [PamHost.put, Disk.set_node_of_ne _ _ hb.symm] using hn)

theorem Blind.and {I J : PamHost → Prop} (hI : Blind I p) (hJ : Blind J p) :
    Blind (fun h => I h ∧ J h) p := fun h n us hh => ⟨hI h n us hh.1, hJ h n us hh.2⟩

theorem Blind.or {I J : PamHost → Prop} (hI : Blind I p) (hJ : Blind J p) :
    Blind (fun h => I h ∨ J h) p := fun h n us hh => hh.imp (hI h n us) (hJ h n us)

theorem Wired.blind (hs : p ≠ plan.serviceFile) (hi : p ≠ plan.installedModule)
    (hb : p ≠ plan.backupFile) : Blind (Wired R mode) p :=
  (ServiceIs.blind hs).and ((ModulePresent.blind hi).and (Backed.blind hb))

end Blind

/-! ## What the calls do -/

section Calls

variable {R} {debug} {h : PamHost} {x : Text} {dm : ℕ}

theorem Settled.blind {p : Text} (hs : p ≠ plan.serviceFile) (hi : p ≠ plan.installedModule)
    (hb : p ≠ plan.backupFile) : Blind (Settled R mode) p :=
  (Unwired.blind hs hb).or (Wired.blind hs hi hb)

theorem Found.blind {p : Text} (hs : p ≠ plan.serviceFile) (hi : p ≠ plan.installedModule)
    (hb : p ≠ plan.backupFile) : Blind (Found R mode x) p :=
  (Settled.blind hs hi hb).and ((ServiceIs.blind hs).and (Original.blind hb))

theorem Found.safe (hh : Found R mode x h) : Safe R mode h := .inl hh.1

/-- The stack, whether or not its last line is ended, has no block, and gets the same one. -/
theorem Plain.content (hfree : Config.hasBlock c = false) (hh : Plain plan c mode h) :
    ∃ x, ServiceIs plan mode x h ∧ Config.hasBlock x = false ∧
      Config.addBlock x = Config.addBlock c := by
  have hblock := Config.hasBlock_eq_false.1 hfree
  rcases hh with hx | hx
  · exact ⟨c, hx, hfree, rfl⟩
  · refine ⟨_, hx, Config.hasBlock_eq_false.2 (Config.blockFree_terminate.2 hblock), ?_⟩
    rw [Config.addBlock_eq, Config.addBlock_eq, Config.removeBlock_of_blockFree hblock,
      Config.removeBlock_of_blockFree (Config.blockFree_terminate.2 hblock),
      Config.terminate_of_endsLine (Config.endsLine_terminate c)]

/-- The service file holds one of the contents. -/
theorem Settled.content (hfree : Config.hasBlock c = false) (hh : Settled R mode h) :
    ∃ x, ServiceIs plan mode x h ∧ Config.addBlock x = Config.addBlock c := by
  rcases hh with hu | hw
  · obtain ⟨x, hx, -, hadd⟩ := hu.1.content hfree
    exact ⟨x, hx, hadd⟩
  · exact ⟨_, hw.1, Config.addBlock_addBlock c⟩

theorem ServiceIs.unique {y : Text} (hx : ServiceIs plan mode x h) (hy : ServiceIs plan mode y h) :
    x = y := by
  rw [ServiceIs, hy] at hx
  simp only [Option.some.injEq, Node.file.injEq, and_true] at hx
  exact (utf8_injective hx).symm

/-- What is put at the path of the module is the whole module. -/
theorem found_installed {b : Bytes} (hne : plan.serviceFile ≠ plan.installedModule)
    (hb : (plan.moduleSrc, b) ∈ h.reads) (hh : Found R mode x h) :
    Found R mode x (h.put plan.installedModule (some (.file b 0o644))) ∧
      ModulePresent plan (h.put plan.installedModule (some (.file b 0o644))) := by
  have hback := (backupFile_ne_installedModule plan).symm
  have hpresent : ModulePresent plan (h.put plan.installedModule (some (.file b 0o644))) :=
    ⟨b, hb, put_node_self ..⟩
  obtain ⟨hsettled, hx, ho⟩ := hh
  refine ⟨⟨?_, (ServiceIs.blind hne.symm).put hx _, (Original.blind hback).put ho _⟩, hpresent⟩
  rcases hsettled with hu | ⟨hx, -, hbk⟩
  · exact .inl ((Unwired.blind hne.symm hback).put hu _)
  · exact .inr ⟨(ServiceIs.blind hne.symm).put hx _, hpresent, (Backed.blind hback).put hbk _⟩

/-- Copying the module. -/
theorem installModule_spec {suffix : Bytes} (hne : plan.serviceFile ≠ plan.installedModule)
    (htmp : tempPath plan.installedModule suffix ≠ plan.serviceFile) (hh : Found R mode x h) :
    wpe (machine fun _ _ _ => True) Eq (fun _ => Safe R mode) (installModule plan suffix dm)
      (fun _ h' => Found R mode x h' ∧ ModulePresent plan h') (fun _ => Safe R mode) h := by
  have hlook : ∀ o : PamOp, (∀ f, (exec o f h).2 = h) → wp (machine fun _ _ _ => True) Eq
      (fun _ => Safe R mode) (call o) (fun _ h' => h' = h) h :=
    fun o ho => wp_same ho hh.safe fun _ _ => rfl
  refine wpe_seq (P :=
    fun _ h' => h' = h) ((wpe_lift ..).2 (hlook _ fun f => by cases f <;> rfl)) ?_
  rintro there h rfl
  refine (wpe_bind ..).2 ((wpe_ensure ..).2 ⟨fun _ => ?_, fun _ => hh.safe⟩)
  refine wpe_seq (P :=
    fun _ h' => h' = h) ((wpe_lift ..).2 (hlook _ fun f => by cases f <;> rfl)) ?_
  rintro dir h rfl
  refine (wpe_bind ..).2 ((wpe_ensure ..).2 ⟨fun _ => ?_, fun _ => hh.safe⟩)
  refine wpe_step (P := fun _ h' => h' = h)
    (refuseSymlink_spec hh.safe) (fun _ _ he => he ▸ hh.safe) ?_
  rintro - h rfl
  -- What is read is recorded, and nothing on the disk changes.
  refine wpe_seq (P := fun b h' => Found R mode x h' ∧ (plan.moduleSrc, b) ∈ h'.reads)
    ((wpe_adapt ..).2 (read_spec (fun b => ?_) fun _ => ⟨hh.safe, hh.safe⟩)) ?_
  · have hread : Found R mode x { h with reads := (plan.moduleSrc, b) :: h.reads } :=
      ⟨hh.1.imp id fun hw => ⟨hw.1, hw.2.1.imp fun _ hb => ⟨List.mem_cons_of_mem _ hb.1, hb.2⟩,
        hw.2.2⟩, hh.2⟩
    exact ⟨hread.safe, hread, List.mem_cons_self⟩
  rintro b h ⟨hh, hb⟩
  refine wpe_step (P := fun tmp h' => h' = h ∧ tmp = tempPath plan.installedModule suffix)
    (unpredictableTempPath_spec hh.safe) (fun _ _ he => he ▸ hh.safe) ?_
  rintro _ h ⟨rfl, rfl⟩
  have hi := tempPath_ne_installedModule plan plan.installedModule suffix
  have hbk := tempPath_ne_backupFile plan plan.installedModule suffix
  have hblind : Blind (Found R mode x) (tempPath plan.installedModule suffix) :=
    Found.blind htmp hi hbk
  refine wpe_guar (replaceVia_spec (I := fun h => Found R mode x h ∧ (plan.moduleSrc, b) ∈ h.reads)
    (J := fun h => Found R mode x h ∧ ModulePresent plan h)
    (hblind.and fun _ _ _ hb => hb) (hblind.and (ModulePresent.blind hi)) ?_ ⟨hh, hb⟩)
    (fun _ _ hij => hij.elim (·.1.safe) (·.1.safe)) (fun _ _ => id)
    fun _ _ hij => hij.elim (·.1.safe) (·.1.safe)
  rintro h ⟨hh, hb⟩
  exact found_installed hne hb hh

/-- A trusted backup of the stack, with the module in place. -/
theorem backed_put {b : Bytes} (m : ℕ) (us : List Text) (hp : Plain plan c mode h)
    (hx : ServiceIs plan mode x h) (hm : ModulePresent plan h) (hb : R.trusted b) :
    let h' := { h.put plan.backupFile (some (.file b m)) with unwritten := us }
    Found R mode x h' ∧ ModulePresent plan h' ∧ Backed R h' := by
  have hne := backupFile_ne_serviceFile plan
  have hback : Backed R { h.put plan.backupFile (some (.file b m)) with unwritten := us } :=
    ⟨b, m, put_node_self .., hb⟩
  refine ⟨⟨.inl ⟨Plain.blind hne h _ us hp, .inr hback⟩, ServiceIs.blind hne h _ us hx, ?_⟩,
    ModulePresent.blind (backupFile_ne_installedModule plan) h _ us hm, hback⟩
  intro hn
  rw [put_node_self] at hn
  cases hn

/-- Where the backup is unwritten it holds the beginning of what it was to be, and it is trusted or
known to be a draft. -/
theorem safe_begun {b b' : Bytes} (m : ℕ) {us : List Text} (hp : Plain plan c mode h)
    (hb : R.trusted b) (hpre : b' <+: b) (hus : plan.backupFile ∈ us) :
    Safe R mode { h.put plan.backupFile (some (.file b' m)) with unwritten := us } := by
  have hp' := Plain.blind (backupFile_ne_serviceFile plan) h (some (.file b' m)) us hp
  rcases R.begun b b' us hb hpre hus with ht | hd
  · exact .inl (.inl ⟨hp', .inr ⟨b', m, put_node_self .., ht⟩⟩)
  · exact .inr ⟨hp', hd⟩

theorem Fault.written_prefix (f : Fault) (b : Bytes) : f.written b <+: b := by
  cases f with
  | ok => exact List.prefix_rfl
  | cut n => exact List.take_prefix n b
  | fail | late => exact List.nil_prefix

/-- Writing the backup. -/
theorem createBackup_spec (hp : Plain plan c mode h) (hx : ServiceIs plan mode x h)
    (hm : ModulePresent plan h) (hnone : h.disk.node plan.backupFile = none)
    (ho : R.trusted (utf8 x)) :
    wpe (machine fun _ _ _ => True) Eq (fun _ => Safe R mode) (createBackup plan x mode dm)
      (fun _ h' => Found R mode x h' ∧ ModulePresent plan h' ∧ Backed R h')
      (fun _ => Safe R mode) h := by
  have hne := backupFile_ne_serviceFile plan
  have hold : Safe R mode h := .inl (.inl ⟨hp, .inl hnone⟩)
  refine wpe_seq (P := fun _ h' => (Plain plan c mode h' ∧ ServiceIs plan mode x h' ∧
    ModulePresent plan h') ∧ h'.disk.node plan.backupFile = some (.file [] dm) ∧
      plan.backupFile ∈ h'.unwritten) ((wpe_adapt ..).2
      (createNew_spec (fun _ => ⟨safe_begun dm hp ho List.nil_prefix List.mem_cons_self,
        ⟨Plain.blind hne _ _ _ hp, ServiceIs.blind hne _ _ _ hx, ModulePresent.blind
          (backupFile_ne_installedModule plan) _ _ _ hm⟩, put_node_self .., List.mem_cons_self⟩)
        fun _ => ⟨hold, hold⟩)) ?_
  rintro - h ⟨⟨hp, hx, hm⟩, hn, hus⟩
  refine wpe_seq (P := fun _ h' => (Plain plan c mode h' ∧ ServiceIs plan mode x h' ∧
    ModulePresent plan h') ∧ h'.disk.node plan.backupFile = some (.file (utf8 x) dm))
      ((wpe_adapt ..).2 (writeAll_spec hn ?_ fun f us _ hus' => ?_)) ?_
  · have hput := backed_put dm (h.unwritten.filter (· ≠ plan.backupFile)) hp hx hm ho
    exact ⟨hput.1.safe, ⟨Plain.blind hne _ _ _ hp, hput.1.2.1, hput.2.1⟩, put_node_self ..⟩
  · -- What a write that fails leaves is the whole stack, or is known to be unwritten.
    have hput : Safe R mode { h.put plan.backupFile
        (some (.file ([] ++ f.written (utf8 x)) dm)) with unwritten := us } := by
      rcases hus' with hw | rfl
      · rw [hw]
        exact (backed_put dm us hp hx hm ho).1.safe
      · exact safe_begun dm hp ho (Fault.written_prefix f _) hus
    exact ⟨hput, hput⟩
  rintro - h ⟨⟨hp, hx, hm⟩, hn⟩
  have hnow (h : PamHost) (m : ℕ) (hp : Plain plan c mode h) (hx : ServiceIs plan mode x h)
      (hm : ModulePresent plan h) (hn : h.disk.node plan.backupFile = some (.file (utf8 x) m)) :
      Found R mode x h ∧ ModulePresent plan h ∧ Backed R h := by
    have hback : Backed R h := ⟨_, m, hn, ho⟩
    exact ⟨⟨.inl ⟨hp, .inr hback⟩, hx, fun _ => ho⟩, hm, hback⟩
  have hold := (hnow h dm hp hx hm hn).1.safe
  refine wpe_seq (P := fun _ h' => Found R mode x h' ∧ ModulePresent plan h' ∧ Backed R h')
    ((wpe_adapt ..).2 (setPermissions_spec hn ?_ fun _ => ⟨hold, hold⟩)) ?_
  · have hput := backed_put mode h.unwritten hp hx hm ho
    exact ⟨hput.1.safe, hput⟩
  intro _ h hh
  refine wpe_seq (P := fun _ h' => Found R mode x h' ∧ ModulePresent plan h' ∧ Backed R h')
    ((wpe_adapt ..).2 (syncAll_spec ⟨hh.1.safe, hh⟩ fun _ => ⟨hh.1.safe, hh.1.safe⟩)) ?_
  intro _ h hh
  exact (wpe_adapt ..).2
    (syncParentDir_spec ⟨hh.1.safe, hh⟩ fun _ => ⟨hh.1.safe, hh.1.safe⟩)

/-- After `ensureBackup` there is a backup to trust. -/
theorem ensureBackup_spec (hh : Found R mode x h) (hm : ModulePresent plan h) :
    wpe (machine fun _ _ _ => True) Eq (fun _ => Safe R mode) (ensureBackup plan x mode dm)
      (fun _ h' => Found R mode x h' ∧ ModulePresent plan h' ∧ Backed R h')
      (fun _ => Safe R mode) h := by
  refine wpe_look (symlinkMetadata_spec hh.safe) ?_ ?_
  · rintro n h ⟨rfl, hn⟩
    cases n with
    | file b m =>
      refine ⟨hh, hm, ?_⟩
      rcases hh.1 with ⟨-, hnone | hback⟩ | ⟨-, -, hback⟩
      · rw [hnone] at hn
        cases hn
      · exact hback
      · exact hback
    | dir m => exact hh.safe
    | symlink q => exact hh.safe
  · rintro e h ⟨rfl, hn⟩
    cases e with
    | notFound =>
      have hnone := hn rfl
      obtain ⟨⟨hp, -⟩ | ⟨-, -, b, m, hback, -⟩, hx, ho⟩ := hh
      · exact createBackup_spec hp hx hm hnone (ho hnone)
      · rw [hnone] at hback
        cases hback
    | alreadyExists | loop | other => exact hh.safe

/-- Writing the stack over the service file: it goes from one whole content to the other. -/
theorem atomicWrite_spec {y : Text} {suffix : Bytes} {J : PamHost → Prop}
    (hJ : Blind J (tempPath plan.serviceFile suffix))
    (hrename : ∀ h, Settled R mode h → ModulePresent plan h → Backed R h →
      J (h.put plan.serviceFile (some (.file (utf8 y) mode))))
    (hsettled : ∀ h, J h → Settled R mode h) (hh : Settled R mode h) (hm : ModulePresent plan h)
    (hback : Backed R h) :
    wpe (machine fun _ _ _ => True) Eq (fun _ => Safe R mode)
      (atomicWritePreservingMode plan.serviceFile y mode suffix dm) (fun _ => J)
      (fun _ => Safe R mode) h := by
  refine (wpe_bind ..).2 ((wpe_ensure ..).2 ⟨fun _ => ?_, fun _ => .inl hh⟩)
  refine wpe_step (P := fun tmp h' => h' = h ∧ tmp = tempPath plan.serviceFile suffix)
    (unpredictableTempPath_spec (.inl hh)) (fun _ _ he => he ▸ .inl hh) ?_
  rintro _ h ⟨rfl, rfl⟩
  have hs := tempPath_ne_self plan.serviceFile suffix
  have hi := tempPath_ne_installedModule plan plan.serviceFile suffix
  have hbk := tempPath_ne_backupFile plan plan.serviceFile suffix
  refine wpe_guar (replaceVia_spec (I := fun h => Settled R mode h ∧ ModulePresent plan h ∧
      Backed R h) (J := J) ((Settled.blind hs hi hbk).and ((ModulePresent.blind hi).and
        (Backed.blind hbk))) hJ ?_ ⟨hh, hm, hback⟩)
    (fun _ _ hij => .inl (hij.elim (·.1) (hsettled _))) (fun _ _ => id)
    fun _ _ hij => .inl (hij.elim (·.1) (hsettled _))
  intro h ⟨hh, hm, hback⟩
  exact hrename h hh hm hback

/-- **Installing** keeps the invariant, when the stack that it finds may become a backup. -/
theorem install_spec {s₁ s₂ : Bytes} (hne : plan.serviceFile ≠ plan.installedModule)
    (hfree : Config.hasBlock c = false)
    (htmp : tempPath plan.installedModule s₁ ≠ plan.serviceFile) (hh : Settled R mode h)
    (ho : ∀ x, ServiceIs plan mode x h → Original R x h) :
    wpe (machine fun _ _ _ => True) Eq (fun _ => Safe R mode) (install debug plan dm s₁ s₂)
      (fun _ => Safe R mode) (fun _ => Safe R mode) h := by
  obtain ⟨x, hx, hadd⟩ := hh.content hfree
  have hfound : Found R mode x h := ⟨hh, hx, ho x hx⟩
  refine wpe_step (P := fun r h' => h' = h ∧ r = some (.file (utf8 x) mode, mode))
    (openRegularNofollow_spec hfound.safe hx) (fun _ _ he => he ▸ hfound.safe) ?_
  rintro _ h ⟨rfl, rfl⟩
  refine wpe_seq (P := fun r h' => h' = h ∧ r = (x, mode))
    (wpe_step (P := fun r h' => h' = h ∧ r = x)
    (readToString_spec hfound.safe) (fun _ _ he => he ▸ hfound.safe) ?_) ?_
  · rintro _ h ⟨rfl, rfl⟩
    exact ⟨rfl, rfl⟩
  rintro _ h ⟨rfl, rfl⟩
  refine wpe_seq (P := fun _ h' => h' = h) (validated_spec rfl fun _ => hfound.safe) ?_
  rintro - h rfl
  refine wpe_seq (installModule_spec hne htmp hfound) ?_
  rintro - h ⟨hfound, hm⟩
  refine wpe_seq (ensureBackup_spec hfound hm) ?_
  rintro - h ⟨⟨hh, -⟩, hm, hback⟩
  have hs := tempPath_ne_self plan.serviceFile s₂
  have hi := tempPath_ne_installedModule plan plan.serviceFile s₂
  have hbk := tempPath_ne_backupFile plan plan.serviceFile s₂
  refine wpe_seq (P := fun _ => Wired R mode) ((wpe_adapt ..).2 (atomicWrite_spec
    (Wired.blind hs hi hbk) (fun h _ hm hback => ?_) (fun _ => .inr) hh hm hback))
    fun _ _ hw => .inl (.inr hw)
  rw [hadd]
  exact ⟨put_node_self .., (ModulePresent.blind hne).put hm _,
    (Backed.blind (backupFile_ne_serviceFile plan).symm).put hback _⟩

/-- Removing a file that the assertion does not look at. -/
theorem removeIf_spec {I : PamHost → Prop} {k : Prop} [Decidable k] {what p : Text}
    (hsafe : ∀ h, I h → Safe R mode h) (hI : k → ∀ h, I h → I (h.put p none)) (hh : I h) :
    wpe (machine fun _ _ _ => True) Eq (fun _ => Safe R mode) (removeIf k what p) (fun _ => I)
      (fun _ => I) h := by
  unfold removeIf
  split
  next hk =>
    have hput := hI hk h hh
    refine (wpe_adapt ..).2 (wpe_look (P := fun _ => I) (F := fun _ => I)
      (fsRemoveFile_spec ⟨hsafe _ hput, hput⟩ fun _ => ⟨hsafe _ hh, hh⟩)
      (fun _ _ => id) fun e h hh => ?_)
    cases e <;> exact hh
  next => exact hh

/-- The stack is without the block, and there is a draft of a backup only if no block has been
removed. -/
def Cleared (R : Regime plan c) (mode : ℕ) (removed : Bool) (h : PamHost) : Prop :=
  Unwired R mode h ∨ removed = false ∧ Drafted R mode h

theorem Cleared.safe {removed : Bool} (hh : Cleared R mode removed h) : Safe R mode h :=
  hh.imp .inl And.right

/-- The block is taken out before anything is removed. -/
theorem unwire_spec {s₂ : Bytes} (hfree : Config.hasBlock c = false) (hh : Safe R mode h)
    (hx : ServiceIs plan mode x h) :
    wpe (machine fun _ _ _ => True) Eq (fun _ => Safe R mode)
      (unwire debug plan dm s₂ (some (.file (utf8 x) mode, mode))) (Cleared R mode)
      (fun _ => Safe R mode) h := by
  have hplain : Plain plan c mode h → Config.hasBlock x = false := by
    intro hp
    obtain ⟨y, hy, hno, -⟩ := hp.content hfree
    exact hx.unique hy ▸ hno
  refine wpe_step (P := fun r h' => h' = h ∧ r = x)
    (readToString_spec hh) (fun _ _ he => he ▸ hh) ?_
  rintro _ h ⟨rfl, rfl⟩
  obtain (hu | ⟨hw, hm, hback⟩) | hd := hh
  · rw [hplain hu.1]
    exact .inl hu
  · obtain rfl := hx.unique hw
    rw [Config.hasBlock_addBlock, Config.removeBlock_addBlock,
      Config.removeBlock_of_blockFree (Config.hasBlock_eq_false.1 hfree)]
    have hold : Settled R mode h := .inr ⟨hw, hm, hback⟩
    refine wpe_seq (P := fun _ h' => h' = h) (validated_spec rfl fun _ => .inl hold) ?_
    rintro - h rfl
    have hs := tempPath_ne_self plan.serviceFile s₂
    have hbk := tempPath_ne_backupFile plan plan.serviceFile s₂
    refine wpe_seq (P := fun _ => Unwired R mode) ((wpe_adapt ..).2 (atomicWrite_spec
      (Unwired.blind hs hbk) (fun h _ hm hback => ?_) (fun _ => .inl) hold hm hback))
      fun _ _ => .inl
    exact ⟨.inr (put_node_self ..), .inr ((Backed.blind (backupFile_ne_serviceFile plan).symm).put
      hback _)⟩
  · rw [hplain hd.1]
    exact .inr ⟨rfl, hd⟩

/-- **Uninstalling** leaves the stack without the block before it removes anything. -/
theorem uninstall_spec {s₂ : Bytes} (hne : plan.serviceFile ≠ plan.installedModule)
    (hfree : Config.hasBlock c = false) (hh : Safe R mode h) :
    wpe (machine fun _ _ _ => True) Eq (fun _ => Safe R mode) (uninstall debug plan dm s₂)
      (fun _ => Safe R mode) (fun _ => Safe R mode) h := by
  obtain ⟨x, hx⟩ : ∃ x, ServiceIs plan mode x h := by
    obtain hs | hd := hh
    · exact (hs.content hfree).imp fun _ => And.left
    · exact hd.1.elim (fun hx => ⟨_, hx⟩) fun hx => ⟨_, hx⟩
  refine wpe_step (P := fun r h' => h' = h ∧ r = some (.file (utf8 x) mode, mode))
    (openRegularNofollow_spec hh hx) (fun _ _ he => he ▸ hh) ?_
  rintro _ h ⟨rfl, rfl⟩
  have hback := (backupFile_ne_installedModule plan).symm
  refine wpe_seq (unwire_spec hfree hh hx) fun removed h hr => ?_
  refine wpe_step (removeIf_spec (I := Cleared R mode removed) (fun _ => Cleared.safe)
    (fun _ h hr => hr.imp (fun hu => (Unwired.blind hne.symm hback).put hu _) fun hd =>
      ⟨hd.1, (Plain.blind hne.symm).put hd.2.1 _, hd.2.2⟩) hr) (fun _ _ => Cleared.safe) ?_
  intro _ h hr
  refine wpe_step (removeIf_spec (I := Cleared R mode removed) (fun _ => Cleared.safe)
    (fun hk h hr => ?_) hr) (fun _ _ => Cleared.safe) fun _ _ => Cleared.safe
  obtain hu | ⟨hno, -⟩ := hr
  · exact .inl ⟨(Plain.blind (backupFile_ne_serviceFile plan)).put hu.1 _, .inl (put_node_self ..)⟩
  · rw [hno] at hk
    cases hk

end Calls

/-! ## Sessions -/

/-- Before the first installation: the stack `c`, no module and no backup, and nothing recorded. -/
structure Fresh (plan : InstallPlan) (c : Text) (mode : ℕ) (h : PamHost) : Prop where
  service : ServiceIs plan mode c h
  noModule : h.disk.node plan.installedModule = none
  noBackup : h.disk.node plan.backupFile = none
  reads : h.reads = []
  unwritten : h.unwritten = []

/-- An installation meets with no draft, and with a stack that may become a backup. -/
def InstallCall.MayStart (R : Regime plan c) (mode : ℕ) (h : PamHost) : InstallCall → Prop
  | install .. => ¬ R.draft h.unwritten ∧ ∀ x, ServiceIs plan mode x h → Original R x h
  | uninstall .. => True

variable {R} {debug} {S : Service PamOp.Res PamHost InstallReply InstallCall}
  {init : PamHost → Prop} {ks : History InstallCall InstallReply} {h h' : PamHost}

theorem call_spec (hne : plan.serviceFile ≠ plan.installedModule)
    (hfree : Config.hasBlock c = false) {k : InstallCall} (hk : k.Distinct plan)
    (hs : k.MayStart R mode h) (hh : Safe R mode h) :
    wp (machine fun _ _ _ => True) Eq (fun _ => Safe R mode) (k.prog debug plan)
      (fun _ => Safe R mode) h := by
  cases k with
  | install dm s₁ s₂ =>
    rw [InstallCall.prog, map_eq_pure_bind]
    exact (wp_bind ..).2 ((wp_run ..).2
      (install_spec hne hfree hk (hh.resolve_right fun hd => hs.1 hd.2) hs.2))
  | uninstall dm s₂ =>
    rw [InstallCall.prog, map_eq_pure_bind]
    exact (wp_bind ..).2 ((wp_run ..).2 (uninstall_spec hne hfree hh))

/-- **The invariant of sessions**, wherever the calls are stopped. -/
theorem safe_session (hfree : Config.hasBlock c = false)
    (hprog : S.prog = InstallCall.prog debug plan)
    (hinit : ∀ h, init h → plan.serviceFile ≠ plan.installedModule ∧ Safe R mode h)
    (hallowed : ∀ ks h k, Safe R mode h → S.allowed ks h k →
      k.Distinct plan ∧ k.MayStart R mode h)
    (hs : Session (fun _ => machine fun _ _ _ => True) S init ks h) :
    plan.serviceFile ≠ plan.installedModule ∧ Safe R mode h := by
  refine Session.invariant (I := fun _ h => plan.serviceFile ≠ plan.installedModule ∧
    Safe R mode h) hinit (fun _ _ _ hi _ _ => hi) ?_ hs
  intro ks k h ⟨hne, hh⟩ hk
  obtain ⟨hdistinct, hstart⟩ := hallowed ks h k hh hk
  rw [hprog]
  exact wp_mono (call_spec hne hfree hdistinct hstart hh) (fun _ _ hh _ => ⟨hne, hh⟩)
    fun _ _ hh => ⟨hne, hh⟩

/-- Nothing is known of a backup. -/
def anyRegime (plan : InstallPlan) (c : Text) : Regime plan c where
  trusted _ := True
  draft _ := False
  original := trivial
  begun _ _ _ _ _ _ := .inl trivial

theorem Fresh.ne (hf : Fresh plan c mode h) : plan.serviceFile ≠ plan.installedModule := by
  intro heq
  have hx := hf.service
  rw [ServiceIs, heq, hf.noModule] at hx
  cases hx

/-- **The login stack is whole.** Whatever calls are made, with whatever faults, and wherever they
are stopped: the service file is the original stack or the stack with the block, with its
permissions, and if it contains the block the whole module is installed. -/
theorem wired_session (debug : Text → Text) (plan : InstallPlan) {c : Text} (mode : ℕ)
    (hfree : Config.hasBlock c = false) (hend : EndsLine c)
    {ks : History InstallCall InstallReply} {h : PamHost}
    (hs : Session (fun _ => machine fun _ _ _ => True) (installService debug plan fun _ => True)
      (Fresh plan c mode) ks h) :
    (ServiceIs plan mode c h ∨ ServiceIs plan mode (Config.addBlock c) h) ∧
      ∀ x, ServiceIs plan mode x h → Config.hasBlock x = true → ModulePresent plan h := by
  have hstart : ∀ k : InstallCall, ∀ h, k.MayStart (anyRegime plan c) mode h := fun k _ => by
    cases k with
    | install => exact ⟨id, fun _ _ _ => trivial⟩
    | uninstall => trivial
  obtain ⟨-, hh⟩ := safe_session (R := anyRegime plan c) hfree rfl
    (fun _ hf => ⟨hf.ne, .inl (.inl ⟨.inl hf.service, .inl hf.noBackup⟩)⟩)
    (fun _ h k _ hk => ⟨hk, hstart k h⟩) hs
  have hended : Config.terminate c = c := Config.terminate_of_endsLine hend
  rcases hh with (hu | ⟨hx, hm, -⟩) | hd
  · have hx : ServiceIs plan mode c h := hu.1.elim id fun hx => hended ▸ hx
    refine ⟨.inl hx, fun y hy hb => ?_⟩
    obtain rfl := hx.unique hy
    rw [hfree] at hb
    cases hb
  · exact ⟨.inr hx, fun _ _ _ => hm⟩
  · exact hd.2.elim

/-! A plan and a host to run it on. -/

def samplePlan : InstallPlan where
  serviceFile := "/etc/pam.d/login".toList
  moduleSrc := "/target/pam_tess.so".toList
  moduleDir := "/lib/security".toList

def sampleStack : Text := "auth required pam_unix.so\n".toList

def sampleHost : PamHost where
  disk :=
    { node := fun p =>
        if p = samplePlan.serviceFile then some (.file (utf8 sampleStack) 0o644)
        else if p = samplePlan.moduleSrc then some (.file [0x7f, 0x45] 0o755)
        else if p = samplePlan.moduleDir then some (.dir 0o755)
        else none
      clock := 0 }
  reads := []
  unwritten := []

def sampleInstall : InstallCall := .install 0o644 [1] [2]

/-- The host after a failure-free installation. -/
def installed (h : PamHost) : PamHost :=
  (eval (machine fun _ _ _ => True) .ok (sampleInstall.prog id samplePlan) h).2

theorem sample_fresh : Fresh samplePlan sampleStack 0o644 sampleHost where
  service := by
    unfold ServiceIs
    decide +kernel
  noModule := by decide +kernel
  noBackup := by decide +kernel
  reads := rfl
  unwritten := rfl

theorem sample_free : Config.hasBlock sampleStack = false ∧ EndsLine sampleStack :=
  ⟨by decide +kernel, .inr (by decide)⟩

theorem sample_distinct : sampleInstall.Distinct samplePlan := by
  change tempPath samplePlan.installedModule [1] ≠ samplePlan.serviceFile
  decide +kernel

/-- Another installation. -/
theorem session_installed {ks : History InstallCall InstallReply} {h : PamHost}
    (hs : Session (fun _ => machine fun _ _ _ => True) (installService id samplePlan fun _ => True)
      (Fresh samplePlan sampleStack 0o644) ks h) :
    ∃ r, Session (fun _ => machine fun _ _ _ => True) (installService id samplePlan fun _ => True)
      (Fresh samplePlan sampleStack 0o644) ((sampleInstall, some r) :: ks) (installed h) :=
  ⟨_, hs.done sample_distinct
    (returns_eval (fun _ _ => trivial) (sampleInstall.prog id samplePlan) h)⟩

/-- After the installation the stack is wired and the module is there. -/
theorem wired_session_sample :
    (ServiceIs samplePlan 0o644 sampleStack (installed sampleHost) ∨
      ServiceIs samplePlan 0o644 (Config.addBlock sampleStack) (installed sampleHost)) ∧
      ∀ x, ServiceIs samplePlan 0o644 x (installed sampleHost) → Config.hasBlock x = true →
        ModulePresent samplePlan (installed sampleHost) :=
  wired_session id samplePlan 0o644 sample_free.1 sample_free.2
    (session_installed (.start sample_fresh)).choose_spec

/-- If the service file contains the block, the backup holds exactly the stack `c`. -/
def BackupTrue (plan : InstallPlan) (c : Text) (mode : ℕ) (h : PamHost) : Prop :=
  ∀ x, ServiceIs plan mode x h → Config.hasBlock x = true →
    ∃ m, h.disk.node plan.backupFile = some (.file (utf8 c) m)

/-- No backup of a stack has been created that is not written yet, but for an empty stack. -/
def BackupDone (plan : InstallPlan) (c : Text) (h : PamHost) : Prop :=
  plan.backupFile ∈ h.unwritten → c = []

/-- An installation is made only when no backup is unwritten, and when it finds a backup or the
stack `c` itself. A stack whose last line was ended comes to the same only if `c` ends a line. -/
def InstallCall.Ready (plan : InstallPlan) (c : Text) (mode : ℕ) (h : PamHost) :
    InstallCall → Prop
  | install .. => BackupDone plan c h ∧
      (EndsLine c ∨ ServiceIs plan mode c h ∨ h.disk.node plan.backupFile ≠ none)
  | uninstall .. => True

/-- The calls of an administrator who installs only when it is ready, stopped anywhere. -/
def readyService (debug : Text → Text) (plan : InstallPlan) (c : Text) (mode : ℕ) :
    Service PamOp.Res PamHost InstallReply InstallCall where
  prog := InstallCall.prog debug plan
  allowed _ h k := k.Distinct plan ∧ k.Ready plan c mode h
  mayStop _ := True

/-- Before the first installation: the stack `c`, and no backup. -/
structure Unbacked (plan : InstallPlan) (c : Text) (mode : ℕ) (h : PamHost) : Prop where
  service : ServiceIs plan mode c h
  noBackup : h.disk.node plan.backupFile = none

/-- A backup is only the original stack, and it is a draft until it is written. -/
def carefulRegime (plan : InstallPlan) (c : Text) : Regime plan c where
  trusted b := b = utf8 c
  draft us := plan.backupFile ∈ us ∧ c ≠ []
  original := rfl
  begun b b' us hb hpre hus := by
    by_cases hc : c = []
    · subst hc hb
      exact .inl (List.prefix_nil.1 hpre)
    · exact .inr ⟨hus, hc⟩

/-- An installation that is ready meets with no draft and with no other stack to back up. -/
theorem InstallCall.Ready.mayStart {k : InstallCall} (hk : k.Ready plan c mode h)
    (hh : Safe (carefulRegime plan c) mode h) :
    k.MayStart (carefulRegime plan c) mode h := by
  cases k with
  | uninstall => trivial
  | install =>
    obtain ⟨hdone, hready⟩ := hk
    refine ⟨fun hd => hd.2 (hdone hd.1), fun x hx hnone => ?_⟩
    obtain (⟨hp, -⟩ | ⟨-, -, b, m, hn, -⟩) | hd := hh
    · obtain hc | hc := hp
      · rw [hx.unique hc]
        rfl
      · obtain hend | hc' | hsome := hready
        · rw [hx.unique hc, Config.terminate_of_endsLine hend]
          rfl
        · rw [hx.unique hc']
          rfl
        · exact absurd hnone hsome
    · rw [hnone] at hn
      cases hn
    · exact absurd (hdone hd.2.1) hd.2.2

/-- **The backup is the original stack** whenever the service file contains the block, in every
state of every run, with any faults and any stops, in which no installation is made while a backup
is unwritten, or while there is none of a stack whose last line was ended by an uninstallation. -/
theorem backedUp_session (debug : Text → Text) (plan : InstallPlan) {c : Text} (mode : ℕ)
    (hne : plan.serviceFile ≠ plan.installedModule) (hfree : Config.hasBlock c = false)
    {ks : History InstallCall InstallReply} {h h' : PamHost}
    (hs : Session (fun _ => machine fun _ _ _ => True) (readyService debug plan c mode)
      (Unbacked plan c mode) ks h)
    {k : InstallCall} (hk : k.Distinct plan ∧ k.Ready plan c mode h)
    {p : Prog PamOp.Res InstallReply}
    (hr : Reaches (machine fun _ _ _ => True) (k.prog debug plan) h p h') :
    BackupTrue plan c mode h' := by
  have hsafe : Safe (carefulRegime plan c) mode h := (safe_session
    (S := readyService debug plan c mode) hfree rfl
    (fun _ hu => ⟨hne, .inl (.inl ⟨.inl hu.service, .inl hu.noBackup⟩)⟩)
    (fun _ _ _ hh hk => ⟨hk.1, hk.2.mayStart hh⟩) hs).2
  have hafter : Safe (carefulRegime plan c) mode h' := Reaches.invariant
    (call_spec hne hfree hk.1 (hk.2.mayStart hsafe) hsafe) hsafe hr
  intro x hx hb
  have hplain : ¬ Plain plan c mode h' := by
    intro hp
    obtain ⟨y, hy, hno, -⟩ := hp.content hfree
    rw [hx.unique hy, hno] at hb
    cases hb
  obtain (hu | ⟨-, -, b, m, hn, rfl⟩) | hd := hafter
  · exact absurd hu.1 hplain
  · exact ⟨m, hn⟩
  · exact absurd hd.1 hplain

/-- The host when an installation has been stopped right before it creates the backup. -/
def stoppedUnbacked : PamHost :=
  (run (machine fun _ _ _ => True) (List.replicate 15 .ok) (sampleInstall.prog id samplePlan)
    sampleHost).2

theorem sample_unbacked : Unbacked samplePlan sampleStack 0o644 sampleHost :=
  ⟨sample_fresh.service, sample_fresh.noBackup⟩

theorem sample_ready {h : PamHost} (h₀ : h.unwritten = []) :
    sampleInstall.Ready samplePlan sampleStack 0o644 h := by
  refine ⟨fun hmem => ?_, .inl sample_free.2⟩
  rw [h₀] at hmem
  cases hmem

/-- An installation is stopped before it creates the backup, and the next one is not. -/
theorem backedUp_session_sample : BackupTrue samplePlan sampleStack 0o644
    (installed stoppedUnbacked) := by
  have hstopped : Session (fun _ => machine fun _ _ _ => True)
      (readyService id samplePlan sampleStack 0o644) (Unbacked samplePlan sampleStack 0o644)
      [(sampleInstall, none)] stoppedUnbacked :=
    (Session.start sample_unbacked).stop ⟨sample_distinct, sample_ready rfl⟩
      (reaches_run (admits_of_may (fun _ _ _ => trivial) _ _ _)) trivial
  exact backedUp_session id samplePlan 0o644 sample_fresh.ne sample_free.1 hstopped
    (k := sampleInstall) ⟨sample_distinct, sample_ready (by decide +kernel)⟩
    (returns_eval (fun _ _ => trivial) (sampleInstall.prog id samplePlan) stoppedUnbacked)

/-- The host when an installation has been stopped right after it created the backup. -/
def stoppedAtBackup (h : PamHost) : PamHost :=
  (run (machine fun _ _ _ => True) (List.replicate 16 .ok) (sampleInstall.prog id samplePlan) h).2

theorem session_stoppedAtBackup {ks : History InstallCall InstallReply} {h : PamHost}
    (hs : Session (fun _ => machine fun _ _ _ => True) (installService id samplePlan fun _ => True)
      (Fresh samplePlan sampleStack 0o644) ks h) :
    Session (fun _ => machine fun _ _ _ => True) (installService id samplePlan fun _ => True)
      (Fresh samplePlan sampleStack 0o644) ((sampleInstall, none) :: ks) (stoppedAtBackup h) :=
  hs.stop sample_distinct (reaches_run (admits_of_may (fun _ _ _ => trivial) _ _ _)) trivial

/-- The next installation trusts the empty backup and wires the stack. -/
theorem trusts_empty :
    ServiceIs samplePlan 0o644 (Config.addBlock sampleStack)
        (installed (stoppedAtBackup sampleHost)) ∧
      (installed (stoppedAtBackup sampleHost)).disk.node samplePlan.backupFile =
        some (.file [] 0o644) := by
  unfold ServiceIs
  decide +kernel

/-- **An empty backup**: the first installation is stopped after creating the backup, and a second
one then wires the stack over it. -/
theorem notBackedUp_stopped : ¬ ∀ ks h,
    Session (fun _ => machine fun _ _ _ => True) (installService id samplePlan fun _ => True)
      (Fresh samplePlan sampleStack 0o644) ks h →
    BackupTrue samplePlan sampleStack 0o644 h := by
  intro hall
  obtain ⟨r, hagain⟩ := session_installed (session_stoppedAtBackup (.start sample_fresh))
  obtain ⟨hx, hempty⟩ := trusts_empty
  obtain ⟨m, hn⟩ := hall _ _ hagain _ hx (Config.hasBlock_addBlock _)
  have hbytes := hempty.symm.trans hn
  simp only [Option.some.injEq, Node.file.injEq] at hbytes
  exact absurd hbytes.1 (by decide +kernel)

/-- A stack whose last line is not ended. -/
def unendedStack : Text := "auth required pam_unix.so".toList

def unendedHost : PamHost :=
  sampleHost.put samplePlan.serviceFile (some (.file (utf8 unendedStack) 0o644))

def sampleUninstall : InstallCall := .uninstall 0o644 [3]

/-- The host after a call that meets with no failure. -/
def unfailing (k : InstallCall) (h : PamHost) : PamHost :=
  (eval (machine fun _ _ f => f = .ok) .ok (k.prog id samplePlan) h).2

/-- The host after the stack was installed to, uninstalled from, and installed to again. -/
def reinstalled : PamHost :=
  unfailing sampleInstall (unfailing sampleUninstall (unfailing sampleInstall unendedHost))

theorem unended_fresh : Fresh samplePlan unendedStack 0o644 unendedHost where
  service := put_node_self ..
  noModule := by decide +kernel
  noBackup := by decide +kernel
  reads := rfl
  unwritten := rfl

/-- **The backup of another stack**: the uninstallation ends the last line of the stack and removes
the backup, and the second installation backs up what it finds. No call fails or is stopped. -/
theorem notBackedUp_unended : ¬ ∀ ks h,
    Session (fun _ => machine fun _ _ f => f = .ok) (installService id samplePlan fun _ => False)
      (Fresh samplePlan unendedStack 0o644) ks h →
    BackupTrue samplePlan unendedStack 0o644 h := by
  intro hall
  have hdone : ∀ {ks h} (k : InstallCall), k.Distinct samplePlan →
      Session (fun _ => machine fun _ _ f => f = .ok) (installService id samplePlan fun _ => False)
        (Fresh samplePlan unendedStack 0o644) ks h → ∃ ks',
      Session (fun _ => machine fun _ _ f => f = .ok) (installService id samplePlan fun _ => False)
        (Fresh samplePlan unendedStack 0o644) ks' (unfailing k h) :=
    fun k hk hs => ⟨_, hs.done hk (returns_eval (fun _ _ => rfl) (k.prog id samplePlan) _)⟩
  obtain ⟨_, hfirst⟩ := hdone sampleInstall sample_distinct (.start unended_fresh)
  obtain ⟨_, hgone⟩ := hdone sampleUninstall trivial hfirst
  obtain ⟨_, hagain⟩ := hdone sampleInstall sample_distinct hgone
  have hends : ServiceIs samplePlan 0o644 (Config.addBlock unendedStack) reinstalled ∧
      reinstalled.disk.node samplePlan.backupFile =
        some (.file (utf8 (unendedStack ++ ['\n'])) 0o644) := by
    unfold ServiceIs
    decide +kernel
  obtain ⟨m, hn⟩ := hall _ _ hagain _ hends.1 (Config.hasBlock_addBlock _)
  have hbytes := hends.2.symm.trans hn
  simp only [Option.some.injEq, Node.file.injEq] at hbytes
  exact absurd hbytes.1 (by decide +kernel)

end Install

end Tess

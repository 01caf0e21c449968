import Tess.Enroll.Outcome
import Tess.Lifecycle.Calls

/-!
# What the readers find

The calls that only look: they leave the view alone, and a key they return is the one in the file
it was read from. A file is read as it is in the view when it is a regular one.
-/

namespace Tess

open Files Effects Recovery

variable {E : Primitives} {may : Host → Op → Fault → Prop} {proc : Process} {pid : ℕ} {v : View}
  {h : Host}

/-! ## Quiet programs -/

theorem read_all (p : Path) : AllOps (Quiet pid) (read p) := ⟨trivial, fun _ => trivial⟩

theorem ensureEnrolled_all : AllOps (Quiet pid) (ensureEnrolled proc) :=
  .bind (allOps_lift (p := pathExists _) ⟨trivial, fun _ => trivial⟩) fun _ => allOps_ensure _ _

theorem ensureRecoverable_all : AllOps (Quiet pid) (ensureRecoverable proc) :=
  .bind (allOps_lift (p := pathExists _) ⟨trivial, fun _ => trivial⟩) fun _ => allOps_ensure _ _

theorem ofExcept_all {α : Type} (r : Except Error α) : AllOps (Quiet pid) (ofExcept r) := trivial

theorem load_all (a : Artifact) : AllOps (Quiet pid) (Persist.load E proc a) :=
  .bind ((read_all _).adapt _) fun _ => .bind (ofExcept_all _) fun _ =>
    .bind (ofExcept_all _) fun _ => trivial

theorem unsealKey_all (sealed : SealedObject) (pin : SecretBytes) :
    AllOps (Quiet pid) (unsealKey sealed pin) := ⟨trivial, fun _ => trivial⟩

theorem unsealFrom_all (a : Artifact) (s t u : String) (auth : SecretBytes) :
    AllOps (Quiet pid) (unsealFrom E proc a s t u auth) :=
  .bind ((load_all a).adapt _) fun _ => .bind ((ofExcept_all _).adapt _) fun _ =>
    (unsealKey_all _ _).adapt _

theorem loadBlob_all : AllOps (Quiet pid) (loadBlob E proc) :=
  .bind ((read_all _).adapt _) fun _ => .bind (ofExcept_all _) fun _ =>
    .bind (allOps_ensure _ _) fun _ => trivial

theorem recoveredKey_all (recovery : SecretBytes) :
    AllOps (Quiet pid) (recoveredKey E proc recovery) :=
  .bind ensureRecoverable_all fun _ => .bind (loadBlob_all.adapt _) fun _ =>
    (ofExcept_all _).adapt _

theorem unlockAndVerify_all (secret : SecretBytes) (what : String) :
    AllOps (Quiet pid) (unlockAndVerify secret what) := by
  have h₁ : AllOps (Quiet pid) (keyringUnlock secret) := (Prog.all_call _ _).2 trivial
  have h₂ : AllOps (Quiet pid) keyringIsLocked := (Prog.all_call _ _).2 trivial
  exact .bind (h₁.adapt _) fun _ => .bind (h₂.adapt _) fun _ => allOps_ensure _ _

theorem unsealWithPin_all (pin : SecretBytes) : AllOps (Quiet pid) (unsealWithPin E proc pin) :=
  .bind ensureEnrolled_all fun _ => unsealFrom_all ..

theorem unlock_all (pin : SecretBytes) : AllOps (Quiet pid) (unlock E proc pin) :=
  .bind (unsealWithPin_all _) fun _ => unlockAndVerify_all _ _

theorem unlockWithFace_all : AllOps (Quiet pid) (unlockWithFace E proc) := by
  have hfiles : (faceFilesExist : Prog Op.Res Bool).All (Quiet pid) :=
    ⟨trivial, fun b => by cases b with
      | false => trivial
      | true => exact ⟨trivial, fun _ => trivial⟩⟩
  have hmeta : AllOps (Quiet pid) (metadata (.main .faceKey)) := ⟨trivial, fun _ => trivial⟩
  have hread : AllOps (Quiet pid) (readSecretFile proc .faceKey) :=
    .bind (hmeta.adapt _) fun _ => .bind (allOps_ensure _ _) fun _ => (read_all _).adapt _
  exact .bind (allOps_lift hfiles) fun _ => .bind (allOps_ensure _ _) fun _ =>
    .bind (.bind (hread.adapt _) fun _ => unsealFrom_all ..) fun _ => unlockAndVerify_all _ _

theorem recover_all (recovery : SecretBytes) : AllOps (Quiet pid) (recover E proc recovery) :=
  .bind (recoveredKey_all _) fun _ => unlockAndVerify_all _ _

/-! ## What is read -/

/-- What is read from the file of `a` satisfies `R` wherever `P` holds. -/
def Finds (E : Primitives) (a : Artifact) (P : Host → Prop) (R : Bytes → Prop) : Prop :=
  ∀ h bytes, P h → (exec E (.file (.read (.main a))) .ok h).1 = .ok bytes → R bytes

section Finding

variable {rely guar : Host → Host → Prop} {P : Host → Prop} {R : Bytes → Prop} {a : Artifact}
  {seed : ℕ} (hP : Stable pid rely guar P)

include hP

theorem read_finds (hR : Finds E a P R) (h₀ : P h) :
    wpe (machine E may) rely guar (read (.main a)) (fun bytes h => R bytes ∧ P h) (fun _ => P)
      h := by
  refine wpe_and (wp_op hP (R := fun _ => True) (fun _ _ _ _ => trivial)
    (o := .file (.read (.main a))) trivial (Q := fun r _ => ∀ bytes, r = .ok bytes → R bytes)
    (fun h f hPh _ bytes hr => ?_) h₀ trivial)
  cases f
  case ok => exact hR h bytes hPh hr
  all_goals cases hr

theorem load_finds (hR : Finds E a P R) (h₀ : P h) :
    wpe (machine E may) rely guar (Persist.load E proc a)
      (fun m h => (∃ b, R b ∧ E.metadataJson.fromSlice b = .ok m) ∧ P h) (fun _ => P) h := by
  refine wpe_seq ((wpe_adapt ..).2 (read_finds hP hR h₀)) ?_
  rintro bytes h ⟨hb, h₁⟩
  refine wpe_seq (P := fun m h => (∃ b, R b ∧ E.metadataJson.fromSlice b = .ok m) ∧ P h)
    (ofExcept_spec (fun m hm => ⟨⟨bytes, hb, mapError_eq_ok.1 hm⟩, h₁⟩) fun _ => h₁) ?_
  rintro m h ⟨hm, h₂⟩
  exact wpe_seq (P := fun _ => P) (ofExcept_spec (fun _ _ => h₂) fun _ => h₂)
    fun _ h h₃ => ⟨hm, h₃⟩

theorem unsealFrom_finds (hseed : ∀ h, P h → h.tpm.seed = seed) (hR : Finds E a P R)
    (s t u : String) (auth : SecretBytes) (h₀ : P h) :
    wpe (machine E may) rely guar (unsealFrom E proc a s t u auth)
      (fun key h => (∃ b, R b ∧ unsealBytes E seed b auth = some key) ∧ P h) (fun _ => P) h := by
  refine wpe_seq ((wpe_adapt ..).2 (load_finds hP hR h₀)) ?_
  rintro m h ⟨⟨b, hb, hm⟩, h₁⟩
  refine wpe_seq (P := fun s h => Persist.fromMetadata E m = .ok s ∧ P h)
    ((wpe_adapt ..).2 (ofExcept_spec (fun s hs => ⟨hs, h₁⟩) fun _ => h₁)) ?_
  rintro s h ⟨hs, h₂⟩
  refine (wpe_adapt ..).2 (wpe_mono (unsealKey_spec hP h₂ hseed s auth)
    (fun key h ⟨hk, h₃⟩ => ⟨⟨b, hb, ?_⟩, h₃⟩) fun _ _ => id)
  simp [unsealBytes, hm, hs, Except.toOption, hk]

/-- A key unsealed with a PIN is one that the sealed metadata opens to. -/
theorem unsealWithPin_finds (hseed : ∀ h, P h → h.tpm.seed = seed) (hR : Finds E .metadata P R)
    (pin : SecretBytes) (h₀ : P h) :
    wpe (machine E may) rely guar (unsealWithPin E proc pin)
      (fun key h => (∃ b, R b ∧ unsealBytes E seed b pin = some key) ∧ P h) (fun _ => P) h :=
  wpe_seq (P := fun _ => P) (wpe_quiet hP ensureEnrolled_all h₀) fun _ _ h₁ =>
    unsealFrom_finds hP hseed hR _ _ _ _ h₁

end Finding

/-- There is something at the name of `a`, and when it is a regular file, its bytes satisfy `P`. -/
structure View.Reads (v : View) (a : Artifact) (P : Bytes → Prop) : Prop where
  found : v.files a ≠ none
  bytes : ∀ b m, v.files a = some (.file b m) → P b

theorem View.Reads.imp {a : Artifact} {P Q : Bytes → Prop} (h : v.Reads a P)
    (hPQ : ∀ b, P b → Q b) : v.Reads a Q := ⟨h.found, fun b m hb => hPQ b (h.bytes b m hb)⟩

theorem finds_view (a : Artifact) :
    Finds E a (fun h => h.view = v) fun bytes => v.Reads a (bytes = ·) := by
  rintro h bytes rfl hr
  have hr : (h.disk.stat (.main a)).elim (.error .notFound) FileOp.readNode = .ok bytes := hr
  refine ⟨fun hn => ?_, fun b m hb => ?_⟩
  · have hn : h.disk.node (.main a) = none := Host.at_eq_none.1 hn
    rw [Disk.stat_of_none hn] at hr
    cases hr
  · rw [Disk.stat_of_file (Host.at_eq_file.1 hb)] at hr
    exact (Except.ok.inj hr).symm

section Reading

variable {G : Host → Host → Prop} (hG : ∀ h h', h'.view = v → G h h') (hv : h.view = v)

include hG hv

theorem unsealWithPin_spec (pin : SecretBytes) :
    wpe (machine E may) Eq G (unsealWithPin E proc pin)
      (fun key h' => v.Reads .metadata (unsealBytes E v.seed · pin = some key) ∧ h'.view = v)
      (fun _ h' => h'.view = v) h :=
  wpe_mono (unsealWithPin_finds (stable_view 0 hG) (fun _ hv => hv ▸ rfl) (finds_view .metadata)
    pin hv) (fun _ _ ⟨⟨_, hb, hk⟩, hv⟩ => ⟨hb.imp fun _ h => h ▸ hk, hv⟩) fun _ _ => id

/-- A recovered key is the one in the recovery file. -/
theorem recoveredKey_spec (recovery : SecretBytes) :
    wpe (machine E may) Eq G (recoveredKey E proc recovery)
      (fun key h' => v.Reads .recovery (unwrapBytes E · recovery = some key) ∧ h'.view = v)
      (fun _ h' => h'.view = v) h := by
  refine wpe_seq (P := fun _ h => h.view = v)
    (wpe_quiet (stable_view 0 hG) ensureRecoverable_all hv) fun _ h hv => ?_
  refine wpe_seq (P := fun blob h => v.Reads .recovery (E.blobJson.fromSlice · = .ok blob) ∧
    h.view = v) ((wpe_adapt ..).2 ?_) ?_
  · refine wpe_seq ((wpe_adapt ..).2 (read_finds (stable_view 0 hG) (finds_view .recovery) hv)) ?_
    rintro bytes h ⟨hr, hv⟩
    refine wpe_seq (P := fun blob h => v.Reads .recovery (E.blobJson.fromSlice · = .ok blob) ∧
      h.view = v) (ofExcept_spec (fun blob hb => ⟨hr.imp fun b hbytes => ?_, hv⟩) fun _ => hv) ?_
    · exact hbytes ▸ mapError_eq_ok.1 hb
    rintro blob h hb
    exact wpe_seq (P := fun _ h => h.view = v) ((wpe_ensure ..).2 ⟨fun _ => hb.2, fun _ => hb.2⟩)
      fun _ h hv => ⟨hb.1, hv⟩
  rintro blob h ⟨hb, hv⟩
  refine (wpe_adapt ..).2 (ofExcept_spec (fun key hk => ⟨hb.imp fun b hparse => ?_, hv⟩)
    fun _ => hv)
  simp [unwrapBytes, hparse, hk, Except.toOption]

/-- An unlock that succeeds was made with the credential. -/
theorem unlockAndVerify_spec (secret : SecretBytes) (what : String) :
    wpe (machine E may) Eq G (unlockAndVerify secret what)
      (fun _ h' => v.credential = secret ∧ h'.view = v) (fun _ h' => h'.view = v) h := by
  refine wpe_seq (P := fun _ h => v.credential = secret ∧ h.view = v) ((wpe_adapt ..).2
    (wpe_mono (keyringUnlock_spec (stable_view 0 hG) hv secret) (fun _ h hc => ⟨?_, hc.2⟩)
      fun _ _ => id)) ?_
  · exact (congrArg View.credential hc.2).symm.trans hc.1
  rintro _ h ⟨hc, hv⟩
  have hlocked : AllOps (Quiet 0) keyringIsLocked := (Prog.all_call _ _).2 trivial
  refine wpe_seq (P := fun _ h => h.view = v) ((wpe_adapt ..).2
    (wpe_quiet (stable_view 0 hG) hlocked hv)) fun _ h hv => ?_
  exact (wpe_ensure ..).2 ⟨fun _ => ⟨hc, hv⟩, fun _ => hv⟩

end Reading

end Tess

import Tess.Lifecycle.Sessions

/-!
# The calls when nothing fails

What `unlock` and `unenroll` do in a run without faults, step by step: as long as the sealed
metadata opens with the PIN to the credential, the TPM is not locked out and no directory is in the
way, they return without an error.
-/

namespace Tess

open Files Effects Recovery

/-- Nothing fails. -/
def noFault (_ : Host) (_ : Op) (f : Fault) : Prop := f = .ok

/-- The result of a run without faults, and the host it leaves. -/
def faultless (E : Primitives) {α : Type} (p : Prog Op.Res α) (h : Host) : α × Host :=
  eval (machine E noFault) .ok p h

/-- The template store is a directory, or will be made one, and the user can have a file in it. -/
def StoreReady (face : Option String) (h : Host) : Prop :=
  ∀ username, face = some username → EnrollStore.singleNormal username ∧
    (h.disk.node .storeDir = none ∨ ∃ m, h.disk.node .storeDir = some (.dir m))

/-- No directory is in the way of a removal. -/
structure Removable (face : Option String) (h : Host) : Prop where
  files : ∀ a, h.files a ≠ some (.dir 0)
  store : StoreReady face h

section Faultless

variable {E : Primitives} {proc : Process} {h : Host}

/-- `Yields` for a run without faults. -/
abbrev Finishes {ε α : Type} (E : Primitives) (x : ExceptT ε (Prog Op.Res) α) (h : Host) (a : α)
    (h' : Host) : Prop :=
  Yields (machine E noFault) Fault.ok x h a h'

theorem faultless_of_finishes {α : Type} {x : Io α} {a : α} {h' : Host} (hx : Finishes E x h a h') :
    faultless E x.run h = (.ok a, h') := hx

/-! ## Reading -/

theorem finishes_read {a : Artifact} {bytes : Bytes} {m : ℕ}
    (hf : h.files a = some (.file bytes m)) : Finishes E (read (.main a)) h bytes h := by
  have hstat := Disk.stat_of_file (Host.at_eq_file.1 hf)
  change ((h.disk.stat (.main a)).elim (.error .notFound) FileOp.readNode, h.setDisk h.disk []) = _
  rw [hstat]
  rfl

theorem eval_pathExists {a : Artifact} {bytes : Bytes} {m : ℕ}
    (hf : h.files a = some (.file bytes m)) :
    eval (machine E noFault) Fault.ok (pathExists (.main a)) h = (true, h) := by
  have hstat := Disk.stat_of_file (Host.at_eq_file.1 hf)
  change ((h.disk.stat (.main a)).isSome, h.setDisk h.disk []) = _
  rw [hstat]
  rfl

theorem finishes_ofExcept {α : Type} {r : Except Error α} {a : α} (hr : r = .ok a) :
    Finishes E (ofExcept r) h a h := by
  subst hr
  exact yields_pure a

/-- What makes sealed metadata open. -/
theorem unsealBytes_some {seed : ℕ} {bytes : Bytes} {pin key : SecretBytes}
    (hk : unsealBytes E seed bytes pin = some key) :
    ∃ m s, E.metadataJson.fromSlice bytes = .ok m ∧ m.validateVersion = .ok () ∧
      Persist.fromMetadata E m = .ok s ∧ unsealObject E seed s pin = some key := by
  obtain ⟨m, hm, hk⟩ := Option.bind_eq_some_iff.1 hk
  obtain ⟨s, hs, hk⟩ := Option.bind_eq_some_iff.1 hk
  rw [toOption_eq_some] at hm hs
  exact ⟨m, s, hm, (fromMetadata_ok hs).1, hs, hk⟩

theorem finishes_unsealKey {s : SealedObject} {pin key : SecretBytes}
    (hk : unsealObject E h.tpm.seed s pin = some key) (hl : h.tpm.lockout.isLockedOut = false) :
    Finishes E (unsealKey s pin) h key h := by
  have hunseal : h.tpm.unsealKey E s pin = (.ok key, h.tpm) := by
    unfold unsealObject at hk
    unfold Tpm.unsealKey
    cases ha : pinToAuth pin with
    | error e => simp [ha, Except.toOption] at hk
    | ok auth =>
      simp only [ha, Except.toOption, Option.bind_eq_bind, Option.bind_some] at hk
      split_ifs at hk with hname
      simp [hname, hl, hk]
  change ((h.tpm.unsealKey E s pin).1, h.setTpm (h.tpm.unsealKey E s pin).2) = _
  rw [hunseal]
  rfl

theorem finishes_load {a : Artifact} {bytes : Bytes} {mode : ℕ} {m : Metadata}
    (hf : h.files a = some (.file bytes mode)) (hparse : E.metadataJson.fromSlice bytes = .ok m)
    (hver : m.validateVersion = .ok ()) : Finishes E (Persist.load E proc a) h m h :=
  ((finishes_read hf).adapt _).bind ((finishes_ofExcept (by rw [hparse]; rfl)).bind
    ((finishes_ofExcept hver).bind (yields_pure _)))

/-- Sealed metadata that opens is read and unsealed. -/
theorem finishes_unsealWithPin {bytes : Bytes} {m : ℕ} {pin key : SecretBytes}
    (hf : h.files .metadata = some (.file bytes m))
    (hk : unsealBytes E h.tpm.seed bytes pin = some key) (hl : h.tpm.lockout.isLockedOut = false) :
    Finishes E (unsealWithPin E proc pin) h key h := by
  obtain ⟨md, s, hparse, hver, hs, hkey⟩ := unsealBytes_some hk
  have hload : Finishes E (Persist.load E proc .metadata) h md h := finishes_load hf hparse hver
  have henrolled : Finishes E (ensureEnrolled proc) h () h :=
    (yields_lift (eval_pathExists hf)).bind (yields_ensure rfl _)
  exact henrolled.bind ((hload.adapt _).bind (((finishes_ofExcept hs).adapt _).bind
    ((finishes_unsealKey hkey hl).adapt _)))

/-! ## The keyring -/

theorem finishes_keyringUnlock {secret : SecretBytes} (hc : h.keyring.credential = secret) :
    Finishes E (keyringUnlock secret) h () (h.setLocked false) := by
  change (if secret = h.keyring.credential ∧ Fault.ok = .ok then
    ((.ok () : Except Error Unit), h.setLocked false) else _) = _
  rw [if_pos ⟨hc.symm, rfl⟩]

theorem finishes_unlockAndVerify {secret : SecretBytes} (hc : h.keyring.credential = secret)
    (what : String) : Finishes E (unlockAndVerify secret what) h () (h.setLocked false) := by
  have hlocked : Finishes E keyringIsLocked (h.setLocked false) false (h.setLocked false) := rfl
  exact ((finishes_keyringUnlock hc).adapt _).bind ((hlocked.adapt _).bind (yields_ensure rfl _))

theorem finishes_unlock {bytes : Bytes} {m : ℕ} {pin key : SecretBytes}
    (hf : h.files .metadata = some (.file bytes m))
    (hk : unsealBytes E h.tpm.seed bytes pin = some key) (hl : h.tpm.lockout.isLockedOut = false)
    (hc : h.keyring.credential = key) :
    Finishes E (unlock E proc pin) h () (h.setLocked false) :=
  (finishes_unsealWithPin hf hk hl).bind (finishes_unlockAndVerify hc _)

theorem finishes_keyringRekey {old new : SecretBytes} {generated : Bool}
    (hc : h.keyring.credential = old) :
    Finishes E (keyringRekey old new generated) h () (h.setCredential new generated) := by
  change exec E (.rekey old new generated) .ok h = _
  simp only [exec, if_pos hc.symm]

theorem finishes_confirmPassword {key password : SecretBytes}
    (hc : h.keyring.credential = password) :
    Finishes E (confirmPassword key password) h () (h.setLocked false) :=
  (yields_lift (finishes_unlockAndVerify hc _)).bind (yields_pure _)

/-! ## Removing files -/

section Removal

variable {face : Option String}

theorem Removable.ne_dir (hr : Removable face h) (a : Artifact) {m : ℕ} :
    h.disk.node (.main a) ≠ some (.dir m) := fun hn => hr.files a (by
  simp [Host.files, Host.at_, hn, Node.entry])

theorem Removable.set (hr : Removable face h) {p : Path} {n : Option (Node Path)}
    (hmain : ∀ a, p = .main a → n = none)
    (hstore : p = .storeDir → ∃ m, n = some (.dir m)) :
    Removable face (h.setDisk (h.disk.set p n) []) := by
  refine ⟨fun a => ?_, fun username hu => ⟨(hr.store username hu).1, ?_⟩⟩
  · rw [Host.files, at_setDisk_set]
    split
    · rename_i heq
      rw [hmain a heq.symm]
      simp
    · exact hr.files a
  · change (h.disk.set p n).node .storeDir = none ∨ ∃ m, (h.disk.set p n).node .storeDir = _
    by_cases hp : p = .storeDir
    · obtain ⟨m, rfl⟩ := hstore hp
      exact .inr ⟨m, by rw [hp, Disk.set_node_same]⟩
    · rw [Disk.set_node_of_ne _ _ (Ne.symm hp)]
      exact (hr.store username hu).2

theorem eval_fsRemoveFile (hr : Removable face h) (a : Artifact) :
    ∃ r h', eval (machine E noFault) Fault.ok (fsRemoveFile (.main a)).run h = (r, h') ∧
      (r = .ok () ∨ r = .error .notFound) ∧ Removable face h' := by
  change ∃ r h', ((FileOp.exec (.removeFile (.main a)) .ok h.disk).1, _) = (r, h') ∧ _
  cases hn : h.disk.node (.main a) with
  | none =>
    refine ⟨_, h, ?_, .inr rfl, hr⟩
    simp [FileOp.exec, hn, exec, machine, Host.setDisk, fileEvents]
  | some n =>
    refine ⟨_, h.setDisk (h.disk.set (.main a) none) [], ?_, .inl rfl,
      hr.set (fun _ _ => rfl) (by simp)⟩
    cases n with
    | dir m => exact absurd hn (hr.ne_dir a)
    | file | symlink => simp [FileOp.exec, hn, exec, machine, fileEvents]

theorem finishes_removeFile (hr : Removable face h) (a : Artifact) :
    ∃ h', Finishes E (removeFile a) h () h' ∧ Removable face h' := by
  obtain ⟨r, h', he, hres, hr'⟩ := eval_fsRemoveFile (E := E) hr a
  refine ⟨h', ?_, hr'⟩
  rw [Finishes, Yields, removeFile, ExceptT.run_mk, eval_bind, he]
  rcases hres with rfl | rfl <;> rfl

theorem finishes_removeBlob (hr : Removable face h) (a : Artifact) :
    ∃ h', Finishes E (removeBlob proc a) h () h' ∧ Removable face h' := by
  obtain ⟨h', hf, hr'⟩ := finishes_removeFile (E := E) hr a
  exact ⟨h', hf.adapt _, hr'⟩

/-- The store directory is there, with mode 0700. -/
theorem finishes_ensureDir {username : String} (hr : Removable face h) (hu : face = some username) :
    ∃ h', Finishes E (EnrollStore.ensureDir proc) h () h' ∧ Removable face h' := by
  -- A store that is a directory gets the right mode.
  have hmode : ∀ {h : Host} {m}, Removable face h → h.disk.node .storeDir = some (.dir m) →
      ∃ h', Finishes E (do
        let found ← EnrollStore.storeContext ("stat " ++ proc.display .storeDir)
          (metadata .storeDir)
        ensure (found.isDir = true)
          (EnrollStore.storeError (proc.display .storeDir ++ " exists but is not a directory"))
        unlessThen (found.mode &&& 0o777 = 0o700)
          (EnrollStore.storeContext ("chmod 700 " ++ proc.display .storeDir)
            (setDirPermissions .storeDir 0o700))) h () h' ∧ Removable face h' := by
    intro h m hr hn
    have hfollow : h.disk.follow Disk.maxLinks .storeDir = some (.storeDir, .dir m) := by
      simp [Disk.maxLinks, Disk.follow, hn]
    have hstat : Finishes E (metadata .storeDir) h (.dir m) h := by
      change ((h.disk.stat .storeDir).elim (Except.error IoError.notFound) Except.ok,
        h.setDisk h.disk []) = _
      rw [Disk.stat, hfollow]
      rfl
    by_cases hm : m &&& 0o777 = 0o700
    · refine ⟨h, (hstat.adapt _).bind ((yields_ensure rfl _).bind ?_), hr⟩
      rw [unlessThen, if_pos (show (Node.dir m : Node Path).mode &&& 0o777 = 0o700 from hm)]
      exact yields_pure _
    · refine ⟨h.setDisk (h.disk.set .storeDir (some (.dir 0o700))) [],
        (hstat.adapt _).bind ((yields_ensure rfl _).bind ?_), hr.set (by simp) fun _ => ⟨_, rfl⟩⟩
      rw [unlessThen, if_neg (show ¬ (Node.dir m : Node Path).mode &&& 0o777 = 0o700 from hm)]
      refine Yields.adapt ?_ _
      change ((FileOp.exec (.setDirPermissions .storeDir 0o700) .ok h.disk).1, _) = _
      simp [FileOp.exec, hfollow, exec, machine, fileEvents]
  rcases (hr.store username hu).2 with hn | ⟨m, hn⟩
  · have hstat := Disk.stat_of_none hn
    have hexists : eval (machine E noFault) Fault.ok (pathExists .storeDir) h = (false, h) := by
      change ((h.disk.stat .storeDir).isSome, h.setDisk h.disk []) = _
      rw [hstat]
      rfl
    have hcreate : Finishes E (createDirAll .storeDir) h ()
        (h.setDisk (h.disk.set .storeDir (some (.dir 0o755))) []) := by
      change ((FileOp.exec (.createDirAll .storeDir) .ok h.disk).1, _) = _
      simp [FileOp.exec, hstat, hn, exec, machine, fileEvents]
    obtain ⟨h', hf, hr'⟩ := hmode (hr.set (p := .storeDir) (n := some (.dir 0o755)) (by simp)
      fun _ => ⟨_, rfl⟩) (Disk.set_node_same ..)
    exact ⟨h', (yields_lift hexists).bind (Yields.bind (hcreate.adapt _) hf), hr'⟩
  · have hexists : eval (machine E noFault) Fault.ok (pathExists .storeDir) h = (true, h) := by
      change ((h.disk.stat .storeDir).isSome, h.setDisk h.disk []) = _
      simp [Disk.stat, Disk.maxLinks, Disk.follow, hn, Host.setDisk]
    obtain ⟨h', hf, hr'⟩ := hmode hr hn
    exact ⟨h', (yields_lift hexists).bind (Yields.bind (yields_pure _) hf), hr'⟩

theorem finishes_store_remove {username : String} (hr : Removable face h)
    (hu : face = some username) :
    ∃ b h', Finishes E (EnrollStore.remove E proc username) h b h' := by
  obtain ⟨h₁, hdir, hr₁⟩ := @finishes_ensureDir E proc _ _ _ hr hu
  obtain ⟨r, h', he, hres, -⟩ := eval_fsRemoveFile (E := E) hr₁ (.template username)
  have hpath : Finishes E (ofExcept (EnrollStore.userPath E username)) h₁ (.template username) h₁ :=
    finishes_ofExcept (by rw [EnrollStore.userPath, if_pos (hr.store username hu).1])
  refine ⟨decide (r = .ok ()), h', hdir.bind (hpath.bind (Yields.bind (yields_lift he) ?_))⟩
  rcases hres with rfl | rfl <;> exact yields_pure _

theorem finishes_removeBlobs (hr : Removable face h) :
    ∃ h', Finishes E (removeBlobs E proc face) h () h' := by
  obtain ⟨h₁, hf₁, hr₁⟩ := @finishes_removeBlob E proc _ _ hr .metadata
  obtain ⟨h₂, hf₂, hr₂⟩ := @finishes_removeBlob E proc _ _ hr₁ .recovery
  obtain ⟨h₃, hf₃, hr₃⟩ := @finishes_removeBlob E proc _ _ hr₂ .metadataFace
  obtain ⟨h₄, hf₄, hr₄⟩ := @finishes_removeBlob E proc _ _ hr₃ .faceKey
  cases hface : face with
  | none => exact ⟨h₄, hf₁.bind (hf₂.bind (hf₃.bind (hf₄.bind (yields_pure _))))⟩
  | some username =>
    obtain ⟨b, h₅, hf₅⟩ := @finishes_store_remove E proc _ _ _ hr₄ hface
    exact ⟨h₅, hf₁.bind (hf₂.bind (hf₃.bind (hf₄.bind ((hf₅.adapt _).bind (yields_pure _)))))⟩

end Removal

/-! ## Unenrolling -/

/-- The operations that release the lockout authValue. -/
def Releasing : Op → Prop
  | .file (.pathExists (.main .lockoutOwned)) | .setLockoutAuth ..
  | .file (.removeFile (.main .lockoutOwned)) | .eprintln _ => True
  | _ => False

/-- The operations that release the lockout authValue and remove files. -/
def Cleanup : Op → Prop
  | .file (.pathExists (.main .lockoutOwned)) | .setLockoutAuth .. | .file (.removeFile _)
  | .file (.pathExists .storeDir) | .file (.createDirAll _) | .file (.metadata .storeDir)
  | .file (.setDirPermissions ..) | .eprintln _ => True
  | _ => False

theorem releasing_cleanup {o : Op} (ho : Releasing o) : Cleanup o := by
  unfold Releasing at ho
  split at ho
  · trivial
  · trivial
  · trivial
  · trivial
  · exact ho.elim

theorem tryRelease_releasing (recovery : Option SecretBytes) :
    (tryRelease E proc recovery).All Releasing := by
  cases recovery with
  | none => trivial
  | some recovery =>
    have hexists : (pathExists (.main .lockoutOwned)).All Releasing := ⟨trivial, fun _ => trivial⟩
    have hset : ∀ auth, AllOps Releasing (setLockoutAuth auth []) := fun auth =>
      (Prog.all_call _ _).2 trivial
    have hremove : AllOps Releasing (removeFile .lockoutOwned) := ⟨trivial, fun r => by
      rcases r with (_ | _ | _ | _) | _ <;> trivial⟩
    have hrelease : AllOps Releasing (releaseLockoutAuth E proc recovery) := by
      refine .bind (allOps_lift hexists) fun owned => ?_
      cases owned with
      | false => trivial
      | true =>
        exact .bind (AllOps.adapt (by trivial) _) fun auth => .bind ((hset auth).adapt _) fun _ =>
          hremove.adapt _
    refine Prog.All.bind hrelease fun r => ?_
    cases r with
    | ok => trivial
    | error e => exact (Prog.all_call _ _).2 trivial

theorem removeBlobs_cleanup (face : Option String) : AllOps Cleanup (removeBlobs E proc face) := by
  have hfile : ∀ a, AllOps Cleanup (removeFile a) := fun a => ⟨trivial, fun r => by
    rcases r with (_ | _ | _ | _) | _ <;> trivial⟩
  have hblob : ∀ a, AllOps Cleanup (removeBlob proc a) := fun a => (hfile a).adapt _
  refine .bind (hblob _) fun _ => .bind (hblob _) fun _ => .bind (hblob _) fun _ =>
    .bind (hblob _) fun _ => ?_
  cases face with
  | none => trivial
  | some username =>
    have hmkdir : AllOps Cleanup (createDirAll .storeDir) := ⟨trivial, fun _ => trivial⟩
    have hstat : AllOps Cleanup (metadata .storeDir) := ⟨trivial, fun _ => trivial⟩
    have hchmod : AllOps Cleanup (setDirPermissions .storeDir 0o700) :=
      ⟨trivial, fun _ => trivial⟩
    have hdir : AllOps Cleanup (EnrollStore.ensureDir proc) :=
      .bind (allOps_lift (p := pathExists _) ⟨trivial, fun _ => trivial⟩) fun _ =>
        .bind (AllOps.unlessThen (hmkdir.adapt _) _) fun _ => .bind (hstat.adapt _) fun _ =>
          .bind (allOps_ensure _ _) fun _ => AllOps.unlessThen (hchmod.adapt _) _
    refine .bind (.adapt (.bind hdir fun _ => .bind (by trivial) fun a => ?_) _) fun _ => trivial
    refine .bind (allOps_lift ⟨trivial, fun _ => trivial⟩) fun r => ?_
    rcases r with (_ | _ | _ | _) | _ <;> trivial

/-- Releasing the lockout authValue puts no directory in the way of a removal. -/
theorem removable_exec {face : Option String} {o : Op} (ho : Releasing o) (hr : Removable face h) :
    Removable face (exec E o .ok h).2 := by
  unfold Releasing at ho
  split at ho
  · exact ⟨hr.files, hr.store⟩
  · simp only [exec]
    split
    · exact hr
    · split
      · exact ⟨hr.files, hr.store⟩
      · exact ⟨hr.files, hr.store⟩
  · simp only [exec, FileOp.exec, fileEvents]
    split
    · exact ⟨hr.files, hr.store⟩
    · exact ⟨hr.files, hr.store⟩
    · exact hr.set (fun _ _ => rfl) (by simp)
  · exact ⟨hr.files, hr.store⟩
  · exact ho.elim

theorem removable_tryRelease {face : Option String} (recovery : Option SecretBytes)
    (hr : Removable face h) :
    Removable face (eval (machine E noFault) Fault.ok (tryRelease E proc recovery) h).2 := by
  have hkeeps : wp (machine E noFault) Eq (fun _ _ => True) (tryRelease E proc recovery)
      (fun _ => Removable face) h := by
    refine wp_all (tryRelease_releasing recovery) (fun _ _ h hs => h ▸ hs) ?_ hr
    intro h o f ho hf hs
    obtain rfl : f = .ok := hf
    exact ⟨trivial, removable_exec ho hs⟩
  exact Returns.post (Q := fun _ => Removable face) hkeeps (returns_eval (fun _ _ => rfl) _ _)

/-- **A failure-free unenroll** returns, when the PIN opens the metadata to the credential. -/
theorem finishes_unenroll {args : UnenrollArgs} {bytes : Bytes} {m : ℕ} {key : SecretBytes}
    (hp : args.newPassword ≠ []) (hf : h.files .metadata = some (.file bytes m))
    (hk : unsealBytes E h.tpm.seed bytes args.pin = some key)
    (hl : h.tpm.lockout.isLockedOut = false) (hc : h.keyring.credential = key)
    (hr : Removable args.face h) : ∃ h', Finishes E (unenroll E proc args) h () h' := by
  have hrekey : Finishes E (keyringRekey key args.newPassword false) (h.setLocked false) () _ :=
    finishes_keyringRekey hc
  have hconfirm : Finishes E (confirmPassword key args.newPassword)
      ((h.setLocked false).setCredential args.newPassword false) () _ :=
    finishes_confirmPassword rfl
  have hr : Removable args.face
      (((h.setLocked false).setCredential args.newPassword false).setLocked false) :=
    ⟨hr.files, hr.store⟩
  obtain ⟨h', hblobs⟩ := @finishes_removeBlobs E proc _ args.face
    (@removable_tryRelease E proc _ _ args.recoverySecret hr)
  exact ⟨h', (yields_ensure hp _).bind ((finishes_unsealWithPin hf hk hl).bind
    ((finishes_unlockAndVerify hc _).bind ((hrekey.adapt _).bind (hconfirm.bind
      ((yields_lift rfl).bind (hblobs.adapt _))))))⟩

end Faultless

end Tess

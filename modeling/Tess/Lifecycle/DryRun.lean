import Tess.Lifecycle.Faultless
import Tess.Lifecycle.SessionUnlock

/-!
# The dry run

`tess test` says whether the unlock of a session would work, without unsealing or unlocking
anything. Its verdict is compared here with the two unlocks themselves.

What it sees is the metadata, the lockout counter and the daemon. It does not see whether the sealed
object is one of this TPM, or whether the key in it is the credential: after a verdict in favour the
unlock depends on that and on the PIN alone (`runTest_predicts`).
-/

namespace Tess

open Files Effects

/-! ## The calls -/

/-- What a dry run found. -/
structure DryRun where
  metadataPresent : Bool
  metadataLoadable : Except String Unit
  tpm : Except String LockoutState
  /-- `none` when the lock state was not asked for. -/
  keyringLocked : Option (Except String Bool)

namespace DryRun

def metadataReasons (report : DryRun) : List String :=
  if report.metadataPresent = false then ["not enrolled (no sealed metadata)"]
  else match report.metadataLoadable with
    | .ok () => []
    | .error e => ["sealed metadata is not loadable (" ++ e ++ ")"]

def tpmReasons (report : DryRun) : List String :=
  match report.tpm with
  | .ok lockout => if lockout.isLockedOut then ["TPM is in dictionary-attack lockout"] else []
  | .error e => ["TPM unavailable (" ++ e ++ ")"]

def keyringReasons (report : DryRun) : List String :=
  match report.keyringLocked with
  | some (.ok _) => []
  | some (.error e) => ["keyring unavailable (" ++ e ++ ")"]
  | none => ["keyring state was not probed"]

/-- The reasons for which the unlock of a session would fail. -/
def blockingReasons (report : DryRun) : List String :=
  report.metadataReasons ++ report.tpmReasons ++ report.keyringReasons

def wouldSucceed (report : DryRun) : Bool := report.blockingReasons.isEmpty

end DryRun

/-- The lock state of the keyring, or why it could not be read. -/
def keyringLockState : Prog Op.Res (Option (Except String Bool)) := do
  let locked ← keyringIsLocked.run
  pure (some (locked.mapError Error.outer))

section Calls

variable (E : Primitives) (proc : Process)

/-- Load the metadata, and make a sealed object of it. -/
def loadSealed : Io SealedObject := do
  let m ← Persist.load E proc .metadata
  ofExcept (Persist.fromMetadata E m)

def metadataLoadable (present : Bool) : Prog Op.Res (Except String Unit) :=
  if present then do
    let loaded ← (loadSealed E proc).run
    pure ((loaded.map fun _ => ()).mapError Error.outer)
  else pure (.error "no sealed metadata")

def dryRun (keyringLocked : Option (Except String Bool)) : Prog Op.Res DryRun := do
  let metadataPresent ← pathExists (.main .metadata)
  let metadataLoadable ← metadataLoadable E proc metadataPresent
  let tpm ← call Op.readCaps
  pure { metadataPresent, metadataLoadable, tpm, keyringLocked }

/-- `tess test`. -/
def runTest : Prog Op.Res DryRun := do
  let keyringLocked ← keyringLockState
  dryRun E proc keyringLocked

end Calls

section Verdict

variable {E : Primitives} {proc : Process} {may : Host → Op → Fault → Prop} {h h' : Host}
  {report : DryRun} {pin : SecretBytes}

/-! ## What the unlocks need -/

/-- The sealed object that the metadata on the disk stands for. -/
def Prepared (E : Primitives) (h : Host) (sealed : SealedObject) : Prop :=
  ∃ m, Stored E h.disk m ∧ Persist.fromMetadata E m = .ok sealed

theorem Prepared.unique {s s' : SealedObject} (hs : Prepared E h s) (hs' : Prepared E h s') :
    s' = s := by
  obtain ⟨m, ⟨bytes, hb, hm, -⟩, hd⟩ := hs
  obtain ⟨m', ⟨bytes', hb', hm', -⟩, hd'⟩ := hs'
  obtain rfl : bytes = bytes' := Except.ok.inj (hb.symm.trans hb')
  obtain rfl : m = m' := Except.ok.inj (hm.symm.trans hm')
  exact Except.ok.inj (hd'.symm.trans hd)

theorem finishes_load_iff {m : Metadata} :
    Finishes E (Persist.load E proc .metadata) h m h' ↔ Stored E h.disk m ∧ h = h' := by
  have hread : ∀ {bytes u}, Finishes E (read (.main .metadata)) h bytes u ↔
      (h.disk.stat (.main .metadata)).elim (.error .notFound) FileOp.readNode = .ok bytes ∧ h = u :=
    iff_of_eq (Prod.mk.injEq ..)
  unfold Persist.load
  simp only [yields_bind_iff, yields_adapt_iff, yields_pure_iff, hread, ofExcept,
    yields_mk_pure_iff]
  constructor
  · rintro ⟨bytes, _, ⟨hb, rfl⟩, m', _, ⟨hm, rfl⟩, ⟨⟩, _, ⟨hv, rfl⟩, rfl, rfl⟩
    exact ⟨⟨bytes, hb, mapError_eq_ok.1 hm, hv⟩, rfl⟩
  · rintro ⟨⟨bytes, hb, hm, hv⟩, rfl⟩
    exact ⟨bytes, h, ⟨hb, rfl⟩, m, h, ⟨by rw [hm]; rfl, rfl⟩, (), h, ⟨hv, rfl⟩, rfl, rfl⟩

theorem finishes_loadSealed_iff {sealed : SealedObject} :
    Finishes E (loadSealed E proc) h sealed h' ↔ Prepared E h sealed ∧ h = h' := by
  unfold loadSealed ofExcept
  simp only [yields_bind_iff, finishes_load_iff, yields_mk_pure_iff]
  constructor
  · rintro ⟨m, _, ⟨hm, rfl⟩, hd, rfl⟩
    exact ⟨⟨m, hm, hd⟩, rfl⟩
  · rintro ⟨⟨m, hm, hd⟩, rfl⟩
    exact ⟨m, h, ⟨hm, rfl⟩, hd, rfl⟩

theorem finishes_ensureEnrolled_iff {u : Unit} :
    Finishes E (ensureEnrolled proc) h u h' ↔
      (h.disk.stat (.main .metadata)).isSome = true ∧ h = h' := by
  have hexists : ∀ {b u}, eval (machine E noFault) .ok (pathExists (.main .metadata)) h = (b, u) ↔
      (h.disk.stat (.main .metadata)).isSome = b ∧ h = u := iff_of_eq (Prod.mk.injEq ..)
  unfold ensureEnrolled
  simp only [yields_bind_iff, yields_lift_iff, yields_ensure_iff, hexists]
  constructor
  · rintro ⟨_, _, ⟨rfl, rfl⟩, hb, rfl⟩
    exact ⟨hb, rfl⟩
  · rintro ⟨hb, rfl⟩
    exact ⟨true, h, ⟨hb, rfl⟩, rfl, rfl⟩

/-- The TPM releases a key to a PIN that opens the object, unless it is locked out. -/
theorem finishes_unsealKey_iff {sealed : SealedObject} {key : SecretBytes} :
    Finishes E (unsealKey sealed pin) h key h' ↔ (h.tpm.lockout.isLockedOut = false ∧
      unsealObject E h.tpm.seed sealed pin = some key) ∧ h = h' := by
  constructor
  · intro hrun
    have hkey : (h.tpm.unsealKey E sealed pin).1 = .ok key := congrArg Prod.fst hrun
    have hopens : h.tpm.lockout.isLockedOut = false ∧
        unsealObject E h.tpm.seed sealed pin = some key := by
      unfold Tpm.unsealKey at hkey
      unfold unsealObject
      cases ha : pinToAuth pin with
      | error e =>
        rw [ha] at hkey
        cases hkey
      | ok auth =>
        simp only [ha] at hkey
        split_ifs at hkey with hname hlocked
        cases hu : E.unsealData h.tpm.seed sealed.pub sealed.priv auth with
        | none =>
          rw [hu] at hkey
          cases hkey
        | some k =>
          rw [hu] at hkey
          exact ⟨eq_false_of_ne_true hlocked, by simpa [Except.toOption, hname, hu] using hkey⟩
    have hagain : Finishes E (unsealKey sealed pin) h key h := finishes_unsealKey hopens.2 hopens.1
    exact ⟨hopens, congrArg Prod.snd (hagain.symm.trans hrun)⟩
  · rintro ⟨⟨hl, hk⟩, rfl⟩
    exact finishes_unsealKey hk hl

theorem finishes_keyringUnlock_iff {key : SecretBytes} {u : Unit} :
    Finishes E (keyringUnlock key) h u h' ↔
      key = h.keyring.credential ∧ h.setLocked false = h' := by
  change (if key = h.keyring.credential ∧ Fault.ok = .ok then
    ((.ok () : Except Error Unit), h.setLocked false) else _) = _ ↔ _
  split_ifs with hc
  · rw [Prod.mk.injEq]
    exact and_congr_left fun _ => iff_of_true rfl hc.1
  · exact iff_of_false nofun fun hk => hc ⟨hk.1, rfl⟩

theorem finishes_keyringIsLocked_iff {locked : Bool} :
    Finishes E keyringIsLocked h locked h' ↔ h.keyring.locked = locked ∧ h = h' := by
  change (Except.ok h.keyring.locked, h) = (Except.ok locked, h') ↔ _
  rw [Prod.mk.injEq, Except.ok.injEq]

/-- What it takes to unlock the keyring with a PIN. -/
structure Opens (E : Primitives) (h : Host) (pin : SecretBytes) (sealed : SealedObject) : Prop where
  prepared : Prepared E h sealed
  free : h.tpm.lockout.isLockedOut = false
  key : unsealObject E h.tpm.seed sealed pin = some h.keyring.credential

theorem unlock_finishes_iff :
    (∃ h', Finishes E (unlock E proc pin) h () h') ↔ ∃ sealed, Opens E h pin sealed := by
  unfold unlock unsealWithPin unsealFrom unlockAndVerify context ofExcept
  simp only [yields_bind_iff, yields_adapt_iff, finishes_ensureEnrolled_iff, finishes_load_iff,
    yields_mk_pure_iff, finishes_unsealKey_iff, finishes_keyringUnlock_iff,
    finishes_keyringIsLocked_iff, yields_ensure_iff]
  constructor
  · rintro ⟨_, key, _, ⟨_, _, ⟨-, rfl⟩, m, _, ⟨hm, rfl⟩, sealed, _, ⟨hs, rfl⟩, ⟨hl, hk⟩, rfl⟩, -, -,
      ⟨rfl, -⟩, -⟩
    exact ⟨sealed, ⟨m, hm, hs⟩, hl, hk⟩
  · rintro ⟨sealed, ⟨m, hm, hs⟩, hl, hk⟩
    exact ⟨h.setLocked false, h.keyring.credential, h, ⟨(), h, ⟨hm.isSome, rfl⟩, m, h, ⟨hm, rfl⟩,
      sealed, h, ⟨hs, rfl⟩, ⟨hl, hk⟩, rfl⟩, (), _, ⟨rfl, rfl⟩, false, _, ⟨rfl, rfl⟩, rfl, rfl⟩

theorem unsealAndUnlock_finishes_iff :
    (∃ h', Finishes E (unsealAndUnlock E proc (pure ()) pin) h () h') ↔
      ∃ sealed, Opens E h pin sealed := by
  unfold unsealAndUnlock context ofExcept
  simp only [yields_bind_iff, yields_adapt_iff, finishes_load_iff, yields_mk_pure_iff,
    yields_pure_iff, finishes_unsealKey_iff, finishes_keyringUnlock_iff]
  constructor
  · rintro ⟨_, m, _, ⟨hm, rfl⟩, sealed, _, ⟨hs, rfl⟩, -, _, ⟨-, rfl⟩, key, _, ⟨⟨hl, hk⟩, rfl⟩,
      rfl, -⟩
    exact ⟨sealed, ⟨m, hm, hs⟩, hl, hk⟩
  · rintro ⟨sealed, ⟨m, hm, hs⟩, hl, hk⟩
    exact ⟨h.setLocked false, m, h, ⟨hm, rfl⟩, sealed, h, ⟨hs, rfl⟩, (), h, ⟨trivial, rfl⟩,
      h.keyring.credential, h, ⟨⟨hl, hk⟩, rfl⟩, rfl, rfl⟩

/-! ## What a dry run does -/

/-- The operations that only look. -/
def Reading : Op → Prop
  | .file (.pathExists _) | .file (.read _) | .readCaps | .isLocked => True
  | _ => False

/-- A look at the host changes nothing but the lock of the keyring, which a daemon may close. -/
theorem exec_reading {o : Op} (ho : Reading o) (f : Fault) (h : Host) :
    ∃ locked, (exec E o f h).2 = h.setLocked locked := by
  unfold Reading at ho
  split at ho
  · cases f <;> exact ⟨h.keyring.locked, rfl⟩
  · cases f <;> exact ⟨h.keyring.locked, rfl⟩
  · cases f <;> exact ⟨h.keyring.locked, rfl⟩
  · cases f with
    | late => exact ⟨true, rfl⟩
    | _ => exact ⟨h.keyring.locked, rfl⟩
  · exact ho.elim

theorem loadSealed_reading : AllOps Reading (loadSealed E proc) := by
  have hread : AllOps Reading (read (.main .metadata)) := ⟨trivial, fun _ => trivial⟩
  have hof : ∀ {α : Type} (r : Except Error α), AllOps Reading (ofExcept r) := fun _ => trivial
  refine .bind ?_ fun _ => hof _
  exact (hread.adapt _).bind fun _ => (hof _).bind fun _ => (hof _).bind fun _ => allOps_pure _

theorem keyringLockState_reading : keyringLockState.All Reading :=
  Prog.All.bind ⟨trivial, fun _ => trivial⟩ fun _ => trivial

theorem metadataLoadable_reading (present : Bool) :
    (metadataLoadable E proc present).All Reading := by
  cases present with
  | false => trivial
  | true => exact Prog.All.bind loadSealed_reading fun _ => trivial

theorem runTest_reading : (runTest E proc).All Reading := by
  refine keyringLockState_reading.bind fun _ => ?_
  refine Prog.All.bind ⟨trivial, fun _ => trivial⟩ fun present => ?_
  exact (metadataLoadable_reading present).bind fun _ => ⟨trivial, fun _ => trivial⟩

/-! ## The verdict -/

theorem wouldSucceed_iff : report.wouldSucceed = true ↔ report.metadataPresent = true ∧
    report.metadataLoadable = .ok () ∧
    (∃ lockout, report.tpm = .ok lockout ∧ lockout.isLockedOut = false) ∧
    ∃ locked, report.keyringLocked = some (.ok locked) := by
  obtain ⟨present, loadable, tpm, locked⟩ := report
  have hmetadata : DryRun.metadataReasons ⟨present, loadable, tpm, locked⟩ = [] ↔
      present = true ∧ loadable = .ok () := by
    cases present <;> cases loadable <;> simp [DryRun.metadataReasons]
  have htpm : DryRun.tpmReasons ⟨present, loadable, tpm, locked⟩ = [] ↔
      ∃ lockout, tpm = .ok lockout ∧ lockout.isLockedOut = false := by
    cases tpm <;> simp [DryRun.tpmReasons]
  have hkeyring : DryRun.keyringReasons ⟨present, loadable, tpm, locked⟩ = [] ↔
      ∃ l, locked = some (.ok l) := by
    rcases locked with _ | _ | _ <;> simp [DryRun.keyringReasons]
  rw [DryRun.wouldSucceed, List.isEmpty_iff, DryRun.blockingReasons, List.append_eq_nil_iff,
    List.append_eq_nil_iff, hmetadata, htpm, hkeyring]
  simp only [and_assoc]

theorem loadSealed_sound : wpe (machine E may) Eq (fun _ _ => True) (loadSealed E proc)
    (fun sealed _ => Prepared E h sealed) (fun _ _ => True) h := by
  have hread : wpe (machine E may) Eq (fun _ _ => True) (read (.main .metadata))
      (fun bytes _ => (h.disk.stat (.main .metadata)).elim (.error .notFound) FileOp.readNode =
        .ok bytes) (fun _ _ => True) h := by
    rintro _ rfl f -
    refine ⟨trivial, ?_⟩
    cases f with
    | ok =>
      change outcome _ _ ((h.disk.stat (.main .metadata)).elim (.error .notFound) FileOp.readNode) _
      cases (h.disk.stat (.main .metadata)).elim (.error .notFound) FileOp.readNode with
      | ok bytes => rfl
      | error e => trivial
    | _ => trivial
  have hof : ∀ {α : Type} (r : Except Error α) (h' : Host), wpe (machine E may) Eq
      (fun _ _ => True) (ofExcept r) (fun a _ => r = .ok a) (fun _ _ => True) h' := fun r _ =>
    ofExcept_spec (fun _ ha => ha) fun _ => trivial
  unfold loadSealed Persist.load
  refine wpe_seq (P := fun m _ => Stored E h.disk m) ?_ fun m h₁ hm => ?_
  · refine wpe_seq ((wpe_adapt ..).2 hread) fun bytes h₁ hb => ?_
    refine wpe_seq (hof _ h₁) fun m h₂ hm => ?_
    exact wpe_seq (hof _ h₂) fun _ _ hv => ⟨bytes, hb, mapError_eq_ok.1 hm, hv⟩
  · exact wpe_mono (hof _ h₁) (fun sealed _ hs => ⟨m, hm, hs⟩) fun _ _ => id

/-- One stage of a dry run: what it answers wherever the lock stands, with nothing else moved. -/
theorem wp_reading {α : Type} {p : Prog Op.Res α} {Q : α → Prop} (hp : p.All Reading)
    (hQ : ∀ l, wp (machine E may) Eq (fun _ _ => True) p (fun a _ => Q a) (h.setLocked l))
    (hh : ∃ l, h' = h.setLocked l) : wp (machine E may) Eq (fun _ _ => True) p
      (fun a w => Q a ∧ ∃ l, w = h.setLocked l) h' := by
  obtain ⟨l, rfl⟩ := hh
  have hkeeps : wp (machine E may) Eq (fun _ _ => True) p (fun _ w => ∃ l, w = h.setLocked l)
      (h.setLocked l) := by
    refine wp_all hp (fun _ _ hw hP => hw ▸ hP) ?_ ⟨l, rfl⟩
    rintro _ o f ho - ⟨l, rfl⟩
    obtain ⟨l', hl'⟩ := exec_reading (E := E) ho f (h.setLocked l)
    exact ⟨trivial, l', hl'⟩
  exact wp_mono (wp_conj (hQ l) hkeeps) (fun _ _ _ => trivial) fun _ _ => id

theorem metadataLoadable_sound (present : Bool) : wp (machine E may) Eq (fun _ _ => True)
    (metadataLoadable E proc present)
    (fun loadable _ => loadable = .ok () → ∃ sealed, Prepared E h sealed) h := by
  cases present with
  | false => exact fun hok => by cases hok
  | true =>
    refine (wp_bind ..).2 (wp_post loadSealed_sound fun loaded _ hloaded => ?_)
    cases loaded with
    | ok sealed => exact fun _ => ⟨sealed, hloaded⟩
    | error e => exact fun hok => by cases hok

theorem readCaps_sound : wp (machine E may) Eq (fun _ _ => True) (call Op.readCaps)
    (fun caps _ => ∀ lockout, caps = .ok lockout → lockout = h.tpm.lockout) h := by
  rintro _ rfl f -
  refine ⟨trivial, fun lockout hcaps => ?_⟩
  cases f with
  | ok => exact (Except.ok.inj hcaps).symm
  | _ => cases hcaps

/-- A report in favour is right about what it has seen, whatever failed. -/
theorem runTest_sound : wp (machine E may) Eq (fun _ _ => True) (runTest E proc)
    (fun report h' => (report.wouldSucceed = true → (∃ sealed, Prepared E h sealed) ∧
      h.tpm.lockout.isLockedOut = false) ∧ ∃ l, h' = h.setLocked l) h := by
  have hany : ∀ {α : Type} (p : Prog Op.Res α) (w : Host), wp (machine E may) Eq
      (fun _ _ => True) p (fun _ _ => True) w := fun p w => wp_true p w
  unfold runTest dryRun
  refine (wp_bind ..).2 (wp_post (wp_reading (Q := fun _ => True) keyringLockState_reading
    (fun _ => hany _ _) ⟨h.keyring.locked, rfl⟩) fun locked h₁ hh₁ => ?_)
  refine (wp_bind ..).2 (wp_post (wp_reading (Q := fun _ => True) ⟨trivial, fun _ => trivial⟩
    (fun _ => hany _ _) hh₁.2) fun present h₂ hh₂ => ?_)
  refine (wp_bind ..).2 (wp_post (wp_reading (Q := fun loadable => loadable = .ok () →
    ∃ sealed, Prepared E h sealed) (metadataLoadable_reading present)
    (fun l => metadataLoadable_sound (h := h.setLocked l) present) hh₂.2)
    fun loadable h₃ hh₃ => ?_)
  refine (wp_bind ..).2 (wp_post (wp_reading (Q := fun caps => ∀ lockout, caps = .ok lockout →
    lockout = h.tpm.lockout) ⟨trivial, fun _ => trivial⟩
    (fun l => readCaps_sound (h := h.setLocked l)) hh₃.2) fun tpm h₄ hh₄ => ?_)
  refine ⟨fun hok => ?_, hh₄.2⟩
  obtain ⟨-, hload, ⟨lockout, hcaps, hfree⟩, -⟩ := wouldSucceed_iff.1 hok
  obtain rfl : lockout = h.tpm.lockout := hh₄.1 lockout hcaps
  exact ⟨hh₃.1 hload, hfree⟩

/-- When no call fails, a host that is ready gets a report in favour. -/
theorem runTest_complete (hmay : ∀ h o f, may h o f → f = .ok) {sealed : SealedObject}
    (hs : Prepared E h sealed) (hfree : h.tpm.lockout.isLockedOut = false)
    (hrun : Returns (machine E may) (runTest E proc) h report h') :
    report.wouldSucceed = true := by
  have hstate : eval (machine E noFault) .ok keyringLockState h =
      (some (.ok h.keyring.locked), h) := rfl
  have hexists : eval (machine E noFault) .ok (pathExists (.main .metadata)) h = (true, h) := by
    obtain ⟨m, hm, -⟩ := hs
    exact Prod.ext hm.isSome rfl
  have hload : eval (machine E noFault) .ok (loadSealed E proc).run h = (.ok sealed, h) :=
    finishes_loadSealed_iff.2 ⟨hs, rfl⟩
  have hloadable : eval (machine E noFault) .ok (metadataLoadable E proc true) h = (.ok (), h) := by
    rw [metadataLoadable, if_pos rfl, eval_bind, hload]
    rfl
  have hcaps : eval (machine E noFault) .ok (call Op.readCaps) h = (.ok h.tpm.lockout, h) := rfl
  have heval : (eval (machine E noFault) .ok (runTest E proc) h).1 =
      ⟨true, .ok (), .ok h.tpm.lockout, some (.ok h.keyring.locked)⟩ := by
    rw [runTest, eval_bind, hstate, dryRun, eval_bind, hexists, eval_bind, hloadable, eval_bind,
      hcaps, eval_pure]
  have hdetermined : wp (machine E may) Eq (fun _ _ => True) (runTest E proc)
      (fun a w => eval (machine E noFault) .ok (runTest E proc) h = (a, w)) h :=
    wp_eval (by rfl) (fun w o f _ hf => hmay w o f hf) (fun _ _ => trivial) runTest_reading h
  rw [Returns.post hdetermined hrun] at heval
  rw [show report = _ from heval, wouldSucceed_iff]
  exact ⟨rfl, rfl, ⟨_, rfl, hfree⟩, _, rfl⟩

/-! ## The dry run and the unlocks -/

/-- `tess unlock` succeeds with this PIN. -/
def Unlocks (E : Primitives) (proc : Process) (pin : SecretBytes) (h : Host) : Prop :=
  ∃ h', Finishes E (unlock E proc pin) h () h'

/-- The helper of the login unlocks the keyring with this PIN. -/
def SessionUnlocks (E : Primitives) (proc : Process) (pin : SecretBytes) (h : Host) : Prop :=
  ∃ h', Finishes E (unsealAndUnlock E proc (pure ()) pin) h () h'

/-- **A dry run looks, and is right.** Whatever fails in it, it changes nothing but the lock of the
keyring. After a verdict in favour both unlocks succeed with exactly the PINs that open the stored
object to the credential. After a verdict against, with no call failed, neither succeeds at all. -/
theorem runTest_predicts (hrun : Returns (machine E may) (runTest E proc) h report h') :
    (∃ locked, h' = h.setLocked locked) ∧
    (report.wouldSucceed = true → ∃ sealed, Prepared E h sealed ∧ ∀ pin,
      (Unlocks E proc pin h' ↔
        unsealObject E h.tpm.seed sealed pin = some h.keyring.credential) ∧
      (SessionUnlocks E proc pin h' ↔
        unsealObject E h.tpm.seed sealed pin = some h.keyring.credential)) ∧
    ((∀ h o f, may h o f → f = .ok) → report.wouldSucceed = false → ∀ pin,
      ¬ Unlocks E proc pin h' ∧ ¬ SessionUnlocks E proc pin h') := by
  obtain ⟨hsound, locked, rfl⟩ := Returns.post runTest_sound hrun
  refine ⟨⟨locked, rfl⟩, fun hok => ?_, fun hmay hno pin => ?_⟩
  · obtain ⟨⟨sealed, hs⟩, hfree⟩ := hsound hok
    have hopens : ∀ pin, (∃ s, Opens E (h.setLocked locked) pin s) ↔
        unsealObject E h.tpm.seed sealed pin = some h.keyring.credential := by
      intro pin
      constructor
      · rintro ⟨s, hprepared, -, hkey⟩
        obtain rfl : s = sealed := Prepared.unique hs hprepared
        exact hkey
      · exact fun hkey => ⟨sealed, hs, hfree, hkey⟩
    exact ⟨sealed, hs, fun pin => ⟨unlock_finishes_iff.trans (hopens pin),
      unsealAndUnlock_finishes_iff.trans (hopens pin)⟩⟩
  · have hclosed : ¬ ∃ s, Opens E (h.setLocked locked) pin s := by
      rintro ⟨s, hprepared, hfree, -⟩
      have hok := runTest_complete hmay (h := h) hprepared hfree hrun
      rw [hok] at hno
      cases hno
    exact ⟨fun hu => hclosed (unlock_finishes_iff.1 hu),
      fun hu => hclosed (unsealAndUnlock_finishes_iff.1 hu)⟩

end Verdict

/-- A host with the metadata of an enrolled user, and a locked keyring. -/
def Sample.testedHost : Host :=
  { (enrolledDesk [7] (storedKey [7])).2 with disk := (enrolledDesk [7] (storedKey [7])).1 }

theorem runTest_predicts_enrolled :
    Unlocks sample (Sample.proc 1) Sample.pin
      (faultless sample (runTest sample (Sample.proc 1)) Sample.testedHost).2 := by
  have hrun := returns_eval (M := machine sample noFault) (c := .ok) (fun _ _ => rfl)
    (runTest sample (Sample.proc 1)) Sample.testedHost
  have hprepared : Prepared sample Sample.testedHost (Sample.sealedKey [7]) :=
    ⟨Sample.storedKey [7], Sample.stored_enrolledDesk [7] rfl, rfl⟩
  have hok := runTest_complete (fun _ _ _ => id) hprepared rfl hrun
  obtain ⟨sealed, hs, hopens⟩ := (runTest_predicts hrun).2.1 hok
  obtain rfl : sealed = Sample.sealedKey [7] := hprepared.unique hs
  exact (hopens Sample.pin).1.2 rfl

end Tess

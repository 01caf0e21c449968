import Tess.Lifecycle.Clear
import Tess.Lifecycle.Unenroll

/-!
# Sealing again, end to end

A reseal ties the key of the recovery blob to the TPM again. From every disk, and under any faults:
it touches nothing but the sealed metadata, those it replaces only by a save that is complete up to
the sync of the directory, and what it has saved opens with the new PIN to the key that a recovery
gets from the blob.
-/

namespace Tess

open Files Effects Recovery

/-! ## What is found -/

/-- Without faults `x` returns `key`; under any faults it returns no other one. -/
structure Obtains (E : Primitives) (x : Io SecretBytes) (h : Host) (key : SecretBytes) : Prop where
  obtained : (faultless E x.run h).1 = .ok key
  only : ∀ may k h', Returns (machine E may) x.run h (.ok k) h' → k = key

/-- The sealed metadata of a host hold the object `s`. -/
def HoldsObject (E : Primitives) (proc : Process) (h : Host) (s : SealedObject) : Prop :=
  ∃ m, (faultless E (Persist.load E proc .metadata).run h).1 = .ok m ∧
    Persist.fromMetadata E m = .ok s

/-- The TPM made the object with this randomness. -/
def MadeWith (E : Primitives) (entropy : Bytes) (s : SealedObject) : Prop :=
  ∃ seed auth data, E.create seed entropy auth data = (s.pub, s.priv)

section Found

variable {E : Primitives} {may : Host → Op → Fault → Prop} {proc : Process} {h : Host}
  {recovery pin key : SecretBytes} {bytes entropy : Bytes} {mode seed : ℕ}

/-- A blob that is loaded was read from a regular file. -/
theorem loadBlob_reads :
    wpe (machine E may) Eq (fun _ _ => True) (loadBlob E proc)
      (fun blob _ => ∃ bytes mode, h.disk.stat (.main .recovery) = some (.file bytes mode) ∧
        E.blobJson.fromSlice bytes = .ok blob) (fun _ _ => True) h := by
  refine wpe_seq (P := fun bytes _ => ∃ mode,
    h.disk.stat (.main .recovery) = some (.file bytes mode))
    ((wpe_adapt ..).2 ((wp_call_alone ..).2 fun f _ => ⟨trivial, ?_⟩)) ?_
  · cases f with
    | ok =>
      change outcome _ _ ((h.disk.stat (.main .recovery)).elim (.error .notFound)
        FileOp.readNode) _
      cases h.disk.stat (.main .recovery) with
      | none => trivial
      | some n =>
        cases n with
        | file bytes mode => exact ⟨mode, rfl⟩
        | dir | symlink => trivial
    | _ => trivial
  rintro bytes h ⟨mode, hstat⟩
  refine wpe_seq (P := fun blob _ => E.blobJson.fromSlice bytes = .ok blob)
    (ofExcept_spec (fun blob hb => mapError_eq_ok.1 hb) fun _ => trivial) fun blob h hb => ?_
  exact wpe_seq (P := fun _ _ => True) ((wpe_ensure ..).2 ⟨fun _ => trivial, fun _ => trivial⟩)
    fun _ _ _ => ⟨bytes, mode, hstat, hb⟩

/-- A recovery that succeeds has read a regular file, and it holds the key. -/
theorem recoveredKey_reads :
    wpe (machine E may) Eq (fun _ _ => True) (recoveredKey E proc recovery)
      (fun key _ => ∃ bytes mode, h.disk.stat (.main .recovery) = some (.file bytes mode) ∧
        unwrapBytes E bytes recovery = some key) (fun _ _ => True) h := by
  refine wpe_seq (P := fun _ h' => h' = h) (wpe_seq (P := fun _ h' => h' = h) ((wpe_lift ..).2
    ((wp_call_alone ..).2 fun f _ => ⟨trivial, by cases f <;> rfl⟩)) fun _ h' hh =>
      (wpe_ensure ..).2 ⟨fun _ => hh, fun _ => trivial⟩) ?_
  rintro _ h₁ rfl
  refine wpe_seq ((wpe_adapt ..).2 loadBlob_reads) ?_
  rintro blob h ⟨bytes, mode, hstat, hparse⟩
  refine (wpe_adapt ..).2 (ofExcept_spec (fun key hk => ⟨bytes, mode, hstat, ?_⟩) fun _ => trivial)
  simp [unwrapBytes, hparse, hk, Except.toOption]

/-- A blob in a regular file is loaded, if it has the current version. -/
theorem finishes_loadBlob {blob : RecoveryBlob}
    (hstat : h.disk.stat (.main .recovery) = some (.file bytes mode))
    (hparse : E.blobJson.fromSlice bytes = .ok blob) (hversion : blob.version = blobVersion) :
    Finishes E (loadBlob E proc) h blob h := by
  have hread : Finishes E (read (.main .recovery)) h bytes h := by
    change ((h.disk.stat (.main .recovery)).elim (.error .notFound) FileOp.readNode,
      h.setDisk h.disk []) = _
    rw [hstat]
    rfl
  exact (hread.adapt _).bind ((finishes_ofExcept (by rw [hparse]; rfl)).bind
    ((yields_ensure hversion _).bind (yields_pure _)))

/-- A recovery blob that opens is read and unwrapped. -/
theorem finishes_recoveredKey (hstat : h.disk.stat (.main .recovery) = some (.file bytes mode))
    (hk : unwrapBytes E bytes recovery = some key) :
    Finishes E (recoveredKey E proc recovery) h key h := by
  obtain ⟨blob, hparse, hunwrap⟩ := Option.bind_eq_some_iff.1 hk
  rw [toOption_eq_some] at hparse hunwrap
  have hexists : eval (machine E noFault) Fault.ok (pathExists (.main .recovery)) h =
      (true, h) := by
    change ((h.disk.stat (.main .recovery)).isSome, h.setDisk h.disk []) = _
    rw [hstat]
    rfl
  have hload : Finishes E (loadBlob E proc) h blob h :=
    finishes_loadBlob hstat hparse (unwrapKey_ok hunwrap).1
  have hthere : Finishes E (ensureRecoverable proc) h () h :=
    (yields_lift hexists).bind (yields_ensure rfl _)
  exact hthere.bind ((hload.adapt _).bind ((finishes_ofExcept hunwrap).adapt _))

/-- A recovery gets the key in the file that `recovery.json` leads to. -/
theorem obtains_recoveredKey (hstat : h.disk.stat (.main .recovery) = some (.file bytes mode))
    (hk : unwrapBytes E bytes recovery = some key) :
    Obtains E (recoveredKey E proc recovery) h key := by
  refine ⟨congrArg Prod.fst (faultless_of_finishes (finishes_recoveredKey hstat hk)),
    fun may k h' hr => ?_⟩
  obtain ⟨bytes', mode', hstat', hk'⟩ := returns_ok recoveredKey_reads hr
  obtain ⟨rfl, -⟩ := Node.file.inj (Option.some.inj (hstat'.symm.trans hstat))
  exact Option.some.inj (hk'.symm.trans hk)

/-- Unlocking with the PIN gets the key in the sealed metadata. -/
theorem obtains_unsealWithPin (hf : h.files .metadata = some (.file bytes mode))
    (hk : unsealBytes E h.tpm.seed bytes pin = some key) (hl : h.tpm.lockout.isLockedOut = false) :
    Obtains E (unsealWithPin E proc pin) h key := by
  refine ⟨congrArg Prod.fst (faultless_of_finishes (finishes_unsealWithPin hf hk hl)),
    fun may k h' hr => ?_⟩
  obtain ⟨hreads, -⟩ := returns_ok (unsealWithPin_spec (v := h.view) (G := fun _ _ => True)
    (fun _ _ _ => trivial) rfl pin) hr
  exact Option.some.inj ((hreads.bytes bytes mode hf).symm.trans hk)

/-- Loaded metadata are those in the file. -/
theorem load_parses {a : Artifact} {m : Metadata} {h' : Host}
    (hf : h.files a = some (.file bytes mode))
    (hr : Returns (machine E may) (Persist.load E proc a).run h (.ok m) h') :
    E.metadataJson.fromSlice bytes = .ok m := by
  obtain ⟨⟨b, hb, hparse⟩, -⟩ := returns_ok (load_finds (stable_view (v := h.view) 0
    (G := fun _ _ => True) fun _ _ _ => trivial) (finds_view a) rfl) hr
  exact hb.bytes bytes mode hf ▸ hparse

/-- What the sealed metadata hold was made with the randomness of the last sealing. -/
theorem HoldsObject.madeWith {s : SealedObject} (hs : HoldsObject E proc h s)
    (hf : h.files .metadata = some (.file bytes mode))
    (hb : sealedBytes E seed entropy pin key = some bytes) : MadeWith E entropy s := by
  obtain ⟨m, hload, hfrom⟩ := hs
  unfold sealedBytes at hb
  cases ho : sealObject E seed entropy pin key with
  | none => simp [ho] at hb
  | some sealed =>
    cases hm : Persist.toMetadata E sealed with
    | error e => simp [ho, hm, Except.toOption] at hb
    | ok m' =>
      cases hj : E.metadataJson.toVecPretty m' with
      | error e => simp [ho, hm, hj, Except.toOption] at hb
      | ok json =>
        obtain rfl : json = bytes := by simpa [ho, hm, hj, Except.toOption] using hb
        have hr : Returns (machine E noFault) (Persist.load E proc .metadata).run h (.ok m)
            (faultless E (Persist.load E proc .metadata).run h).2 :=
          hload ▸ returns_eval (fun _ _ => rfl) _ _
        have hparse : E.metadataJson.fromSlice json = .ok m := load_parses hf hr
        obtain rfl : m' = m :=
          Except.ok.inj ((E.metadataJson.fromSlice_toVecPretty hj).symm.trans hparse)
        obtain rfl : sealed = s := Except.ok.inj
          ((fromMetadata_toMetadata (reloadable_sealObject ho) hm).symm.trans hfrom)
        exact ⟨seed, pin, key, by rw [(sealObject_some ho).2]⟩

end Found

/-! ## The reseal -/

section Reseal

variable {E : Primitives} {may : Host → Op → Fault → Prop} {proc : Process} {h : Host}
  {recovery newPin : SecretBytes} {entropy : Bytes}

/-- Sealing again has nothing to do with the keyring. -/
theorem reseal_keyringless : AllOps Keyringless (reseal E proc recovery newPin entropy) := by
  have hseal : ∀ key, AllOps Keyringless (sealKey entropy newPin key) := fun key =>
    (Prog.all_call _ _).2 trivial
  have hunseal : ∀ sealed, AllOps Keyringless (unsealKey sealed newPin) := fun sealed =>
    (Prog.all_call _ _).2 trivial
  refine .bind (allOps_ensure _ _) fun _ => .bind (Prog.All.mono (fun _ => fileOnly_keyringless)
    (recoveredKey_fileOnly recovery)) fun key => ?_
  exact .bind ((hseal key).adapt _) fun sealed => .bind ((hunseal sealed).adapt _) fun _ =>
    .bind (allOps_ensure _ _) fun _ => .bind (AllOps.adapt (by trivial) _) fun m =>
      AllOps.adapt (Prog.All.mono (fun _ => fileOnly_keyringless) (save_fileOnly m .metadata)) _

theorem keyring_reaches {α : Type} {x : Io α} (hx : AllOps Keyringless x)
    {p' : Prog Op.Res (Except Error α)} {h' : Host} (hr : Reaches (machine E may) x.run h p' h') :
    h'.keyring = h.keyring := by
  have hkeep : wpe (machine E may) Eq (fun _ h' => h'.keyring = h.keyring) x
      (fun _ h' => h'.keyring = h.keyring) (fun _ h' => h'.keyring = h.keyring) h :=
    wpe_all hx (fun _ _ h hs => h ▸ hs) (fun h₁ o f ho _ hk =>
      ⟨(keyring_exec ho).trans hk, (keyring_exec ho).trans hk⟩) rfl
  exact Reaches.invariant (I := fun h' : Host => h'.keyring = h.keyring) hkeep rfl hr

/-- No other file is touched. -/
theorem ResealEnds.files_of_ne {v v' : View} {r : Except Error Unit} {a : Artifact}
    (he : ResealEnds E v recovery newPin entropy r v') (ha : a ≠ .metadata) :
    v'.files a = v.files a := by
  cases he with
  | failed => rfl
  | unsynced | resealed => exact View.files_place_of_ne v _ ha

/-- A reseal that fails has changed nothing, or it was the save that failed. -/
theorem reseal_fails :
    wpe (machine E may) Eq (fun _ _ => True) (reseal E proc recovery newPin entropy)
      (fun _ _ => True)
      (fun e h' => h'.view = h.view ∨ ∃ cause, e = resealTexts.persisting :: cause) h := by
  have hstable := stable_view (v := h.view) 0 (G := fun _ _ => True) fun _ _ _ => trivial
  refine wpe_seq (P := fun _ h' => h'.view = h.view)
    ((wpe_ensure ..).2 ⟨fun _ => rfl, fun _ => .inl rfl⟩) fun _ h₁ hv => ?_
  refine wpe_step (wpe_quiet hstable (recoveredKey_all recovery) hv) (fun _ _ => .inl)
    fun key h₁ hv => ?_
  have hseal : AllOps (Quiet 0) (sealKey entropy newPin key) := (Prog.all_call _ _).2 trivial
  refine wpe_step (wpe_quiet hstable (hseal.adapt _) hv) (fun _ _ => .inl) fun sealed h₁ hv => ?_
  refine wpe_step (wpe_quiet hstable ((unsealKey_all sealed newPin).adapt _) hv) (fun _ _ => .inl)
    fun unsealed h₁ hv => ?_
  refine wpe_seq (P := fun _ h' => h'.view = h.view)
    ((wpe_ensure ..).2 ⟨fun _ => hv, fun _ => .inl hv⟩) fun _ h₁ hv => ?_
  refine wpe_seq (P := fun _ h' => h'.view = h.view) ((wpe_adapt ..).2 (ofExcept_spec
    (fun _ _ => hv) fun _ => .inl hv)) fun m h₁ hv => ?_
  exact (wpe_adapt ..).2 (wpe_mono (wpe_true _ _) (fun _ _ _ => trivial)
    fun cause _ _ => .inr ⟨cause, rfl⟩)

/-- A key that is unsealed was not locked out, and is not after. -/
theorem unsealKey_unlocked (sealed : SealedObject) (pin : SecretBytes) :
    wpe (machine E may) Eq (fun _ _ => True) (unsealKey sealed pin)
      (fun _ h' => h'.tpm.lockout.isLockedOut = false) (fun _ _ => True) h := by
  refine (wp_call_alone ..).2 fun f _ => ⟨trivial, ?_⟩
  cases f with
  | ok =>
    change outcome _ _ (h.tpm.unsealKey E sealed pin).1 (h.setTpm (h.tpm.unsealKey E sealed pin).2)
    unfold Tpm.unsealKey
    split
    · trivial
    · split
      · trivial
      · split
        · trivial
        · rename_i hlocked
          split
          · exact Bool.eq_false_iff.2 hlocked
          · trivial
  | _ => trivial

/-- A reseal that succeeds leaves a TPM that unseals. -/
theorem reseal_unlocked :
    wpe (machine E may) Eq (fun _ _ => True) (reseal E proc recovery newPin entropy)
      (fun _ h' => h'.tpm.lockout.isLockedOut = false) (fun _ _ => True) h := by
  refine wpe_seq (P := fun _ _ => True) (wpe_true ..) fun _ h _ => ?_
  refine wpe_seq (P := fun _ _ => True) (wpe_true ..) fun key h _ => ?_
  refine wpe_seq (P := fun _ _ => True) (wpe_true ..) fun sealed h _ => ?_
  refine wpe_seq ((wpe_adapt ..).2 (unsealKey_unlocked sealed newPin)) fun unsealed h hl => ?_
  refine wpe_seq (P := fun _ h' => h'.tpm.lockout.isLockedOut = false)
    ((wpe_ensure ..).2 ⟨fun _ => hl, fun _ => trivial⟩) fun _ h hl => ?_
  refine wpe_seq (P := fun _ h' => h'.tpm.lockout.isLockedOut = false) ((wpe_adapt ..).2
    (ofExcept_spec (fun _ _ => hl) fun _ => trivial)) fun m h hl => ?_
  refine (wpe_adapt ..).2 (wpe_mono (wpe_fileOnly (save_fileOnly m .metadata) rfl)
    (fun _ h' hcount => ?_) fun _ _ _ => trivial)
  have hcount : h'.tpm.lockout = h.tpm.lockout := hcount
  rw [hcount]
  exact hl

/-- What a reseal has sealed: the key in the file that `recovery.json` leads to. -/
theorem reseal_seals :
    wpe (machine E may) Eq (fun _ _ => True) (reseal E proc recovery newPin entropy)
      (fun _ h' => ∃ key blob mode bytes, h.disk.stat (.main .recovery) = some (.file blob mode) ∧
        unwrapBytes E blob recovery = some key ∧
        sealedBytes E h.tpm.seed entropy newPin key = some bytes ∧
        h'.view = h.view.place .metadata bytes) (fun _ _ => True) h := by
  have hstable := stable_view (v := h.view) proc.pid (G := fun _ _ => True) fun _ _ _ => trivial
  refine wpe_seq (P := fun _ h' => h' = h)
    ((wpe_ensure ..).2 ⟨fun _ => rfl, fun _ => trivial⟩) ?_
  rintro _ h₁ rfl
  refine wpe_seq (wpe_guar (wpe_conj recoveredKey_reads (wpe_quiet hstable
    (recoveredKey_all recovery) rfl)) (fun _ _ _ => trivial) (fun _ _ => id)
      fun _ _ _ => trivial) ?_
  rintro key h₂ ⟨⟨blob, mode, hstat, hk⟩, hv⟩
  refine wpe_mono (@sealAndSave_spec _ _ _ h₁.tpm.seed _ _ (fun h => h.view = h₁.view) _ _ _ _
    ((sealedBytes E h₁.tpm.seed entropy newPin key).getD []) _ _ hstable
    (fun h hv => congrArg View.seed hv) (fun b hb => by simp [hb])
    (fun hb => placeRule proc.pid hb fun _ _ _ => trivial) _ _ hv) ?_ fun _ _ _ => trivial
  rintro _ h' ⟨hb, hv⟩
  exact ⟨key, blob, mode, _, hstat, hk, hb, hv⟩

end Reseal

/-- **Sealing again, end to end**, from every host and under any faults: the keyring and the other
files are never touched; a call that fails has left the sealed metadata, unless it is its save that
failed, and then with the new metadata in place and the directory not synced; and one that returns
has sealed the key that a recovery gets, in an object of its own making. -/
theorem reseal_endToEnd (E : Primitives) (may : Host → Op → Fault → Prop) (proc : Process)
    (recovery newPin : SecretBytes) (entropy : Bytes) (h : Host) :
    (∀ p' h', Reaches (machine E may) (reseal E proc recovery newPin entropy).run h p' h' →
      h'.keyring = h.keyring ∧ ∀ a ≠ .metadata, h'.files a = h.files a) ∧
    (∀ e h', Returns (machine E may) (reseal E proc recovery newPin entropy).run h (.error e) h' →
      h'.files .metadata = h.files .metadata ∨
        (∃ cause, e = resealTexts.persisting :: cause) ∧ ∃ bytes,
          h'.view = (h.view.place .metadata bytes).push (.unsynced .metadata)) ∧
    (∀ h', Returns (machine E may) (reseal E proc recovery newPin entropy).run h (.ok ()) h' →
      (∃ key, Obtains E (recoveredKey E proc recovery) h key ∧
        Obtains E (unsealWithPin E proc newPin) h' key ∧
        ((∃ bytes mode, h.files .recovery = some (.file bytes mode)) →
          Obtains E (recoveredKey E proc recovery) h' key)) ∧
      ∀ old, HoldsObject E proc h old → ¬ MadeWith E entropy old →
        ¬ HoldsObject E proc h' old) := by
  have hspec := @reseal_spec E may proc _ h recovery newPin entropy rfl
  refine ⟨fun p' h' hr => ⟨keyring_reaches reseal_keyringless hr, fun a ha => ?_⟩,
    fun e h' hr => ?_, fun h' hr => ?_⟩
  · obtain ⟨r, hends⟩ : ResealAmid E h.view recovery newPin entropy h'.view :=
      Reaches.invariant (I := fun h' : Host => ResealAmid E h.view recovery newPin entropy h'.view)
        hspec ⟨.error [], .failed []⟩ hr
    exact hends.files_of_ne ha
  · have hends := returns_error hspec hr
    have hwhere := returns_error reseal_fails hr
    generalize hv : h'.view = v' at hends hwhere
    have hfiles : h'.files = v'.files := congrArg View.files hv
    cases hends with
    | failed => exact .inl (congrFun hfiles _)
    | @unsynced bytes _ hb =>
      rcases hwhere with hsame | hcause
      · exact .inl ((congrFun hfiles _).trans (congrFun (congrArg View.files hsame) _))
      · exact .inr ⟨hcause, bytes, rfl⟩
  · obtain ⟨key, blob, mode, bytes, hstat, hk, hsealed, hv⟩ := returns_ok reseal_seals hr
    have hmeta : h'.files .metadata = some (.file bytes 0o600) :=
      (congrArg (View.files · .metadata) hv).trans (View.files_place_self ..)
    have hseed : h'.tpm.seed = h.tpm.seed := congrArg View.seed hv
    have hopens : unsealBytes E h'.tpm.seed bytes newPin = some key :=
      hseed ▸ (seals_sealedBytes hsealed).opens
    have hunlocked := returns_ok reseal_unlocked hr
    refine ⟨⟨key, obtains_recoveredKey hstat hk,
      obtains_unsealWithPin hmeta hopens hunlocked, ?_⟩,
      fun old _ hold hholds => hold (hholds.madeWith hmeta hsealed)⟩
    -- A recovery blob that is a regular file is still the one it was.
    rintro ⟨b, m, hb⟩
    have hrec : h'.files .recovery = some (.file b m) :=
      (congrArg (View.files · .recovery) hv).trans
        ((View.files_place_of_ne h.view bytes (by decide)).trans hb)
    obtain ⟨rfl, rfl⟩ := Node.file.inj (Option.some.inj
      ((Disk.stat_of_file (Host.at_eq_file.1 hb)).symm.trans hstat))
    exact obtains_recoveredKey (Disk.stat_of_file (Host.at_eq_file.1 hrec)) hk

open Sample in
/-- The reseal after a TPM clear gets the key back. -/
theorem reseal_endToEnd_resealed :
    ∃ key, Obtains sample (recoveredKey sample (proc 1) (draws 1 2).recoverySecret)
        ((enrolledWith []).2.clear 1) key ∧
      Obtains sample (unsealWithPin sample (proc 1) pin) (resealedWith []).2 key := by
  have hr : (resealedWith []).1 = .ok () := by decide +kernel
  obtain ⟨key, hrec, hpin, -⟩ := ((reseal_endToEnd sample anyFault (proc 1) _ pin [] _).2.2 _
    (returns_resealedWith hr)).1
  exact ⟨key, hrec, hpin⟩

end Tess

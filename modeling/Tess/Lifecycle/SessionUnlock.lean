import Tess.Enroll.Sample
import Tess.Lifecycle.Calls

/-!
# The two PIN unlocks

The PIN unlock of the PAM helper and the one of `tess unlock`, each a composition of its own. They
load, decode, unseal and unlock alike, and differ in what they take for success: `unlock` reads the
lock state back, and the helper is content with a daemon that accepted the call.

They are compared on a desk: a disk whose files are what they are, and a TPM and a keyring that
answer in any way that depends on their own state. What both have to get through is `Accepts`; the
helper succeeds then (`unsealAndUnlock_yields_iff`), and the command succeeds when the lock state is
then read to be open (`runUnlock_yields_iff`).
-/

namespace Tess

open Files Effects

variable (E : Primitives) (proc : Process)

/-! ## The calls -/

/-- The unlock of the PAM helper. Opening the sealer is a program of the TPM's. -/
def unsealAndUnlock (openTpm : Io Unit) (pin : SecretBytes) : Io Unit := do
  let metadata ← context ("load sealed metadata from " ++ proc.display (.main .metadata) ++
    " (is tess enrolled?)") (Persist.load E proc .metadata)
  let sealed ← context "decode the sealed object" (ofExcept (Persist.fromMetadata E metadata))
  context "open the TPM" openTpm
  let key ← context "unseal the keyring key with the PIN" (unsealKey sealed pin)
  context "unlock the login keyring with the unsealed key" (keyringUnlock key)

/-- `tess unlock` with a PIN. -/
def runUnlock (openTpm : Io Unit) (pin : SecretBytes) : Io Unit := do
  ensureEnrolled proc
  context "open the TPM" openTpm
  unlock E proc pin

/-! ## The desk -/

section Desk

variable {σ : Type}

/-- A disk on which nothing fails, and devices that answer as `B` says. -/
def desk (B : (o : Op) → σ → o.Res × σ) : Machine Op.Res (Disk Path × σ) Unit where
  exec
    | .file o, _, w => ((o.exec .ok w.1).1, (o.exec .ok w.1).2, w.2)
    | o, _, w => ((B o w.2).1, w.1, (B o w.2).2)
  may _ _ _ := True

/-- The metadata that a disk holds. -/
def Stored (d : Disk Path) (m : Metadata) : Prop :=
  ∃ bytes, (d.stat (.main .metadata)).elim (.error .notFound) FileOp.readNode = .ok bytes ∧
    E.metadataJson.fromSlice bytes = .ok m ∧ m.validateVersion = .ok ()

variable (B : (o : Op) → σ → o.Res × σ) (openTpm : Io Unit) (pin : SecretBytes)

/-- The stored metadata was unsealed with the PIN, the daemon has accepted the key, and `s` is what
the devices are in then. -/
def Accepts (w : Disk Path × σ) (s : σ) : Prop :=
  ∃ m sealed w₁ key s₁, Stored E w.1 m ∧ Persist.fromMetadata E m = .ok sealed ∧
    Yields (desk B) () openTpm w () w₁ ∧ B (.tpmUnseal sealed pin) w₁.2 = (.ok key, s₁) ∧
    B (.unlock key) s₁ = (.ok (), s)

/-- The two paths succeed on the same desks, and only with a keyring whose lock state reads open:
the one that the command reads itself after the accepted call, and the one that could be read after
the helper's. -/
structure PathsAgree (w : Disk Path × σ) : Prop where
  same : (∃ w', Yields (desk B) () (unsealAndUnlock E proc openTpm pin) w () w') ↔
    ∃ w', Yields (desk B) () (runUnlock E proc openTpm pin) w () w'
  session : ∀ w', Yields (desk B) () (unsealAndUnlock E proc openTpm pin) w () w' →
    (B .isLocked w'.2).1 = .ok false
  command : ∀ w', Yields (desk B) () (runUnlock E proc openTpm pin) w () w' →
    ∃ s, Accepts E B openTpm pin w s ∧ B .isLocked s = (.ok false, w'.2)

variable {E proc B openTpm pin} {w w' : Disk Path × σ}

/-! ## What the parts do -/

theorem yields_load_iff {m : Metadata} :
    Yields (desk B) () (Persist.load E proc .metadata) w m w' ↔ Stored E w.1 m ∧ w = w' := by
  have hread : ∀ {bytes u}, Yields (desk B) () (read (.main .metadata)) w bytes u ↔
      (w.1.stat (.main .metadata)).elim (.error .notFound) FileOp.readNode = .ok bytes ∧ w = u :=
    iff_of_eq (Prod.mk.injEq ..)
  unfold Persist.load
  simp only [yields_bind_iff, yields_adapt_iff, yields_pure_iff, hread, ofExcept,
    yields_mk_pure_iff]
  constructor
  · rintro ⟨bytes, _, ⟨hb, rfl⟩, m', _, ⟨hm, rfl⟩, ⟨⟩, _, ⟨hv, rfl⟩, rfl, rfl⟩
    exact ⟨⟨bytes, hb, mapError_eq_ok.1 hm, hv⟩, rfl⟩
  · rintro ⟨⟨bytes, hb, hm, hv⟩, rfl⟩
    exact ⟨bytes, w, ⟨hb, rfl⟩, m, w, ⟨by rw [hm]; rfl, rfl⟩, (), w, ⟨hv, rfl⟩, rfl, rfl⟩

theorem Stored.isSome {d : Disk Path} {m : Metadata} (h : Stored E d m) :
    (d.stat (.main .metadata)).isSome = true := by
  obtain ⟨bytes, hb, -⟩ := h
  cases hs : d.stat (.main .metadata) with
  | some n => rfl
  | none =>
    rw [hs] at hb
    cases hb

theorem yields_ensureEnrolled_iff {u : Unit} :
    Yields (desk B) () (ensureEnrolled proc) w u w' ↔
      (w.1.stat (.main .metadata)).isSome = true ∧ w = w' := by
  have hexists : ∀ {b u}, eval (desk B) () (pathExists (.main .metadata)) w = (b, u) ↔
      (w.1.stat (.main .metadata)).isSome = b ∧ w = u := iff_of_eq (Prod.mk.injEq ..)
  unfold ensureEnrolled
  simp only [yields_bind_iff, yields_lift_iff, yields_ensure_iff, hexists]
  constructor
  · rintro ⟨_, _, ⟨rfl, rfl⟩, hb, rfl⟩
    exact ⟨hb, rfl⟩
  · rintro ⟨hb, rfl⟩
    exact ⟨true, w, ⟨hb, rfl⟩, rfl, rfl⟩

/-- The answer of a device, and the state it leaves the devices in. -/
theorem answer_iff {ρ : Type} (w w' : Disk Path × σ) (r : ρ) (b : ρ × σ) :
    (b.1, w.1, b.2) = (r, w') ↔ b = (r, w'.2) ∧ w'.1 = w.1 := by
  obtain ⟨b, s⟩ := b
  obtain ⟨d, s'⟩ := w'
  simp only [Prod.mk.injEq]
  constructor
  · rintro ⟨rfl, rfl, rfl⟩
    exact ⟨⟨rfl, rfl⟩, rfl⟩
  · rintro ⟨⟨rfl, rfl⟩, rfl⟩
    exact ⟨rfl, rfl, rfl⟩

theorem yields_unsealKey_iff {sealed : SealedObject} {key : SecretBytes} :
    Yields (desk B) () (unsealKey sealed pin) w key w' ↔
      B (.tpmUnseal sealed pin) w.2 = (.ok key, w'.2) ∧ w'.1 = w.1 :=
  answer_iff w w' (Except.ok key) (B (.tpmUnseal sealed pin) w.2)

theorem yields_keyringUnlock_iff {key : SecretBytes} {u : Unit} :
    Yields (desk B) () (keyringUnlock key) w u w' ↔
      B (.unlock key) w.2 = (.ok (), w'.2) ∧ w'.1 = w.1 :=
  answer_iff w w' (Except.ok ()) (B (.unlock key) w.2)

theorem yields_keyringIsLocked_iff {locked : Bool} :
    Yields (desk B) () keyringIsLocked w locked w' ↔
      B .isLocked w.2 = (.ok locked, w'.2) ∧ w'.1 = w.1 :=
  answer_iff w w' (Except.ok locked) (B .isLocked w.2)

/-- A program of the devices leaves the disk alone. -/
theorem Yields.disk {α : Type} {x : Io α} {a : α} (hx : Yields (desk B) () x w a w')
    (hs : AllOps (fun o => ¬ FileOnly o) x) : w'.1 = w.1 := by
  have hkeeps : wp (desk B) Eq (fun _ _ => True) x.run (fun _ w' => w'.1 = w.1) w := by
    refine wp_all (P := fun v : Disk Path × σ => v.1 = w.1) hs ?_ ?_ rfl
    · rintro _ _ rfl hd
      exact hd
    · intro v o c ho _ hv
      cases o with
      | file o => exact absurd trivial ho
      | _ => exact ⟨trivial, hv⟩
  have hret := returns_eval (M := desk B) (c := ()) (fun _ _ => trivial) x.run w
  rw [show eval (desk B) () x.run w = (.ok a, w') from hx] at hret
  exact Returns.post (Q := fun _ v => v.1 = w.1) hkeeps hret

/-! ## The two paths -/

theorem unsealAndUnlock_yields_iff (ho : AllOps (fun o => ¬ FileOnly o) openTpm) :
    Yields (desk B) () (unsealAndUnlock E proc openTpm pin) w () w' ↔
      w'.1 = w.1 ∧ Accepts E B openTpm pin w w'.2 := by
  unfold unsealAndUnlock context ofExcept
  simp only [yields_bind_iff, yields_adapt_iff, yields_load_iff, yields_mk_pure_iff,
    yields_unsealKey_iff, yields_keyringUnlock_iff]
  constructor
  · rintro ⟨m, _, ⟨hm, rfl⟩, sealed, _, ⟨hs, rfl⟩, _, w₁, hopen, key, w₂, ⟨hkey, hd₂⟩, hun, hd'⟩
    have hd₁ : w₁.1 = w.1 := Yields.disk hopen ho
    exact ⟨hd'.trans (hd₂.trans hd₁), m, sealed, w₁, key, w₂.2, hm, hs, hopen, hkey, hun⟩
  · rintro ⟨hd, m, sealed, w₁, key, s₂, hm, hs, hopen, hkey, hun⟩
    have hd₁ : w₁.1 = w.1 := Yields.disk hopen ho
    exact ⟨m, w, ⟨hm, rfl⟩, sealed, w, ⟨hs, rfl⟩, (), w₁, hopen, key, (w.1, s₂),
      ⟨hkey, hd₁.symm⟩, hun, hd⟩

theorem runUnlock_yields_iff (ho : AllOps (fun o => ¬ FileOnly o) openTpm) :
    Yields (desk B) () (runUnlock E proc openTpm pin) w () w' ↔
      w'.1 = w.1 ∧ ∃ s, Accepts E B openTpm pin w s ∧ B .isLocked s = (.ok false, w'.2) := by
  unfold runUnlock unlock unsealWithPin unsealFrom unlockAndVerify context ofExcept
  simp only [yields_bind_iff, yields_adapt_iff, yields_ensureEnrolled_iff, yields_load_iff,
    yields_mk_pure_iff, yields_unsealKey_iff, yields_keyringUnlock_iff, yields_keyringIsLocked_iff,
    yields_ensure_iff]
  constructor
  · rintro ⟨_, _, ⟨-, rfl⟩, _, w₁, hopen, key, w₂, ⟨_, _, ⟨-, rfl⟩, m, _, ⟨hm, rfl⟩, sealed, _,
      ⟨hs, rfl⟩, hkey, hd₂⟩, _, w₃, ⟨hun, hd₃⟩, _, w₄, ⟨hlocked, hd₄⟩, rfl, rfl⟩
    have hd₁ : w₁.1 = w.1 := Yields.disk hopen ho
    rw [hd₁] at hm
    exact ⟨hd₄.trans (hd₃.trans (hd₂.trans hd₁)), w₃.2,
      ⟨m, sealed, w₁, key, w₂.2, hm, hs, hopen, hkey, hun⟩, hlocked⟩
  · rintro ⟨hd, s, ⟨m, sealed, w₁, key, s₂, hm, hs, hopen, hkey, hun⟩, hlocked⟩
    have hd₁ : w₁.1 = w.1 := Yields.disk hopen ho
    have hm₁ : Stored E w₁.1 m := by rwa [hd₁]
    exact ⟨(), w, ⟨hm.isSome, rfl⟩, (), w₁, hopen, key, (w.1, s₂), ⟨(), w₁, ⟨hm₁.isSome, rfl⟩,
      m, w₁, ⟨hm₁, rfl⟩, sealed, w₁, ⟨hs, rfl⟩, hkey, hd₁.symm⟩, (), (w.1, s), ⟨hun, rfl⟩,
      false, w', ⟨hlocked, hd⟩, rfl, rfl⟩

/-- **The two paths agree** on exactly the desks where the daemon has opened the keyring whenever it
accepts the unsealed key. -/
theorem pathsAgree_iff (ho : AllOps (fun o => ¬ FileOnly o) openTpm) :
    PathsAgree E proc B openTpm pin w ↔
      ∀ s, Accepts E B openTpm pin w s → (B .isLocked s).1 = .ok false := by
  constructor
  · intro h s hs
    exact h.session (w.1, s) ((unsealAndUnlock_yields_iff ho).2 ⟨rfl, hs⟩)
  · intro h
    refine ⟨⟨?_, ?_⟩, fun w' hw => ?_, fun w' hw => ?_⟩
    · rintro ⟨w', hw⟩
      have hs := ((unsealAndUnlock_yields_iff ho).1 hw).2
      exact ⟨(w.1, (B .isLocked w'.2).2), (runUnlock_yields_iff ho).2
        ⟨rfl, w'.2, hs, Prod.ext (h _ hs) rfl⟩⟩
    · rintro ⟨w', hw⟩
      obtain ⟨-, s, hs, -⟩ := (runUnlock_yields_iff ho).1 hw
      exact ⟨(w.1, s), (unsealAndUnlock_yields_iff ho).2 ⟨rfl, hs⟩⟩
    · exact h _ ((unsealAndUnlock_yields_iff ho).1 hw).2
    · exact ((runUnlock_yields_iff ho).1 hw).2

end Desk

/-! ## A daemon that is deaf -/

namespace Sample

/-- The devices of a host, with a daemon that may accept an unlock without doing it. -/
def devices (deaf : Bool) : (o : Op) → Host → o.Res × Host
  | .unlock secret, h => if deaf then (.ok (), h) else exec sample (.unlock secret) .ok h
  | o, h => exec sample o .ok h

/-- A key sealed by the TPM of `fresh`. -/
def sealedKey (key : SecretBytes) : SealedObject :=
  ⟨(create 0 [] pin key).1, (create 0 [] pin key).2, sample.primaryName 0⟩

/-- An enrolled user: the metadata on the disk, and a keyring that the key opens. -/
def enrolledDesk (key : SecretBytes) (m : Metadata) : Disk Path × Host :=
  (⟨fun p => if p = .main .metadata then some (.file (escapeAll [unary m.version, m.sealedPublic,
    m.sealedPrivate, m.primaryName]) 0o600) else none, 0⟩,
    { fresh with keyring := ⟨key, true, true⟩ })

theorem stored_enrolledDesk (key : SecretBytes) {m : Metadata} (hv : m.validateVersion = .ok ()) :
    Stored sample (enrolledDesk key m).1 m :=
  ⟨_, rfl, metadataJson.fromSlice_toVecPretty rfl, hv⟩

/-- What the enrolled user's metadata is. -/
def storedKey (key : SecretBytes) : Metadata :=
  Metadata.new .pinAuthValue (Base64.encode (sealedKey key).pub.contents)
    (Base64.encode (sealedKey key).priv) (Base64.encode (sealedKey key).primaryName)

theorem accepts_deaf : Accepts sample (devices true) (pure ()) pin
    (enrolledDesk [7] (storedKey [7])) (enrolledDesk [7] (storedKey [7])).2 :=
  ⟨storedKey [7], sealedKey [7], _, [7], _, stored_enrolledDesk [7] rfl, rfl, yields_pure _,
    rfl, rfl⟩

end Sample

/-- A daemon that does what it answers is open after an unlock it accepts. -/
theorem pathsAgree_iff_honest : PathsAgree sample (Sample.proc 1) (Sample.devices false) (pure ())
    Sample.pin (Sample.enrolledDesk [7] (Sample.storedKey [7])) := by
  apply (pathsAgree_iff (allOps_pure ())).2
  rintro s ⟨-, -, -, key, s₁, -, -, -, -, hun⟩
  have hun : (if key = s₁.keyring.credential ∧ Fault.ok = .ok then
      ((.ok () : Except Error Unit), s₁.setLocked false) else
      (.error (keyringError "unlock collection: refused"), s₁)) = (.ok (), s) := hun
  split at hun
  · obtain ⟨-, rfl⟩ := Prod.mk.inj hun
    rfl
  · cases hun

/-- With a daemon that accepts an unlock and stays locked, the helper reports success. -/
theorem not_pathsAgree_deaf : ¬ PathsAgree sample (Sample.proc 1) (Sample.devices true) (pure ())
    Sample.pin (Sample.enrolledDesk [7] (Sample.storedKey [7])) := by
  intro h
  have hok := h.session (Sample.enrolledDesk [7] (Sample.storedKey [7]))
    ((unsealAndUnlock_yields_iff (allOps_pure ())).2 ⟨rfl, Sample.accepts_deaf⟩)
  exact absurd hok (by decide)

end Tess

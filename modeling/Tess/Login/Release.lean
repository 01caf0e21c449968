import Tess.Effects.Monitors
import Tess.Effects.Related
import Tess.Lifecycle.SessionUnlock

/-!
# A release of the key

The two unlocks of a session on the host: one asks the TPM with a PIN, and one with the authValue of
the face. Each asks once, after it has looked at the files of the user, and hands what it gets to the
keyring with the very next call. What it does otherwise does not depend on the key.
-/

namespace Tess

namespace Session

open Effects Files

/-! ## The calls of a release -/

section Host

/-- A call that looks at a file and changes nothing. -/
def Looks {P : Type} : FileOp P → Prop
  | .pathExists _ | .isFile _ | .metadata _ | .read _ => True
  | _ => False

def Unseals : Tess.Op → Prop
  | .tpmUnseal .. => True
  | _ => False

/-- The calls that do no more than ask: for the files of the user, and for the state of the TPM and
of the keyring. -/
def Asks : Tess.Op → Prop
  | .file o => Looks o
  | .isLocked | .readCaps | .lockoutAuthIsSet => True
  | _ => False

/-- The last call was answered with the key. -/
def Unsealed (l : List (Answer Tess.Op.Res)) (key : SecretBytes) : Prop :=
  ∃ l₀ sealed auth, l = l₀ ++ [⟨.tpmUnseal sealed auth, .ok key⟩]

/-- A call that a release may make. The key is unsealed once, with an authValue that `authorized`
knows, and then goes to the keyring as it was unsealed, before anything else is asked. -/
def Allows (authorized : List (Answer Tess.Op.Res) → SecretBytes → Prop)
    (l : List (Answer Tess.Op.Res)) : Tess.Op → Prop
  | .tpmUnseal _ auth => authorized l auth ∧ ∀ e ∈ l, ¬ Unseals e.1
  | .unlock key => Unsealed l key
  | o => Asks o ∧ ∀ key, ¬ Unsealed l key

/-- No key is left undelivered, and a release that has succeeded was accepted by the keyring. -/
def Delivered (r : Except Error Unit) (l : List (Answer Tess.Op.Res)) : Prop :=
  (∀ key, ¬ Unsealed l key) ∧ (r = .ok () → ∃ key, ⟨.unlock key, .ok ()⟩ ∈ l)

variable {authorized : List (Answer Tess.Op.Res) → SecretBytes → Prop} {E : Primitives}
  {proc : Process} {l : List (Answer Tess.Op.Res)}

theorem Asks.allows {o : Tess.Op} (ho : Asks o) (hl : ∀ key, ¬ Unsealed l key) :
    Allows authorized l o := by
  cases o with
  | tpmUnseal | unlock => exact ho.elim
  | _ => exact ⟨ho, hl⟩

theorem Asks.not_unseals {o : Tess.Op} (ho : Asks o) : ¬ Unseals o := by
  cases o with
  | tpmUnseal => exact ho.elim
  | _ => exact id

theorem not_unsealed_nil (key : SecretBytes) : ¬ Unsealed [] key := by
  rintro ⟨l₀, sealed, auth, h⟩
  exact List.append_ne_nil_of_right_ne_nil _ (List.cons_ne_nil _ _) h.symm

/-- After another call no key is there to be delivered. -/
theorem not_unsealed_append {e : Answer Tess.Op.Res}
    (he : ∀ sealed auth key, e ≠ ⟨.tpmUnseal sealed auth, .ok key⟩) (key : SecretBytes) :
    ¬ Unsealed (l ++ [e]) key := by
  rintro ⟨l₀, sealed, auth, h⟩
  exact he sealed auth key (List.singleton_inj.1 (List.append_inj_right' h rfl))

theorem secures_asks {α : Type} {x : Tess.Io α} (hx : AllOps Asks x)
    (hl : ∀ key, ¬ Unsealed l key) :
    (Monitor.history (Allows authorized)).Secures x
      (fun r l' => (∀ key, ¬ Unsealed l' key) ∧
        ∃ l₁, l' = l ++ l₁ ∧ Ends x r l₁ ∧ ∀ e ∈ l₁, ¬ Unseals e.1) l := by
  refine (Monitor.secures_history (I := fun l => ∀ key, ¬ Unsealed l key) hx
    (fun _ _ ho hl => ho.allows hl) ?_ hl).mono ?_
  · rintro e l he - key
    refine not_unsealed_append ?_ key
    rintro sealed auth key rfl
    exact he
  · rintro r _ ⟨hidle, l₁, rfl, hends, hasks⟩
    exact ⟨hidle, l₁, rfl, hends, fun e he => (hasks e he).not_unseals⟩

theorem asks_ofExcept {α : Type} (x : Except Error α) : AllOps Asks (ofExcept x) := trivial

theorem asks_read (p : Path) : AllOps Asks (read p) := ⟨trivial, fun _ => trivial⟩

theorem asks_load (a : Artifact) : AllOps Asks (Persist.load E proc a) :=
  ((asks_read _).adapt _).bind fun _ => (asks_ofExcept _).bind fun _ =>
    (asks_ofExcept _).bind fun _ => allOps_pure _

theorem asks_readSecretFile (a : Artifact) : AllOps Asks (Recovery.readSecretFile proc a) := by
  have hstat : AllOps Asks (metadata (.main a)) := ⟨trivial, fun _ => trivial⟩
  exact (hstat.adapt _).bind fun _ => (allOps_ensure _ _).bind fun _ => (asks_read _).adapt _

theorem unsealKey_eq (sealed : SealedObject) (auth : SecretBytes) :
    unsealKey sealed auth = ask (.tpmUnseal sealed auth) id := rfl

theorem keyringUnlock_eq (key : SecretBytes) : keyringUnlock key = ask (.unlock key) id := rfl

theorem delivered_error (e : Error) (hl : ∀ key, ¬ Unsealed l key) : Delivered (.error e) l :=
  ⟨hl, nofun⟩

/-- A release: the key is unsealed, and then it goes to the keyring. -/
theorem release_secures {sealed : SealedObject} {auth : SecretBytes} {unsealing : String}
    {after : SecretBytes → Tess.Io Unit}
    (hauth : authorized l auth) (hfresh : ∀ e ∈ l, ¬ Unseals e.1)
    (hafter : ∀ key, (Monitor.history (Allows authorized)).Secures (after key) Delivered
      (l ++ [⟨.tpmUnseal sealed auth, .ok key⟩])) :
    (Monitor.history (Allows authorized)).Secures
      (context unsealing (unsealKey sealed auth) >>= after) Delivered l := by
  have hask : (Monitor.history (Allows authorized)).Secures (unsealKey sealed auth)
      (fun r l' => l' = l ++ [⟨.tpmUnseal sealed auth, r⟩]) l := by
    rw [unsealKey_eq]
    exact Monitor.secures_ask (And.intro hauth hfresh) fun _ _ => rfl
  refine Monitor.Secures.bind ((hask.mono ?_).adapt)
  rintro r _ rfl
  refine ⟨?_, ?_⟩
  · intro key hr
    obtain rfl := mapError_eq_ok.1 hr
    exact hafter key
  · intro e hr
    refine delivered_error e (not_unsealed_append ?_)
    rintro sealed' auth' key ⟨⟩
    cases hr

theorem keyringUnlock_secures {sealed : SealedObject} {auth key : SecretBytes} {what : String} :
    (Monitor.history (Allows authorized)).Secures (context what (keyringUnlock key)) Delivered
      (l ++ [⟨.tpmUnseal sealed auth, .ok key⟩]) := by
  have hallowed : Allows authorized (l ++ [⟨.tpmUnseal sealed auth, .ok key⟩]) (.unlock key) :=
    ⟨l, sealed, auth, rfl⟩
  have hask : (Monitor.history (Allows authorized)).Secures (keyringUnlock key)
      (fun r l' => l' = l ++ [⟨.tpmUnseal sealed auth, .ok key⟩] ++ [⟨.unlock key, r⟩])
      (l ++ [⟨.tpmUnseal sealed auth, .ok key⟩]) := by
    rw [keyringUnlock_eq]
    exact Monitor.secures_ask hallowed fun _ _ => rfl
  refine (hask.mono ?_).adapt
  rintro r _ rfl
  refine ⟨not_unsealed_append nofun, fun hr => ?_⟩
  obtain rfl := mapError_eq_ok.1 hr
  exact ⟨key, List.mem_append_right _ List.mem_cons_self⟩

/-- The unlock by the PIN asks the TPM for the key once, with the PIN. -/
theorem unsealAndUnlock_secures {openTpm : Tess.Io Unit} (hopen : AllOps Asks openTpm)
    (pin : SecretBytes) :
    (Monitor.history (Allows fun _ auth => auth = pin)).Secures
      (unsealAndUnlock E proc openTpm pin) Delivered [] := by
  unfold unsealAndUnlock
  refine Monitor.Secures.bind ((secures_asks ((asks_load _).adapt _) not_unsealed_nil).mono ?_)
  rintro r _ ⟨hidle, l₁, rfl, -, hl₁⟩
  refine ⟨fun metadata _ => ?_, fun e _ => delivered_error e hidle⟩
  refine Monitor.Secures.bind ((secures_asks ((asks_ofExcept _).adapt _) hidle).mono ?_)
  rintro r _ ⟨hidle, l₂, rfl, -, hl₂⟩
  refine ⟨fun sealed _ => ?_, fun e _ => delivered_error e hidle⟩
  refine Monitor.Secures.bind ((secures_asks (hopen.adapt _) hidle).mono ?_)
  rintro r _ ⟨hidle, l₃, rfl, -, hl₃⟩
  refine ⟨fun _ _ => release_secures rfl ?_ fun _ => keyringUnlock_secures,
    fun e _ => delivered_error e hidle⟩
  simp only [List.mem_append]
  rintro e ((he | he) | he)
  · exact hl₁ e he
  · exact hl₂ e he
  · exact hl₃ e he

/-- The authValue of the face is what its file holds. -/
def FaceKey (l : List (Answer Tess.Op.Res)) (auth : SecretBytes) : Prop :=
  ⟨.file (.read (.main .faceKey)), .ok auth⟩ ∈ l

theorem readSecretFile_ok {a : Artifact} {secret : SecretBytes}
    (h : Ends (Recovery.readSecretFile proc a) (.ok secret) l) :
    ⟨.file (.read (.main a)), .ok secret⟩ ∈ l := by
  unfold Recovery.readSecretFile at h
  obtain ⟨_, ⟨⟩, -⟩ | ⟨found, l₁, l₂, rfl, -, h₂⟩ := ends_bind_iff.1 h
  obtain ⟨_, ⟨⟩, -⟩ | ⟨_, l₃, l₄, rfl, -, h₄⟩ := ends_bind_iff.1 h₂
  obtain ⟨r, hread, hr⟩ := ends_adapt_iff.1 h₄
  obtain ⟨x, rfl, rfl⟩ := ends_ask_iff.1 (show Ends (ask (.file (.read (.main a))) id) r l₄ from hread)
  obtain rfl := mapError_eq_ok.1 hr.symm
  exact List.mem_append_right _ (List.mem_append_right _ List.mem_cons_self)

theorem asks_faceFilesExist : faceFilesExist.All Asks :=
  ⟨trivial, fun there => by cases there <;> first | trivial | exact ⟨trivial, fun _ => trivial⟩⟩

theorem unlockAndVerify_secures {sealed : SealedObject} {auth key : SecretBytes} {what : String} :
    (Monitor.history (Allows authorized)).Secures (unlockAndVerify key what) Delivered
      (l ++ [⟨.tpmUnseal sealed auth, .ok key⟩]) := by
  have hlocked : AllOps Asks keyringIsLocked := (Prog.all_call _ _).2 trivial
  refine Monitor.Secures.bind (keyringUnlock_secures.mono ?_)
  rintro r l ⟨hidle, hok⟩
  refine ⟨fun u hr => ?_, fun e _ => delivered_error e hidle⟩
  obtain ⟨key', hkey⟩ := hok hr
  refine (secures_asks ((hlocked.adapt _).bind fun _ => allOps_ensure _ _) hidle).mono ?_
  rintro r _ ⟨hidle, l₁, rfl, -⟩
  exact ⟨hidle, fun _ => ⟨key', List.mem_append_left _ hkey⟩⟩

/-- The unlock by face asks the TPM for the key once, with the authValue in the file. -/
theorem unlockWithFace_secures :
    (Monitor.history (Allows FaceKey)).Secures (unlockWithFace E proc) Delivered [] := by
  unfold unlockWithFace unsealWithFace unsealFrom
  simp only [bind_assoc]
  refine Monitor.Secures.bind ((secures_asks (allOps_lift asks_faceFilesExist)
    not_unsealed_nil).mono ?_)
  rintro r _ ⟨hidle, l₁, rfl, -, hl₁⟩
  refine ⟨fun there _ => ?_, fun e _ => delivered_error e hidle⟩
  refine Monitor.Secures.bind ((secures_asks (allOps_ensure _ _) hidle).mono ?_)
  rintro r _ ⟨hidle, l₂, rfl, -, hl₂⟩
  refine ⟨fun _ _ => ?_, fun e _ => delivered_error e hidle⟩
  refine Monitor.Secures.bind ((secures_asks ((asks_readSecretFile _).adapt _) hidle).mono ?_)
  rintro r _ ⟨hidle, l₃, rfl, hread, hl₃⟩
  refine ⟨?_, fun e _ => delivered_error e hidle⟩
  rintro aFace rfl
  refine Monitor.Secures.bind ((secures_asks ((asks_load _).adapt _) hidle).mono ?_)
  rintro r _ ⟨hidle, l₄, rfl, -, hl₄⟩
  refine ⟨fun metadata _ => ?_, fun e _ => delivered_error e hidle⟩
  refine Monitor.Secures.bind ((secures_asks ((asks_ofExcept _).adapt _) hidle).mono ?_)
  rintro r _ ⟨hidle, l₅, rfl, -, hl₅⟩
  refine ⟨fun sealed _ => release_secures ?_ ?_ fun _ => unlockAndVerify_secures,
    fun e _ => delivered_error e hidle⟩
  · obtain ⟨r, hread, hr⟩ := ends_adapt_iff.1 hread
    obtain rfl := mapError_eq_ok.1 hr.symm
    exact List.mem_append_left _ (List.mem_append_left _ (List.mem_append_right _
      (readSecretFile_ok hread)))
  · simp only [List.mem_append]
    rintro e ((((he | he) | he) | he) | he)
    · exact hl₁ e he
    · exact hl₂ e he
    · exact hl₃ e he
    · exact hl₄ e he
    · exact hl₅ e he

/-! ## What does not depend on the key -/

/-- The call as it is made where the TPM has released the key `f key` in place of `key`. -/
def rekeyed (f : SecretBytes → SecretBytes) : Answer Tess.Op.Res → Answer Tess.Op.Res
  | ⟨.tpmUnseal sealed auth, .ok key⟩ => ⟨.tpmUnseal sealed auth, .ok (f key)⟩
  | ⟨.unlock key, y⟩ => ⟨.unlock (f key), y⟩
  | e => e

variable {f : SecretBytes → SecretBytes}

theorem Asks.rekeyed {e : Answer Tess.Op.Res} (he : Asks e.1) : Session.rekeyed f e = e := by
  obtain ⟨o, y⟩ := e
  cases o with
  | tpmUnseal | unlock => exact he.elim
  | _ => rfl

theorem carries_asks {α : Type} {x : Tess.Io α} (hx : AllOps Asks x) :
    Carries (rekeyed f) x x := carries_of_allOps hx fun _ he => he.rekeyed

/-- The key goes from the TPM to what follows. -/
theorem carries_release {sealed : SealedObject} {auth : SecretBytes} {unsealing : String}
    {after : SecretBytes → Tess.Io Unit}
    (hafter : ∀ key, Carries (rekeyed f) (after key) (after (f key))) :
    Carries (rekeyed f) (context unsealing (unsealKey sealed auth) >>= after)
      (context unsealing (unsealKey sealed auth) >>= after) := by
  have hask : context unsealing (unsealKey sealed auth) =
      ask (.tpmUnseal sealed auth) fun y => y.mapError (unsealing :: ·) := rfl
  rw [hask]
  refine carries_ask_bind fun y => ?_
  cases y with
  | error e => exact ⟨.error e, rfl, .inl ⟨_, rfl, rfl⟩⟩
  | ok key => exact ⟨.ok (f key), rfl, .inr ⟨key, f key, rfl, rfl, hafter key⟩⟩

theorem carries_keyringUnlock (key : SecretBytes) (what : String) :
    Carries (rekeyed f) (context what (keyringUnlock key))
      (context what (keyringUnlock (f key))) := by
  have hask : Carries (rekeyed f) (keyringUnlock key) (keyringUnlock (f key)) := by
    rw [keyringUnlock_eq, keyringUnlock_eq]
    exact carries_ask fun y => ⟨y, rfl, rfl⟩
  exact hask.adapt _

/-- **An unlock by the PIN** is the same for every key but in the calls that carry the key. -/
theorem carries_unsealAndUnlock {openTpm : Tess.Io Unit} (hopen : AllOps Asks openTpm)
    (pin : SecretBytes) :
    Carries (rekeyed f) (unsealAndUnlock E proc openTpm pin)
      (unsealAndUnlock E proc openTpm pin) := by
  unfold unsealAndUnlock
  refine (carries_asks ((asks_load _).adapt _)).bind fun metadata => ?_
  refine (carries_asks ((asks_ofExcept _).adapt _)).bind fun sealed => ?_
  refine (carries_asks (hopen.adapt _)).bind fun _ => ?_
  exact carries_release fun key => carries_keyringUnlock key _

/-- **An unlock by face** is the same for every key but in the calls that carry the key. -/
theorem carries_unlockWithFace :
    Carries (rekeyed f) (unlockWithFace E proc) (unlockWithFace E proc) := by
  have hlocked : AllOps Asks keyringIsLocked := (Prog.all_call _ _).2 trivial
  unfold unlockWithFace unsealWithFace unsealFrom
  simp only [bind_assoc]
  refine (carries_asks (allOps_lift asks_faceFilesExist)).bind fun there => ?_
  refine (carries_asks (allOps_ensure _ _)).bind fun _ => ?_
  refine (carries_asks ((asks_readSecretFile _).adapt _)).bind fun aFace => ?_
  refine (carries_asks ((asks_load _).adapt _)).bind fun metadata => ?_
  refine (carries_asks ((asks_ofExcept _).adapt _)).bind fun sealed => ?_
  refine carries_release fun key => (carries_keyringUnlock key _).bind fun _ => ?_
  exact carries_asks ((hlocked.adapt _).bind fun _ => allOps_ensure _ _)

end Host

end Session

end Tess

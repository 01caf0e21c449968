import Tess.Login.Release
import Tess.Login.Session

/-!
# What the helper does with the key

Whom the TPM releases the key to, what becomes of it, that nothing else depends on it, and that neither
the face nor the fingerprint stands in the way of the PIN.
-/

namespace Tess

namespace Session

open Text Effects Files Pam

section Helper

variable {F : Type}

def UnsealsKey : Op F → Prop
  | .host o => Unseals o
  | _ => False

def ReadsPin : Op F → Prop
  | .readStdin _ => True
  | _ => False

/-- A PIN of an allowed length was read, and no key has been asked for since. -/
def Supplied (l : List (Event F)) (pin : SecretBytes) : Prop :=
  ∃ before after, l = before ++ ⟨.readStdin (maxPinBytes + 1), .ok pin⟩ :: after ∧ pin ≠ [] ∧
    pin.length ≤ maxPinBytes ∧ ∀ e ∈ after, ¬ UnsealsKey e.1

/-- The TPM has released the key with the last call. -/
def Released (l : List (Event F)) (key : SecretBytes) : Prop :=
  ∃ l₀ sealed auth, l = l₀ ++ [⟨.host (.tpmUnseal sealed auth), .ok key⟩]

/-- No key is on its way to the keyring. -/
def Idle (l : List (Event F)) : Prop := ∀ key, ¬ Released l key

/-- Neither a key nor a PIN has been asked for. -/
def Early (l : List (Event F)) : Prop := ∀ e ∈ l, ¬ UnsealsKey e.1 ∧ ¬ ReadsPin e.1

/-- A call of the store that looks at a file, or that makes its directory and closes it to others. -/
def LooksUp (env : Env) : Mug.EnrollStore.Op → Prop
  | .file (.createDirAll dir) => enrollStore env = .ok dir
  | .file (.setDirPermissions dir mode) => enrollStore env = .ok dir ∧ mode = 0o700
  | .file o => Looks o
  | _ => False

/-- The text is one for the journal, on how the face or the fingerprint went. -/
def Says (text : String) : Prop :=
  (∃ release : FaceRelease, text = release.report) ∨ ∃ gate : FingerprintGate, text = gate.report

/-! ### Keys on their way -/

section Idle

variable {l : List (Event F)}

theorem idle_nil : Idle ([] : List (Event F)) := by
  rintro key ⟨l₀, sealed, auth, h⟩
  exact List.append_ne_nil_of_right_ne_nil _ (List.cons_ne_nil _ _) h.symm

theorem idle_append {e : Event F}
    (he : ∀ sealed auth key, e ≠ ⟨.host (.tpmUnseal sealed auth), .ok key⟩) : Idle (l ++ [e]) := by
  rintro key ⟨l₀, sealed, auth, h⟩
  exact he sealed auth key (List.singleton_inj.1 (List.append_inj_right' h rfl))

theorem idle_of_quiet {l' : List (Event F)} (hl : Idle l) (hl' : ∀ e ∈ l', ¬ UnsealsKey e.1) :
    Idle (l ++ l') := by
  obtain rfl | ⟨l₁, e, rfl⟩ := l'.eq_nil_or_concat
  · rwa [List.append_nil]
  · rw [List.concat_eq_append, ← List.append_assoc]
    refine idle_append ?_
    rintro sealed auth key rfl
    exact hl' ⟨.host (.tpmUnseal sealed auth), .ok key⟩ (by simp) trivial

theorem Early.idle (hl : Early l) : Idle l := by
  simpa using idle_of_quiet idle_nil fun e he => (hl e he).1

theorem Early.append {l' : List (Event F)} (hl : Early l) (hl' : Early l') : Early (l ++ l') := by
  intro e he
  obtain he | he := List.mem_append.1 he
  · exact hl e he
  · exact hl' e he

theorem Supplied.idle {pin : SecretBytes} (h : Supplied l pin) : Idle l := by
  obtain ⟨before, after, rfl, -, -, hafter⟩ := h
  have hread : Idle (before ++ [⟨.readStdin (maxPinBytes + 1), .ok pin⟩]) := idle_append nofun
  simpa using idle_of_quiet hread hafter

theorem Supplied.append {pin : SecretBytes} {l' : List (Event F)} (h : Supplied l pin)
    (hl' : ∀ e ∈ l', ¬ UnsealsKey e.1) : Supplied (l ++ l') pin := by
  obtain ⟨before, after, rfl, hne, hlen, hafter⟩ := h
  refine ⟨before, after ++ l', by simp, hne, hlen, ?_⟩
  intro e he
  obtain he | he := List.mem_append.1 he
  · exact hafter e he
  · exact hl' e he

/-- A release on the host that has delivered its key leaves none on its way. -/
theorem idle_host {m : List (Answer Tess.Op.Res)} (hl : Idle l) (hm : ∀ key, ¬ Unsealed m key) :
    Idle (l ++ m.map (hostPart F).answer) := by
  obtain rfl | ⟨m₁, e, rfl⟩ := m.eq_nil_or_concat
  · simpa using hl
  · rw [List.concat_eq_append, List.map_append, ← List.append_assoc]
    refine idle_append fun sealed auth key he => hm key ⟨m₁, sealed, auth, ?_⟩
    obtain ⟨o, y⟩ := e
    cases he
    rw [List.concat_eq_append]

/-- No key is on its way, and a helper that says that the keyring is open was told so. -/
def Done {α : Type} (good : α) (r : Except (Stop Error) α) (l : List (Event F)) : Prop :=
  Idle l ∧ (r = .ok good → ∃ key, ⟨.host (.unlock key), .ok ()⟩ ∈ l)

theorem Idle.done {α : Type} {good : α} {r : Except (Stop Error) α} (hl : Idle l)
    (hr : r ≠ .ok good) : Done good r l := ⟨hl, fun h => absurd h hr⟩

end Idle

section Lookups

variable (J : Mug.EnrollmentJson F) (env : Env)

/-- The enrollment is that of the user, as it was read from the store. -/
def LoadedFor (l : List (Event F)) (enrolled : Mug.FaceEnrollment F) : Prop :=
  ∃ dir username path bytes, enrollStore env = .ok dir ∧ currentUsername env = .ok username ∧
    Mug.EnrollStore.userPath (F := F) dir (String.ofList username) = .ok path ∧
    ⟨.store (.file (.read path)), .ok bytes⟩ ∈ l ∧ J.fromSlice bytes = .ok enrolled

variable {J env} {l : List (Event F)}

/-- What the fingerprint says is written to the journal, and nothing is asked of the host. -/
def IsFprint : Op F → Prop
  | .connectFprint _ | .fprint _ => True
  | .eprintln text => ∃ gate : FingerprintGate, text = gate.report
  | _ => False

theorem IsFprint.not_unsealsKey {o : Op F} (ho : IsFprint o) : ¬ UnsealsKey o := by
  cases o with
  | host => exact ho.elim
  | _ => exact id

theorem fprint_fingerprintLeg (enabled : Bool) (rounds : ℕ) :
    AllOps IsFprint (fingerprintLeg enabled env rounds : Io F Unit) := by
  unfold fingerprintLeg fingerprintFrontGate
  split_ifs
  · refine AllOps.bind ((allOps_ask trivial _).bind fun connected => ?_) fun gate =>
      allOps_ask ⟨gate, rfl⟩ _
    cases connected with
    | error e => exact allOps_pure _
    | ok => exact (Part.allOps_liftT (fun _ => trivial) _).settle.bind fun _ => allOps_pure _
  · exact allOps_pure _

/-- A call of the face, before a key is asked for. -/
def Looking (env : Env) (face : Bool) : Op F → Prop
  | .host o => Asks o
  | .store o => LooksUp env o
  | .face _ => face = true
  | _ => False

variable {face : Bool}

theorem Looking.first {o : Op F} (ho : Looking env face o) : ¬ UnsealsKey o ∧ ¬ ReadsPin o := by
  cases o with
  | host o => exact ⟨Asks.not_unseals ho, id⟩
  | readStdin => exact ho.elim
  | _ => exact ⟨id, id⟩

theorem looking_host {α : Type} {x : Tess.Io α} (hx : AllOps Asks x) :
    AllOps (Looking env face) (host x : Io F α) := (Part.AllOps.liftT hx fun _ => id).adapt _

theorem looking_store {α ε : Type} {x : Mug.EnrollStore.Io F α} (hx : AllOps (LooksUp env) x)
    (f : Mug.MugError F → ε) :
    AllOps (Looking env face) (ExceptT.adapt f ((storePart F).liftT x)) :=
  (Part.AllOps.liftT hx fun _ => id).adapt _

theorem looksUp_load {dir : PathBuf} (hdir : enrollStore env = .ok dir) (username : String) :
    AllOps (LooksUp env) (Mug.EnrollStore.load J dir username) := by
  have hensure : AllOps (LooksUp env) (Mug.EnrollStore.ensureDir (F := F) dir) := by
    have hcall : ∀ o : FileOp PathBuf, LooksUp env (.file o) →
        (Mug.EnrollStore.sys o).All (LooksUp env) := fun _ ho => (Prog.all_call _ _).2 ho
    exact (allOps_lift (hcall (.pathExists dir) trivial)).bind fun _ =>
      (AllOps.unlessThen (AllOps.adapt (hcall (.createDirAll dir) hdir) _) _).bind fun _ =>
        (AllOps.adapt (hcall (.metadata dir) trivial) _).bind fun _ =>
          (allOps_ensure _ _).bind fun _ =>
            AllOps.unlessThen (AllOps.adapt (hcall (.setDirPermissions dir 0o700) ⟨hdir, rfl⟩) _) _
  refine hensure.bind fun _ => (allOps_ofResult _).bind fun path => AllOps.bind ?_ fun r => ?_
  · exact allOps_lift ((Prog.all_call _ _).2 trivial)
  · split
    · exact (allOps_ofResult _).bind fun _ => (allOps_ofResult _).bind fun _ => allOps_pure _
    · exact allOps_pure _
    · exact allOps_throw _

theorem looking_faceEnrolled : AllOps (Looking env face) (faceEnrolled env : Io F Bool) := by
  have hstore : ∀ dir username,
      AllOps (LooksUp env) (Mug.EnrollStore.isEnrolled (F := F) dir username) :=
    fun _ _ => (allOps_ofResult _).bind fun _ => allOps_lift ((Prog.all_call _ _).2 trivial)
  have hpresent : AllOps (Looking env face) (templatePresent env : Io F Bool) := by
    unfold templatePresent
    generalize enrollStore env = dir
    generalize currentUsername env = username
    cases dir with
    | error e => exact allOps_pure _
    | ok dir =>
      cases username with
      | error e => exact allOps_pure _
      | ok username =>
        refine (looking_store (hstore _ _) _).settle.bind fun there => ?_
        cases there with
        | ok => exact allOps_pure _
        | error => exact allOps_pure _
  refine (looking_host (allOps_lift asks_faceFilesExist)).bind fun there => ?_
  cases there with
  | true => exact hpresent
  | false => exact allOps_pure _

theorem looking_loadEnrollment (fmt : Login.Formatter F) :
    AllOps (Looking env face) (loadEnrollment J fmt env) :=
  allOps_ofResult_bind fun _ hdir => (allOps_ofResult _).bind fun _ =>
    looking_store (looksUp_load (mapError_eq_ok.1 hdir) _) _

theorem loadEnrollment_ok {fmt : Login.Formatter F} {enrolled : Mug.FaceEnrollment F}
    (h : Ends (loadEnrollment J fmt env) (.ok (some enrolled)) l) :
    LoadedFor J env l enrolled := by
  unfold loadEnrollment at h
  obtain ⟨_, -, ⟨⟩, -⟩ | ⟨dir, hdir, h₁⟩ := ends_ofResult_bind_iff.1 h
  obtain ⟨_, -, ⟨⟩, -⟩ | ⟨username, husername, h₂⟩ := ends_ofResult_bind_iff.1 h₁
  obtain ⟨r, hlift, hr⟩ := ends_adapt_iff.1 h₂
  obtain rfl := mapError_eq_ok.1 hr.symm
  obtain ⟨l₀, hload, rfl⟩ := Part.ends_liftT_iff.1 hlift
  unfold Mug.EnrollStore.load at hload
  obtain ⟨_, ⟨⟩, -⟩ | ⟨_, l₁, l₂, rfl, -, h₄⟩ := ends_bind_iff.1 hload
  obtain ⟨_, -, ⟨⟩, -⟩ | ⟨path, hpath, h₅⟩ := ends_ofResult_bind_iff.1 h₄
  obtain ⟨x, l₃, rfl, ⟨_, -, ⟨⟩, -⟩ | ⟨bytes, hx, h₆⟩⟩ := ends_ask_bind_iff.1
    (show Ends (ask (.file (.read path)) .ok >>= _) _ l₂ from h₅)
  obtain rfl := Except.ok.inj hx
  split at h₆
  next bytes =>
    obtain ⟨_, -, ⟨⟩, -⟩ | ⟨t, ht, h₇⟩ := ends_ofResult_bind_iff.1 h₆
    obtain ⟨_, -, ⟨⟩, -⟩ | ⟨_, -, h₈⟩ := ends_ofResult_bind_iff.1 h₇
    obtain ⟨hsome, -⟩ := ends_pure_iff.1 h₈
    obtain rfl := Option.some.inj (Except.ok.inj hsome)
    refine ⟨dir, username, path, bytes, mapError_eq_ok.1 hdir, mapError_eq_ok.1 husername, hpath, ?_,
      mapError_eq_ok.1 ht⟩
    exact List.mem_map_of_mem (List.mem_append_right _ List.mem_cons_self)
  · obtain ⟨⟨⟩, -⟩ := ends_pure_iff.1 h₆
  · obtain ⟨⟨⟩, -⟩ := ends_throw_iff.1 h₆

theorem LoadedFor.append {enrolled : Mug.FaceEnrollment F}
    (h : LoadedFor J env l enrolled) (l' : List (Event F)) : LoadedFor J env (l' ++ l) enrolled := by
  obtain ⟨dir, username, path, bytes, hdir, husername, hpath, hread, hparse⟩ := h
  exact ⟨dir, username, path, bytes, hdir, husername, hpath, List.mem_append_right _ hread, hparse⟩

end Lookups

section Custody

variable [Field F] [LinearOrder F] (J : Mug.EnrollmentJson F) (env : Env)
  (fromStr : Text → Except String (Login.FaceConfig F)) (faceModel : Bool) (K : Mug.Kernels F)
  (face : Bool)

/-- The face of the user was let in before anything else was tried, and its authValue was read. -/
structure FaceAttempt (l : List (Event F)) (auth : SecretBytes) : Prop where
  enabled : face = true
  first : Early l
  key : ⟨.host (.file (.read (.main .faceKey))), .ok auth⟩ ∈ l
  letIn : ∃ enrolled cfg m before after, l = before ++ m.map (facePart F).answer ++ after ∧
    LoadedFor J env before enrolled ∧ Login.Configured env fromStr cfg m ∧
    Login.Verified env faceModel K enrolled cfg m

/-- What may be asked while no key is on its way. The key is unsealed with the PIN or with the
authValue of a face that was let in, each once. The store and the camera are for the face, before any
of that; a PIN is read once, and the fingerprint is asked for only after it; and nothing is written,
save that the directory of the store may be made. -/
def May (l : List (Event F)) : Op F → Prop
  | .connectKeyring => l = []
  | .host (.tpmUnseal _ auth) =>
    Supplied l auth ∨ FaceAttempt J env fromStr faceModel K face l auth
  | .host o => Asks o
  | .store o => LooksUp env o ∧ Early l
  | .face _ => face = true ∧ Early l
  | .connectFprint _ | .fprint _ => ∃ pin, Supplied l pin
  | .readStdin _ => ∀ e ∈ l, ¬ ReadsPin e.1
  | .eprintln text => Says text

/-- A key that was released goes to the keyring before anything else is done, and no other key does. -/
def Permits (l : List (Event F)) : Op F → Prop
  | .host (.unlock key) => Released l key
  | o => Idle l ∧ May J env fromStr faceModel K face l o

def custody : Monitor (Op.Res (F := F)) (List (Event F)) :=
  .history (Permits J env fromStr faceModel K face)

variable {J env fromStr faceModel K face} {l : List (Event F)}

theorem custody_next (e : Event F) :
    (custody J env fromStr faceModel K face).next l e = l ++ [e] := rfl

/-- What is said to the journal changes nothing. -/
theorem secures_eprintln {α : Type} {text : String} {a good : α} (htext : Says text)
    (h : Done good (.ok a) l) :
    (custody J env fromStr faceModel K face).Secures
      (eprintln text >>= fun _ => pure a : Io F α) (Done good) l := by
  refine Monitor.secures_ask_bind ⟨h.1, htext⟩ (fun _ _ _ _ => Monitor.secures_pure ?_) fun _ _ _ =>
    nofun
  rw [custody_next]
  refine ⟨idle_append nofun, fun hr => ?_⟩
  obtain ⟨key, hkey⟩ := h.2 hr
  exact ⟨key, List.mem_append_left _ hkey⟩

/-- A release on the host, where the helper has what it is authorized by. -/
theorem host_secures {authorized : List (Answer Tess.Op.Res) → SecretBytes → Prop}
    {x : Tess.Io Unit} (hl : Idle l)
    (hx : (Monitor.history (Allows authorized)).Secures x Delivered [])
    (hauth : ∀ m auth, authorized m auth → (∀ e ∈ m, ¬ Unseals e.1) →
      Supplied (l ++ m.map (hostPart F).answer) auth ∨
        FaceAttempt J env fromStr faceModel K face (l ++ m.map (hostPart F).answer) auth) :
    (custody J env fromStr faceModel K face).Secures (host x : Io F Unit) (Done ()) l := by
  intro r l' hl'
  obtain ⟨r₀, hlift, rfl⟩ := ends_adapt_iff.1 hl'
  obtain ⟨m, hends, rfl⟩ := Part.ends_liftT_iff.1 hlift
  obtain ⟨hguard, hpost⟩ := hx r₀ m hends
  refine ⟨Monitor.guarded_history.2 ?_, fun _ => ?_⟩
  · intro before e rest heq
    obtain ⟨m₁, m₂, rfl, rfl, hm₂⟩ := List.map_eq_append_iff.1 heq
    obtain ⟨e₀, m₃, rfl, rfl, -⟩ := List.map_eq_cons_iff.1 hm₂
    have hallows := Monitor.guarded_history.1 hguard m₁ e₀ m₃ rfl
    rw [List.nil_append] at hallows
    obtain ⟨o, y⟩ := e₀
    cases o with
    | tpmUnseal sealed auth =>
      have hquiet : ∀ key, ¬ Unsealed m₁ key := by
        rintro key ⟨l₀, sealed, auth, rfl⟩
        exact hallows.2 ⟨.tpmUnseal sealed auth, .ok key⟩ (by simp) trivial
      exact ⟨idle_host hl hquiet, hauth m₁ auth hallows.1 hallows.2⟩
    | unlock key =>
      obtain ⟨l₀, sealed, auth, rfl⟩ := hallows
      exact ⟨l ++ l₀.map (hostPart F).answer, sealed, auth, by simp; rfl⟩
    | _ => exact ⟨idle_host hl hallows.2, hallows.1⟩
  · have hdone := hpost Monitor.trusted_history
    rw [Monitor.after_history, List.nil_append] at hdone
    rw [custody, Monitor.after_history]
    refine ⟨idle_host hl hdone.1, fun hr => ?_⟩
    obtain ⟨key, hkey⟩ := hdone.2 (mapError_eq_ok.1 hr)
    exact ⟨key, List.mem_append_right _ (List.mem_map_of_mem hkey)⟩

/-! ### The PIN -/

theorem readPin_secures (hidle : Idle l) (hl : ∀ e ∈ l, ¬ ReadsPin e.1) :
    (custody J env fromStr faceModel K face).Secures (readPinFromStdin : Io F SecretBytes)
      (fun r l' => Idle l' ∧ ∀ pin, r = .ok pin → Supplied l' pin) l := by
  unfold readPinFromStdin
  have hread : ∀ y, Idle (l ++ [(⟨.readStdin (maxPinBytes + 1), y⟩ : Event F)]) := fun y =>
    idle_append nofun
  refine Monitor.secures_ask_bind ⟨hidle, hl⟩ ?_ fun y _ _ _ => ⟨hread y, nofun⟩
  intro y buf _ hy
  obtain rfl := mapError_eq_ok.1 hy
  refine Monitor.secures_ensure_bind (fun hne => ?_) fun _ => ⟨hread _, nofun⟩
  refine Monitor.secures_ensure_bind (fun hlen => Monitor.secures_pure ?_) fun _ => ⟨hread _, nofun⟩
  refine ⟨hread _, ?_⟩
  rintro pin ⟨⟩
  exact ⟨l, [], rfl, hne, hlen, List.forall_mem_nil _⟩

theorem fingerprintLeg_secures {pin : SecretBytes} (enabled : Bool) (rounds : ℕ)
    (h : Supplied l pin) :
    (custody J env fromStr faceModel K face).Secures
      (fingerprintLeg enabled env rounds : Io F Unit) (fun _ l' => Supplied l' pin) l := by
  refine Monitor.secures_invariant (I := fun l => Supplied l pin) (fprint_fingerprintLeg ..) ?_ ?_ h
  · intro o l ho hl
    cases o with
    | connectFprint | fprint => exact ⟨hl.idle, pin, hl⟩
    | eprintln => exact ⟨hl.idle, .inr ho⟩
    | _ => exact ho.elim
  · intro e l he hl
    rw [custody_next]
    refine hl.append fun e' he' => ?_
    obtain rfl := List.mem_singleton.1 he'
    exact he.not_unsealsKey

theorem pinLeg_secures {E : Primitives} {openTpm : Tess.Io Unit} (hopen : AllOps Asks openTpm)
    (rounds : ℕ) (fingerprint : Bool) (proc : Process) (hidle : Idle l)
    (hl : ∀ e ∈ l, ¬ ReadsPin e.1) :
    (custody J env fromStr faceModel K face).Secures
      (pinLeg E env openTpm rounds fingerprint proc : Io F Unit) (Done ()) l := by
  unfold pinLeg
  refine Monitor.Secures.bind ((readPin_secures hidle hl).mono ?_)
  rintro r l₁ ⟨hidle₁, hpin⟩
  refine ⟨fun pin hr => ?_, fun e _ => hidle₁.done nofun⟩
  refine Monitor.Secures.bind ((fingerprintLeg_secures fingerprint rounds (hpin pin hr)).mono ?_)
  intro r l₂ hsupplied
  refine ⟨fun _ _ => ?_, fun e _ => hsupplied.idle.done nofun⟩
  refine host_secures hsupplied.idle (unsealAndUnlock_secures hopen pin) ?_
  rintro m _ rfl hfresh
  refine .inl (hsupplied.append fun e he => ?_)
  obtain ⟨e₀, he₀, rfl⟩ := List.mem_map.1 he
  exact hfresh e₀ he₀

/-! ### The face -/

theorem Looking.permits {o : Op F} (ho : Looking env face o) (hl : Early l) :
    Permits J env fromStr faceModel K face l o := by
  cases o with
  | host o =>
    cases o with
    | tpmUnseal | unlock => exact ho.elim
    | _ => exact ⟨hl.idle, ho⟩
  | store | face => exact ⟨hl.idle, ho, hl⟩
  | _ => exact ho.elim

theorem secures_looking {α : Type} {x : Io F α} (hx : AllOps (Looking env face) x) (hl : Early l) :
    (custody J env fromStr faceModel K face).Secures x
      (fun r l' => Early l' ∧ ∃ l₁, l' = l ++ l₁ ∧ Ends x r l₁) l := by
  refine (Monitor.secures_history (I := Early) hx (fun _ _ ho hl => ho.permits hl) ?_ hl).mono ?_
  · intro e l he hl
    exact hl.append fun e' he' => List.mem_singleton.1 he' ▸ he.first
  · rintro r _ ⟨hearly, l₁, rfl, hends, -⟩
    exact ⟨hearly, l₁, rfl, hends⟩

theorem releaseWithFace_secures {E : Primitives} {openTpm : Tess.Io Unit}
    (hopen : AllOps Asks openTpm) (proc : Process) (hl : Early l)
    (h : ∀ auth l', Early (l ++ l') → ⟨.host (.file (.read (.main .faceKey))), .ok auth⟩ ∈ l' →
      FaceAttempt J env fromStr faceModel K face (l ++ l') auth) :
    (custody J env fromStr faceModel K face).Secures
      (releaseWithFace E openTpm proc : Io F FaceRelease) (Done .unlocked) l := by
  unfold releaseWithFace
  refine Monitor.Secures.bind ((secures_looking (looking_host hopen).settle hl).mono ?_)
  rintro r _ ⟨hearly, l₁, rfl, -⟩
  refine ⟨fun opened _ => ?_, fun e _ => hearly.idle.done nofun⟩
  cases opened with
  | error e => exact Monitor.secures_pure (hearly.idle.done nofun)
  | ok =>
    refine Monitor.Secures.bind (Monitor.Secures.settle
      ((host_secures hearly.idle unlockWithFace_secures ?_).mono ?_))
    · intro m auth hkey hfresh
      have hearly' : Early (l ++ (l₁ ++ m.map (hostPart F).answer)) := by
        rw [← List.append_assoc]
        refine hearly.append fun e he => ?_
        obtain ⟨e₀, he₀, rfl⟩ := List.mem_map.1 he
        exact ⟨hfresh e₀ he₀, id⟩
      rw [List.append_assoc]
      exact .inr (h auth _ hearly' (List.mem_append_right _ (List.mem_map_of_mem hkey)))
    · rintro r l₂ ⟨hidle, hunlock⟩
      refine ⟨fun outcome hr => ?_, fun e _ => hidle.done nofun⟩
      cases outcome with
      | error e => exact Monitor.secures_pure (hidle.done nofun)
      | ok =>
        refine Monitor.secures_pure ⟨hidle, fun _ => hunlock ?_⟩
        obtain (_ | _) | _ := r
        · cases hr
        · cases hr
        · rfl

variable {E : Primitives} {fmt : Login.Formatter F} {openTpm : Tess.Io Unit} {rounds : ℕ}

theorem looking_verify (enrolled : Mug.FaceEnrollment F) :
    AllOps (Looking env true) ((facePart F).liftT
      (Login.verifyFromEnv fmt env fromStr faceModel K enrolled rounds)) :=
  Part.allOps_liftT (fun _ => rfl) _

theorem faceFrontUnlock_secures (hopen : AllOps Asks openTpm) (proc : Process) (hl : Early l) :
    (custody J env fromStr faceModel K true).Secures
      (faceFrontUnlock E J fmt env fromStr faceModel K openTpm rounds proc)
      (Done .unlocked) l := by
  unfold faceFrontUnlock
  refine Monitor.Secures.bind ((secures_looking looking_faceEnrolled hl).mono ?_)
  rintro r _ ⟨hearly, l₁, rfl, -⟩
  refine ⟨fun enrolled _ => ?_, fun e _ => hearly.idle.done nofun⟩
  cases enrolled with
  | false => exact Monitor.secures_pure (hearly.idle.done nofun)
  | true =>
    refine Monitor.Secures.bind
      ((secures_looking (looking_loadEnrollment fmt).settle hearly).mono ?_)
    rintro r _ ⟨hearly, l₂, rfl, hload⟩
    refine ⟨?_, fun e _ => hearly.idle.done nofun⟩
    rintro ((e | (_ | enrolled))) rfl
    · exact Monitor.secures_pure (hearly.idle.done nofun)
    · exact Monitor.secures_pure (hearly.idle.done nofun)
    · refine Monitor.Secures.bind
        ((secures_looking (looking_verify enrolled).settle hearly).mono ?_)
      rintro r _ ⟨hearly, l₃, rfl, hends⟩
      refine ⟨?_, fun e _ => hearly.idle.done nofun⟩
      rintro (e | _) rfl
      · exact Monitor.secures_pure (hearly.idle.done nofun)
      · refine releaseWithFace_secures hopen proc hearly fun auth l₄ hfirst hkey =>
          ⟨rfl, hfirst, List.mem_append_right _ hkey, ?_⟩
        obtain ⟨m, hm, rfl⟩ := Part.ends_liftT_iff.1 (ends_settle_ok_iff.1 hends)
        obtain ⟨cfg, hconfigured, hverified⟩ := Login.verifyFromEnv_ok hm
        refine ⟨enrolled, cfg, m, l ++ l₁ ++ l₂, l₄, rfl, ?_, hconfigured, hverified⟩
        exact (loadEnrollment_ok (ends_settle_ok_iff.1 hload)).append _

theorem faceLeg_secures (hopen : AllOps Asks openTpm) (proc : Process) (hl : Early l) :
    (custody J env fromStr faceModel K face).Secures
      (faceLeg E J fmt env fromStr faceModel K openTpm rounds face proc) (Done true) l := by
  unfold faceLeg
  cases face with
  | false => exact Monitor.secures_pure (hl.idle.done nofun)
  | true =>
    refine Monitor.Secures.bind ((faceFrontUnlock_secures hopen proc hl).mono ?_)
    rintro r l₁ ⟨hidle, hunlock⟩
    refine ⟨?_, fun e _ => hidle.done nofun⟩
    rintro (_ | reason) rfl
    · exact secures_eprintln (.inl ⟨_, rfl⟩) ⟨hidle, fun _ => hunlock rfl⟩
    · exact secures_eprintln (.inl ⟨_, rfl⟩) (hidle.done nofun)

theorem noPin_faceLeg (proc : Process) :
    AllOps (fun o => ¬ ReadsPin o)
      (faceLeg E J fmt env fromStr faceModel K openTpm rounds face proc) := by
  have hlooking : ∀ {β : Type} {x : Io F β}, AllOps (Looking env face) x →
      AllOps (fun o => ¬ ReadsPin o) x := fun hx => hx.mono fun _ ho => ho.first.2
  have hhost : ∀ {β : Type} (x : Tess.Io β), AllOps (fun o => ¬ ReadsPin o) (host x : Io F β) :=
    fun x => (Part.allOps_liftT (fun _ => id) x).adapt _
  have hrelease : AllOps (fun o => ¬ ReadsPin o)
      (releaseWithFace E openTpm proc : Io F FaceRelease) := by
    refine (hhost _).settle.bind fun opened => ?_
    cases opened with
    | error => exact allOps_pure _
    | ok =>
      refine (hhost _).settle.bind fun outcome => ?_
      cases outcome with
      | error => exact allOps_pure _
      | ok => exact allOps_pure _
  have hfront : AllOps (fun o => ¬ ReadsPin o)
      (faceFrontUnlock E J fmt env fromStr faceModel K openTpm rounds proc) := by
    refine (hlooking looking_faceEnrolled).bind fun enrolled => ?_
    cases enrolled with
    | false => exact allOps_pure _
    | true =>
      refine (hlooking (looking_loadEnrollment fmt)).settle.bind fun loaded => ?_
      obtain e | (_ | enrolled) := loaded
      · exact allOps_pure _
      · exact allOps_pure _
      · refine AllOps.bind (Part.allOps_liftT (fun _ => id) _).settle fun verified => ?_
        cases verified with
        | error => exact allOps_pure _
        | ok => exact hrelease
  unfold faceLeg
  cases face with
  | false => exact allOps_pure _
  | true =>
    refine hfront.bind fun release => ?_
    cases release with
    | unlocked => exact (allOps_ask id _).bind fun _ => allOps_pure _
    | fallback => exact (allOps_ask id _).bind fun _ => allOps_pure _

/-! ### What does not depend on the key -/

/-- The call as it is made where the TPM has released the key `f key` in place of `key`. -/
def rekeyedCall (f : SecretBytes → SecretBytes) : Event F → Event F
  | ⟨.host o, y⟩ => (hostPart F).answer (rekeyed f ⟨o, y⟩)
  | e => e

/-- A call that neither returns a key nor carries one. -/
def Keyless : Op F → Prop
  | .host o => Asks o
  | _ => True

variable {f : SecretBytes → SecretBytes}

omit [Field F] [LinearOrder F] in
theorem carries_keyless {α : Type} {x : Io F α} (hx : AllOps Keyless x) :
    Carries (rekeyedCall f) x x := by
  refine carries_of_allOps hx ?_
  rintro ⟨o, y⟩ he
  cases o with
  | host o =>
    have hsame : rekeyed f ⟨o, y⟩ = ⟨o, y⟩ := Asks.rekeyed he
    rw [rekeyedCall, hsame]
    rfl
  | _ => rfl

omit [Field F] [LinearOrder F] in
theorem carries_host {α : Type} {x x' : Tess.Io α} (h : Carries (rekeyed f) x x') :
    Carries (rekeyedCall f) (host x : Io F α) (host x') := by
  refine Carries.adapt ?_ _
  intro r l hl
  obtain ⟨m, hends, rfl⟩ := Part.ends_liftT_iff.1 hl
  refine Part.ends_liftT_iff.2 ⟨m.map (rekeyed f), h _ _ hends, ?_⟩
  rw [List.map_map, List.map_map]
  rfl

omit [Field F] [LinearOrder F] in
theorem Looking.keyless {o : Op F} (ho : Looking env face o) : Keyless o := by
  cases o with
  | host => exact ho
  | _ => exact trivial

omit [Field F] [LinearOrder F] in
theorem carries_pinLeg (hopen : AllOps Asks openTpm) (fingerprint : Bool) (proc : Process) :
    Carries (rekeyedCall f) (pinLeg E env openTpm rounds fingerprint proc : Io F Unit)
      (pinLeg E env openTpm rounds fingerprint proc) := by
  have hpin : AllOps Keyless (readPinFromStdin : Io F SecretBytes) :=
    (allOps_ask trivial _).bind fun _ => (allOps_ensure _ _).bind fun _ =>
      (allOps_ensure _ _).bind fun _ => allOps_pure _
  have hfprint : AllOps Keyless (fingerprintLeg fingerprint env rounds : Io F Unit) :=
    (fprint_fingerprintLeg fingerprint rounds).mono fun o ho => by
      cases o with
      | host => exact ho.elim
      | _ => exact trivial
  refine (carries_keyless hpin).bind fun pin => (carries_keyless hfprint).bind fun _ => ?_
  exact carries_host (carries_unsealAndUnlock hopen pin)

theorem carries_faceLeg (hopen : AllOps Asks openTpm) (proc : Process) :
    Carries (rekeyedCall f)
      (faceLeg E J fmt env fromStr faceModel K openTpm rounds face proc)
      (faceLeg E J fmt env fromStr faceModel K openTpm rounds face proc) := by
  have hlooking : ∀ {β : Type} {x : Io F β}, AllOps (Looking env true) x →
      Carries (rekeyedCall f) x x := fun hx => carries_keyless (hx.mono fun _ ho => ho.keyless)
  have hpure : ∀ {β : Type} (b : β), Carries (rekeyedCall f) (pure b : Io F β) (pure b) :=
    fun b => carries_keyless (allOps_pure b)
  have hrelease : Carries (rekeyedCall f) (releaseWithFace E openTpm proc : Io F FaceRelease)
      (releaseWithFace E openTpm proc) := by
    refine (hlooking (looking_host hopen)).settle.bind fun opened => ?_
    cases opened with
    | error => exact hpure _
    | ok =>
      refine (carries_host carries_unlockWithFace).settle.bind fun outcome => ?_
      cases outcome with
      | error => exact hpure _
      | ok => exact hpure _
  have hfront : Carries (rekeyedCall f)
      (faceFrontUnlock E J fmt env fromStr faceModel K openTpm rounds proc)
      (faceFrontUnlock E J fmt env fromStr faceModel K openTpm rounds proc) := by
    refine (hlooking looking_faceEnrolled).bind fun enrolled => ?_
    cases enrolled with
    | false => exact hpure _
    | true =>
      refine (hlooking (looking_loadEnrollment fmt)).settle.bind fun loaded => ?_
      obtain e | (_ | enrolled) := loaded
      · exact hpure _
      · exact hpure _
      · refine (hlooking (looking_verify enrolled)).settle.bind fun verified => ?_
        cases verified with
        | error => exact hpure _
        | ok => exact hrelease
  have hsaid : ∀ {β : Type} (text : String) (b : β), Carries (rekeyedCall f)
      (eprintln text >>= fun _ => pure b : Io F β) (eprintln text >>= fun _ => pure b) :=
    fun text b => carries_keyless ((allOps_ask trivial _).bind fun _ => allOps_pure b)
  unfold faceLeg
  cases face with
  | false => exact hpure _
  | true =>
    refine hfront.bind fun release => ?_
    cases release with
    | unlocked => exact hsaid _ _
    | fallback => exact hsaid _ _

/-- **No call but the two that carry the key depends on it**: had the TPM released other keys, the
helper would have made the same calls with them, and would have ended in the same way. -/
theorem carries_runPamHelper (hopen : AllOps Asks openTpm) (fingerprint : Bool) (pid : ℕ) :
    Carries (rekeyedCall f)
      (runPamHelper E J fmt env fromStr faceModel K openTpm rounds fingerprint face pid)
      (runPamHelper E J fmt env fromStr faceModel K openTpm rounds fingerprint face pid) := by
  refine (carries_keyless (allOps_ofResult _)).bind fun dir => ?_
  refine (carries_keyless (allOps_ask trivial _)).bind fun _ => ?_
  refine (carries_faceLeg hopen _).bind fun unlocked => ?_
  cases unlocked with
  | true => exact carries_keyless (allOps_pure _)
  | false => exact carries_pinLeg hopen fingerprint _

/-! ### The whole -/

theorem runPamHelper_secures (hopen : AllOps Asks openTpm) (fingerprint : Bool) (pid : ℕ) :
    (custody J env fromStr faceModel K face).Secures
      (runPamHelper E J fmt env fromStr faceModel K openTpm rounds fingerprint face pid)
      (Done ()) [] := by
  unfold runPamHelper
  refine Monitor.Secures.bind (Monitor.secures_ofResult ⟨fun dir _ => ?_, fun e _ =>
    idle_nil.done nofun⟩)
  have hearly : ∀ y, Early [(⟨.connectKeyring, y⟩ : Event F)] := by
    intro y e he
    obtain rfl := List.mem_singleton.1 he
    exact ⟨id, id⟩
  refine Monitor.secures_ask_bind ⟨idle_nil, rfl⟩ (fun y _ _ _ => ?_) fun y _ _ _ =>
    (hearly y).idle.done nofun
  refine Monitor.Secures.bind (((faceLeg_secures hopen _ (hearly y)).allOps
    (noPin_faceLeg _)).mono ?_)
  rintro r _ ⟨⟨hidle, hunlock⟩, l, rfl, hl⟩
  refine ⟨fun unlocked hr => ?_, fun e _ => hidle.done nofun⟩
  cases unlocked with
  | true => exact Monitor.secures_pure ⟨hidle, fun _ => hunlock hr⟩
  | false =>
    refine pinLeg_secures hopen rounds fingerprint _ hidle fun e he => ?_
    obtain he | he := List.mem_append.1 he
    · exact (hearly y e he).2
    · exact hl e he

/-- **The custody of the key.** Whatever is answered, the helper asks the TPM for the key at most
twice: with the authValue of the face, after the face of the user was let in, and with the PIN that
was read. The next call takes what it gets to the keyring, nothing else depends on it, and nothing is
written. The helper succeeds only if the keyring has accepted such a key. -/
theorem runPamHelper_custody (hopen : AllOps Asks openTpm) {fingerprint : Bool} {pid : ℕ}
    {r : Except (Stop Error) Unit}
    (h : Ends (runPamHelper E J fmt env fromStr faceModel K openTpm rounds fingerprint face pid)
      r l) :
    (custody J env fromStr faceModel K face).Guarded [] l ∧ Idle l ∧
      (r = .ok () → ∃ key, ⟨.host (.unlock key), .ok ()⟩ ∈ l) ∧
      ∀ f, Ends (runPamHelper E J fmt env fromStr faceModel K openTpm rounds fingerprint face pid)
        r (l.map (rekeyedCall f)) := by
  obtain ⟨hguard, hpost⟩ := runPamHelper_secures hopen fingerprint pid r l h
  have hdone := hpost Monitor.trusted_history
  rw [custody, Monitor.after_history, List.nil_append] at hdone
  exact ⟨hguard, hdone.1, hdone.2, fun f => carries_runPamHelper hopen fingerprint pid r l h⟩

/-! ### The PIN decides -/

omit [Field F] [LinearOrder F] in
theorem unfailing_host_lift {α : Type} (p : Prog Tess.Op.Res α) :
    Unfailing (host (liftM p) : Io F α) := by
  intro e l h
  obtain ⟨r₀, hlift, hr⟩ := ends_adapt_iff.1 h
  obtain ⟨m, hends, -⟩ := Part.ends_liftT_iff.1 hlift
  obtain ⟨a, _, _, -, -, hpure⟩ := traces_bind_iff.1 hends
  obtain ⟨rfl, -⟩ := traces_pure_iff.1 hpure
  cases hr

theorem unfailing_faceLeg (proc : Process) :
    Unfailing (faceLeg E J fmt env fromStr faceModel K openTpm rounds face proc) := by
  have hpresent : Unfailing (templatePresent env : Io F Bool) := by
    unfold templatePresent
    generalize enrollStore env = dir
    generalize currentUsername env = username
    cases dir with
    | error e => exact unfailing_pure _
    | ok dir =>
      cases username with
      | error e => exact unfailing_pure _
      | ok username =>
        refine (unfailing_settle _).bind fun there => ?_
        cases there with
        | ok => exact unfailing_pure _
        | error => exact unfailing_pure _
  have hrelease : Unfailing (releaseWithFace E openTpm proc : Io F FaceRelease) := by
    refine (unfailing_settle _).bind fun opened => ?_
    cases opened with
    | error => exact unfailing_pure _
    | ok =>
      refine (unfailing_settle _).bind fun outcome => ?_
      cases outcome with
      | error => exact unfailing_pure _
      | ok => exact unfailing_pure _
  have hfront : Unfailing
      (faceFrontUnlock E J fmt env fromStr faceModel K openTpm rounds proc) := by
    refine Unfailing.bind ((unfailing_host_lift _).bind fun there => ?_) fun enrolled => ?_
    · cases there with
      | true => exact hpresent
      | false => exact unfailing_pure _
    cases enrolled with
    | false => exact unfailing_pure _
    | true =>
      refine (unfailing_settle _).bind fun loaded => ?_
      obtain e | (_ | enrolled) := loaded
      · exact unfailing_pure _
      · exact unfailing_pure _
      · refine (unfailing_settle _).bind fun verified => ?_
        cases verified with
        | error => exact unfailing_pure _
        | ok => exact hrelease
  unfold faceLeg
  cases face with
  | false => exact unfailing_pure _
  | true =>
    refine hfront.bind fun release => ?_
    cases release with
    | unlocked => exact (unfailing_ask _).bind fun _ => unfailing_pure _
    | fallback => exact (unfailing_ask _).bind fun _ => unfailing_pure _

omit [Field F] [LinearOrder F] in
theorem unfailing_fingerprintLeg (enabled : Bool) :
    Unfailing (fingerprintLeg enabled env rounds : Io F Unit) := by
  unfold fingerprintLeg fingerprintFrontGate
  split_ifs
  · refine Unfailing.bind ((unfailing_ask id).bind fun connected => ?_) fun _ => unfailing_ask _
    cases connected with
    | error e => exact unfailing_pure _
    | ok => exact (unfailing_settle _).bind fun _ => unfailing_pure _
  · exact unfailing_pure _

omit [Field F] [LinearOrder F] in
/-- A PIN leg is one without a fingerprint, into which the calls of the fingerprint are put. -/
theorem pinLeg_legs {fingerprint : Bool} {proc : Process} {r : Except (Stop Error) Unit}
    (h : Ends (pinLeg E env openTpm rounds fingerprint proc : Io F Unit) r l)
    (hr : r ≠ .error .running) :
    ∃ l₂ m₂ l₃, l = l₂ ++ m₂ ++ l₃ ∧
      Ends (pinLeg E env openTpm rounds false proc : Io F Unit) r (l₂ ++ l₃) ∧
      (fingerprint = false → m₂ = []) ∧ ∀ e ∈ m₂, IsFprint e.1 := by
  unfold pinLeg at h ⊢
  obtain ⟨e, rfl, hpin⟩ | ⟨pin, l₂, l', rfl, hpin, h'⟩ := ends_bind_iff.1 h
  · exact ⟨l, [], [], by simp, by simpa using ends_bind_iff.2 (.inl ⟨e, rfl, hpin⟩), fun _ => rfl,
      List.forall_mem_nil _⟩
  obtain ⟨e, rfl, hfprint⟩ | ⟨_, m₂, l₃, rfl, hfprint, hunlock⟩ := ends_bind_iff.1 h'
  · obtain rfl := unfailing_fingerprintLeg fingerprint e _ hfprint
    exact absurd rfl hr
  · refine ⟨l₂, m₂, l₃, (List.append_assoc ..).symm, ?_, ?_,
      (fprint_fingerprintLeg fingerprint rounds).ends hfprint⟩
    · exact ends_bind_iff.2 (.inr ⟨pin, l₂, l₃, rfl, hpin,
        ends_bind_iff.2 (.inr ⟨(), [], l₃, rfl, .pure _, hunlock⟩)⟩)
    · rintro rfl
      exact (ends_pure_iff.1 hfprint).2

/-- **Only the PIN stands between the legs and the keyring.** A run that is not ended by an unlock by
face, before any PIN was read, is a run of the helper with neither leg, into which the calls of the
face and of the fingerprint are put: whatever these legs meet with, the outcome is the one that the
PIN has without them. -/
theorem runPamHelper_legs {fingerprint : Bool} {pid : ℕ} {r : Except (Stop Error) Unit}
    (h : Ends (runPamHelper E J fmt env fromStr faceModel K openTpm rounds fingerprint face pid)
      r l) (hr : r ≠ .error .running) :
    (face = true ∧ r = .ok () ∧ ∀ e ∈ l, ¬ ReadsPin e.1) ∨
      ∃ l₁ m₁ l₂ m₂ l₃, l = l₁ ++ m₁ ++ l₂ ++ m₂ ++ l₃ ∧
        Ends (runPamHelper E J fmt env fromStr faceModel K openTpm rounds false false pid) r
          (l₁ ++ l₂ ++ l₃) ∧
        (face = false → m₁ = []) ∧ (fingerprint = false → m₂ = []) ∧
        (∀ e ∈ m₁, ¬ ReadsPin e.1) ∧ ∀ e ∈ m₂, IsFprint e.1 := by
  unfold runPamHelper at h ⊢
  obtain ⟨e, hdir, rfl, rfl⟩ | ⟨dir, hdir, h₁⟩ := ends_ofResult_bind_iff.1 h
  · refine .inr ⟨[], [], [], [], [], rfl, ?_, fun _ => rfl, fun _ => rfl, List.forall_mem_nil _,
      List.forall_mem_nil _⟩
    exact ends_ofResult_bind_iff.2 (.inl ⟨e, hdir, rfl, rfl⟩)
  obtain ⟨x, l', rfl, ⟨e, hx, rfl, rfl⟩ | ⟨_, hx, h₂⟩⟩ := ends_ask_bind_iff.1 h₁
  · refine .inr ⟨[_], [], [], [], [], rfl, ?_, fun _ => rfl, fun _ => rfl, List.forall_mem_nil _,
      List.forall_mem_nil _⟩
    exact ends_ofResult_bind_iff.2 (.inr ⟨dir, hdir,
      ends_ask_bind_iff.2 ⟨x, [], rfl, .inl ⟨e, hx, rfl, rfl⟩⟩⟩)
  obtain ⟨e, rfl, hface⟩ | ⟨unlocked, m₁, l'', rfl, hface, h₃⟩ := ends_bind_iff.1 h₂
  · obtain rfl := unfailing_faceLeg _ e _ hface
    exact absurd rfl hr
  have hnoPin := (noPin_faceLeg _).ends hface
  cases unlocked with
  | true =>
    obtain ⟨rfl, rfl⟩ := ends_pure_iff.1 h₃
    refine .inl ⟨?_, rfl, ?_⟩
    · cases face with
      | true => rfl
      | false =>
        obtain ⟨⟨⟩, -⟩ := ends_pure_iff.1 hface
    · simp only [List.append_nil, List.mem_cons]
      rintro e (rfl | he)
      · exact id
      · exact hnoPin e he
  | false =>
    obtain ⟨l₂, m₂, l₃, rfl, hpin, hnone, hfprint⟩ := pinLeg_legs h₃ hr
    refine .inr ⟨[_], m₁, l₂, m₂, l₃, by simp; rfl, ?_, ?_, hnone, hnoPin, hfprint⟩
    · refine ends_ofResult_bind_iff.2 (.inr ⟨dir, hdir,
        ends_ask_bind_iff.2 ⟨x, l₂ ++ l₃, rfl, .inr ⟨_, hx, ?_⟩⟩⟩)
      exact ends_bind_iff.2 (.inr ⟨false, [], _, rfl, .pure _, hpin⟩)
    · rintro rfl
      exact (ends_pure_iff.1 hface).2

end Custody

end Helper

/-! ## A session in which neither leg is of use -/

def sampleEnv : Env := fun var => if var = "XDG_DATA_HOME" then some [47] else none

def sampleProc : Process := ⟨⟨String.ofList (fromUtf8Lossy (joinOs [47] "tess")), ""⟩, 1⟩

def sampleMetadata : Bytes :=
  escapeAll [unary (Sample.storedKey [7]).version, (Sample.storedKey [7]).sealedPublic,
    (Sample.storedKey [7]).sealedPrivate, (Sample.storedKey [7]).primaryName]

/-- The key is unsealed with the PIN, and the keyring accepts it. -/
def sampleUnlock : List (Answer Tess.Op.Res) :=
  [⟨.file (.read (.main .metadata)), .ok sampleMetadata⟩,
    ⟨.tpmUnseal (Sample.sealedKey [7]) Sample.pin, .ok [7]⟩, ⟨.unlock [7], .ok ()⟩]

/-- The bus of the fingerprint reader does not answer, and the verification is given up. -/
def sampleGivenUp : List (Answer Fprint.CappedOp.Res) :=
  [⟨.startTimer 9000000000, ()⟩, ⟨.call .now, (0 : ℕ)⟩, ⟨.call .managerProxy, none⟩]

/-- No face is enrolled, and no fingerprint is verified. -/
def sampleSession : List (Event ℚ) :=
  [⟨.connectKeyring, .ok ()⟩, ⟨.host (.file (.pathExists (.main .metadataFace))), false⟩,
    ⟨.eprintln (FaceRelease.fallback "face not enrolled").report, ()⟩,
    ⟨.readStdin (maxPinBytes + 1), .ok Sample.pin⟩, ⟨.connectFprint [], .ok ()⟩] ++
    sampleGivenUp.map (fprintPart ℚ).answer ++
    ⟨.eprintln FingerprintGate.timedOut.report, ()⟩ :: sampleUnlock.map (hostPart ℚ).answer

theorem ends_sampleUnlock :
    Ends (unsealAndUnlock sample sampleProc (pure ()) Sample.pin) (.ok ()) sampleUnlock := by
  have hparse : sample.metadataJson.fromSlice sampleMetadata = .ok (Sample.storedKey [7]) :=
    Sample.metadataJson.fromSlice_toVecPretty rfl
  have hload : Ends (Persist.load sample sampleProc .metadata) (.ok (Sample.storedKey [7]))
      [⟨.file (.read (.main .metadata)), .ok sampleMetadata⟩] := by
    refine ends_bind_iff.2 (.inr ⟨_, [_], [], rfl, .op _ (.pure _), ?_⟩)
    rw [hparse]
    exact .pure _
  refine ends_bind_iff.2 (.inr ⟨_, [_], _, rfl, ends_adapt_iff.2 ⟨_, hload, rfl⟩, ?_⟩)
  have hdecode : Persist.fromMetadata sample (Sample.storedKey [7]) = .ok (Sample.sealedKey [7]) :=
    rfl
  refine ends_bind_iff.2 (.inr ⟨Sample.sealedKey [7], [], _, rfl, ?_, ?_⟩)
  · rw [hdecode]
    exact .pure _
  · exact .op _ (.op _ (.pure _))

theorem ends_sampleGivenUp : Ends (Fprint.verify "" fingerprintVerifyDeadlineMs 0)
    (.error (.failed (.timeout fingerprintVerifyDeadlineMs))) sampleGivenUp := by
  have hup : Fprint.pending.GivenUp
      (Fprint.verifyAsync "" fingerprintVerifyDeadlineMs 0).run
      [⟨.call .now, (0 : ℕ)⟩, ⟨.call .managerProxy, none⟩] :=
    .later (x := (0 : ℕ)) rfl (.pending rfl)
  exact ends_ask_bind_iff.2 ⟨(), _, rfl, .inr ⟨(), rfl, Pending.ends_raceT_iff.2 (.inr ⟨rfl, hup⟩)⟩⟩

theorem ends_sampleSession (J : Mug.EnrollmentJson ℚ) (fmt : Login.Formatter ℚ)
    (fromStr : Text → Except String (Login.FaceConfig ℚ)) :
    Ends (runPamHelper sample J fmt sampleEnv fromStr true Login.sampleKernels (pure ()) 0 true
      true 1) (.ok ()) sampleSession := by
  refine ends_ofResult_bind_iff.2 (.inr ⟨joinOs [47] "tess", rfl, ?_⟩)
  refine ends_ask_bind_iff.2 ⟨.ok (), _, rfl, .inr ⟨(), rfl, ?_⟩⟩
  refine ends_bind_iff.2 (.inr ⟨false, [_, _], _, rfl, .op _ (.op _ (.pure _)), ?_⟩)
  refine ends_bind_iff.2 (.inr ⟨Sample.pin, [_], _, rfl, .op _ (.pure _), ?_⟩)
  refine ends_bind_iff.2 (.inr ⟨(), ⟨.connectFprint [], .ok ()⟩ ::
    sampleGivenUp.map (fprintPart ℚ).answer ++ [⟨.eprintln FingerprintGate.timedOut.report, ()⟩],
    _, rfl, ?_, ?_⟩)
  · refine ends_bind_iff.2 (.inr ⟨.timedOut, _, _, rfl, ?_, .op _ (.pure _)⟩)
    refine ends_ask_bind_iff.2 ⟨.ok (), _, rfl, .inr ⟨.ok (), rfl, ?_⟩⟩
    refine ends_bind_iff.2 (.inr ⟨_, sampleGivenUp.map (fprintPart ℚ).answer, [], rfl,
      ends_settle_iff.2 ⟨_, Part.ends_liftT_iff.2 ⟨_, ends_sampleGivenUp, rfl⟩, rfl⟩, .pure _⟩)
  exact ends_adapt_iff.2 ⟨.ok (), Part.ends_liftT_iff.2 ⟨sampleUnlock, ends_sampleUnlock, rfl⟩, rfl⟩

/-- A reader for a store without records. -/
def noRecords : Mug.EnrollmentJson ℚ where
  isFinite _ := False
  toVecPretty _ := .ok []
  fromSlice _ := .error "EOF while parsing a value at line 1 column 0"
  toVecPretty_ok _ := ⟨[], rfl⟩
  fromSlice_toVecPretty ht _ := ht.2.1.elim

theorem runPamHelper_custody_sample :
    (custody noRecords sampleEnv (fun _ => .error "") true Login.sampleKernels true).Guarded []
      sampleSession ∧ Idle sampleSession ∧
      (∃ key, ⟨.host (.unlock key), .ok ()⟩ ∈ sampleSession) ∧
      ∀ f, Ends (runPamHelper sample noRecords Login.sampleFormatter sampleEnv (fun _ => .error "") true
        Login.sampleKernels (pure ()) 0 true true 1) (.ok ()) (sampleSession.map (rekeyedCall f)) := by
  obtain ⟨hguard, hidle, hunlock, hrekeyed⟩ := runPamHelper_custody (allOps_pure ())
    (ends_sampleSession noRecords Login.sampleFormatter fun _ => .error "")
  exact ⟨hguard, hidle, hunlock rfl, hrekeyed⟩

theorem runPamHelper_legs_sample : ∃ l₁ m₁ l₂ m₂ l₃,
    sampleSession = l₁ ++ m₁ ++ l₂ ++ m₂ ++ l₃ ∧
      Ends (runPamHelper sample noRecords Login.sampleFormatter sampleEnv (fun _ => .error "") true
        Login.sampleKernels (pure ()) 0 false false 1) (.ok ()) (l₁ ++ l₂ ++ l₃) ∧
      (∀ e ∈ m₁, ¬ ReadsPin e.1) ∧ ∀ e ∈ m₂, IsFprint e.1 := by
  obtain ⟨-, -, hnone⟩ | ⟨l₁, m₁, l₂, m₂, l₃, hl, hends, -, -, hface, hfprint⟩ := runPamHelper_legs
    (ends_sampleSession noRecords Login.sampleFormatter fun _ => .error "") nofun
  · have hread : ⟨.readStdin (maxPinBytes + 1), .ok Sample.pin⟩ ∈ sampleSession := by
      simp [sampleSession]
    exact absurd trivial (hnone _ hread)
  · exact ⟨l₁, m₁, l₂, m₂, l₃, hl, hends, hface, hfprint⟩

end Session

end Tess

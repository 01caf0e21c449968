import Tess.Effects.Sessions
import Tess.Lifecycle.Outcome
import Tess.Enroll.Sample

/-!
# Sessions of tess calls

`Call` lists the calls a user makes, and `Call.Ends` and `Call.Amid` collect what each of them
leaves: the views it returns in, and those on the way. `call_spec` is the proof, so that an
invariant of sessions is a statement about views alone (`session_invariant`).
-/

namespace Tess

open Files Effects

/-- The calls of a user. `runRecover` is `tess recover`: the hard-lockout reset, a recovery and
perhaps a reseal. -/
inductive Call where
  | enroll (args : EnrollArgs)
  | unlock (pin : SecretBytes)
  | unlockWithFace
  | recover (recoverySecret : SecretBytes)
  | reseal (recoverySecret newPin : SecretBytes) (entropy : Bytes)
  | runRecover (recoverySecret : SecretBytes) (resealing : Option (SecretBytes × Bytes))
  | unenroll (args : UnenrollArgs)

/-- What a call returns: the recovery secret of an enrollment, nothing otherwise. -/
abbrev Reply := Except Error (Option String)

/-- A call that has nothing to return. -/
def silent (x : Io Unit) : Io (Option String) := do
  x
  pure none

/-- An enrollment, which returns the recovery secret. -/
def telling (x : Io String) : Io (Option String) := do
  let s ← x
  pure (some s)

namespace Call

variable (E : Primitives) (proc : Process)

def prog : Call → Prog Op.Res Reply
  | enroll args => (telling (Tess.enroll E proc args)).run
  | unlock pin => (silent (Tess.unlock E proc pin)).run
  | unlockWithFace => (silent (Tess.unlockWithFace E proc)).run
  | recover recoverySecret => (silent (Tess.recover E proc recoverySecret)).run
  | reseal recoverySecret newPin entropy =>
    (silent (Tess.reseal E proc recoverySecret newPin entropy)).run
  | runRecover recoverySecret resealing =>
    (silent (Tess.runRecover E proc recoverySecret resealing)).run
  | unenroll args => (silent (Tess.unenroll E proc args)).run

variable (may : Host → Op → Fault → Prop) (v : View)

/-- The views a call passes through. -/
def Amid : Call → View → Prop
  | enroll args, v' => EnrollAmid E may args v v'
  | unlock _, v' | unlockWithFace, v' | recover _, v' => v' = v
  | reseal recoverySecret newPin entropy, v' => ResealAmid E v recoverySecret newPin entropy v'
  | runRecover recoverySecret resealing, v' => RecoverAmid E may v recoverySecret resealing v'
  | unenroll args, v' => UnenrollAmid E v args v'

/-- The views a call returns in, with its reply. -/
def Ends : Call → Reply → View → Prop
  | enroll args, r, v' => ∃ r', r = r'.map some ∧ EnrollEnds E may args v r' v'
  | unlock _, _, v' | unlockWithFace, _, v' | recover _, _, v' => v' = v
  | reseal recoverySecret newPin entropy, r, v' =>
    ∃ r', r = r'.map (fun _ => none) ∧ ResealEnds E v recoverySecret newPin entropy r' v'
  | runRecover recoverySecret resealing, r, v' =>
    ∃ r', r = r'.map (fun _ => none) ∧ RecoverEnds E may v recoverySecret resealing r' v'
  | unenroll args, r, v' => ∃ r', r = r'.map (fun _ => none) ∧ UnenrollEnds E may v args r' v'

end Call

/-! ## What a call leaves -/

section Spec

variable {E : Primitives} {proc : Process} {may : Host → Op → Fault → Prop} {v : View} {h : Host}

theorem silent_spec {x : Io Unit} {G : Host → Host → Prop} {Q : Except Error Unit → View → Prop}
    {R : Reply → View → Prop} (hQ : ∀ r v', Q r v' → R (r.map fun _ => none) v')
    (hx : wpe (machine E may) Eq G x (fun u h' => Q (.ok u) h'.view)
      (fun e h' => Q (.error e) h'.view) h) :
    wp (machine E may) Eq G (silent x).run (fun r h' => R r h'.view) h :=
  (wp_run ..).2 ((wpe_bind ..).2 (wpe_mono hx (fun _ _ h => hQ _ _ h) fun _ _ h => hQ _ _ h))

theorem silent_quiet {x : Io Unit} {G : Host → Host → Prop} (hG : ∀ h h', h'.view = v → G h h')
    (hx : AllOps (Quiet 0) x) (hv : h.view = v) :
    wp (machine E may) Eq G (silent x).run (fun _ h' => h'.view = v) h :=
  silent_spec (R := fun _ v' => v' = v) (fun _ _ h => h) (wpe_quiet (stable_view 0 hG) hx hv)

/-- **What a call leaves**, under any faults. -/
theorem call_spec (c : Call) (hv : h.view = v) :
    wp (machine E may) Eq (fun _ h' => c.Amid E may v h'.view) (c.prog E proc)
      (fun r h' => c.Ends E may v r h'.view) h := by
  cases c with
  | enroll args =>
    refine (wp_run ..).2 ((wpe_bind ..).2 (wpe_mono (enroll_spec hv) (fun s h' he => ?_)
      fun e h' he => ?_))
    · exact ⟨.ok s, rfl, he⟩
    · exact ⟨.error e, rfl, he⟩
  | unlock pin => exact silent_quiet (fun _ _ hv => hv) (unlock_all pin) hv
  | unlockWithFace => exact silent_quiet (fun _ _ hv => hv) unlockWithFace_all hv
  | recover recovery => exact silent_quiet (fun _ _ hv => hv) (recover_all recovery) hv
  | reseal recovery newPin entropy =>
    exact silent_spec (fun r v' h => ⟨r, rfl, h⟩) (reseal_spec hv)
  | runRecover recovery resealing =>
    exact silent_spec (fun r v' h => ⟨r, rfl, h⟩) (runRecover_spec hv)
  | unenroll args => exact silent_spec (fun r v' h => ⟨r, rfl, h⟩) (unenroll_spec hv)

end Spec

theorem Call.amid_here (E : Primitives) (may : Host → Op → Fault → Prop) (v : View) (c : Call) :
    c.Amid E may v v := by
  cases c with
  | enroll => exact .here
  | unlock | unlockWithFace | recover => rfl
  | reseal => exact ⟨.error [], .failed []⟩
  | runRecover => exact ⟨.error [], .failed [] .skipped⟩
  | unenroll => exact ⟨.error [], .failed []⟩

/-! ## Sessions -/

/-- Sessions of a process, with the calls that are made and the worlds in which they are stopped. -/
def service (E : Primitives) (proc : Process) (allowed : History Call Reply → Host → Call → Prop)
    (mayStop : Host → Prop) : Service Op.Res Host Reply Call where
  prog := Call.prog E proc
  allowed := allowed
  mayStop := mayStop

/-- **Invariants of sessions**, on views: `P` is what every single operation keeps, and `I` what
calls keep, on the way and at their end. -/
theorem session_invariant {E : Primitives} {proc : Process} {may : Call → Host → Op → Fault → Prop}
    {allowed : History Call Reply → Host → Call → Prop} {mayStop : Host → Prop}
    {init : Host → Prop} {P : View → Prop} {I : History Call Reply → View → Prop}
    (hop : ∀ c h o f, may c h o f → P h.view → P (exec E o f h).2.view)
    (hinit : ∀ h, init h → P h.view ∧ I [] h.view)
    (hamid : ∀ hist c (h h' : Host), I hist h.view → allowed hist h c → mayStop h' → P h'.view →
      c.Amid E (may c) h.view h'.view → I ((c, none) :: hist) h'.view)
    (hends : ∀ hist c (h h' : Host) r, I hist h.view → allowed hist h c → P h'.view →
      c.Ends E (may c) h.view r h'.view → I ((c, some r) :: hist) h'.view)
    {hist : History Call Reply} {h : Host}
    (hs : Session (fun c => machine E (may c)) (service E proc allowed mayStop) init hist h) :
    P h.view ∧ I hist h.view := by
  refine Session.invariant (I := fun hist h => P h.view ∧ I hist h.view) hinit ?_ ?_ hs
  · exact fun hist c h hI ha hm =>
      ⟨hI.1, hamid hist c h h hI.2 ha hm hI.1 (c.amid_here E (may c) h.view)⟩
  · intro hist c h hI ha
    refine wp_mono (wp_invariant (hop c) (call_spec c rfl) hI.1) ?_ ?_
    · exact fun _ h' hh hm => ⟨hh.2, hamid hist c h h' hI.2 ha hm hh.2 hh.1⟩
    · exact fun r h' hh => ⟨hh.2, hends hist c h h' r hI.2 ha hh.2 hh.1⟩

/-! ## Single calls -/

namespace Sample

/-- A call without faults. -/
def called (may : Host → Op → Fault → Prop) (c : Call) (h : Host) : Reply × Host :=
  eval (machine sample may) .ok (c.prog sample (proc 1)) h

theorem returns_called {may : Host → Op → Fault → Prop} (hok : ∀ h o, may h o .ok) (c : Call)
    (h : Host) : Returns (machine sample may) (c.prog sample (proc 1)) h (called may c h).1
      (called may c h).2 := returns_eval hok _ _

/-- A call under given faults. -/
def calledWith (c : Call) (faults : List Fault) (h : Host) : Prog Op.Res Reply × Host :=
  run (machine sample anyFault) faults (c.prog sample (proc 1)) h

theorem returns_calledWith {c : Call} {faults : List Fault} {h : Host}
    (hd : (calledWith c faults h).1.returned.isSome = true) :
    ∃ r, Returns (machine sample anyFault) (c.prog sample (proc 1)) h r
      (calledWith c faults h).2 := by
  obtain ⟨r, hr⟩ := Option.isSome_iff_exists.1 hd
  exact ⟨r, returns_run (admits_of_may (fun _ _ _ => trivial) _ _ _) hr⟩

/-- The enrollment of a key and a recovery secret from the password. -/
def enrolling (key recovery : Byte) : Call := .enroll (enrollArgs password key recovery)

/-- Unenrolling back to the password. -/
def unenrolling (recovery : Option SecretBytes) : Call :=
  .unenroll ⟨pin, password, recovery, none⟩

end Sample

end Tess

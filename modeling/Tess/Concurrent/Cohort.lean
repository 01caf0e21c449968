import Tess.Concurrent.Calm
import Tess.Effects.Threads
import Tess.Lifecycle.NoLockout

/-!
# Processes that share a keyring

Any number of processes, each of them enrolling or unenrolling, interleave their operations on one
host. What can go wrong is that one of them takes away the recovery blob that another one relies
on, or puts its own in the place of it. The stake has three forms.

* The credential is a key and the recovery blob opens to it: an enrollment is in force.
* The credential is a password and there is no recovery blob.
* The credential is a password and there is a recovery blob: some process has not yet rekeyed to
  the key in it, or has already rekeyed back. The stake is `Busy`, and only that process, the last
  one that has changed the stake, may change it again.

Which process that is cannot be read off the host; it is the auxiliary state of the argument.
-/

namespace Tess

open Files Effects Recovery

/-! ## Cohorts -/

/-- What one of the processes does. -/
inductive Job where
  | enroll (args : EnrollArgs)
  | unenroll (args : UnenrollArgs)

namespace Job

def call : Job → Call
  | enroll args => .enroll args
  | unenroll args => .unenroll args

/-- The password that the user supplies with a job. -/
def password : Job → SecretBytes
  | enroll args => args.old
  | unenroll args => args.newPassword

end Job

/-- Some processes with their jobs, the passwords supplied and the enrollments made before them. -/
structure Crowd (ι : Type) where
  proc : ι → Process
  job : ι → Job
  passwords : SecretBytes → Prop
  past : EnrollArgs → Prop

namespace Crowd

variable {ι : Type} (c : Crowd ι)

/-- The passwords the user has supplied, before or to one of the processes. -/
def Supplied (p : SecretBytes) : Prop := c.passwords p ∨ ∃ i, (c.job i).password = p

/-- The enrollments made, before or by one of the processes. -/
def Enrolls (args : EnrollArgs) : Prop := c.past args ∨ ∃ i, c.job i = .enroll args

/-- The keys that enrollments generate. -/
def Generated (k : SecretBytes) : Prop := ∃ args, c.Enrolls args ∧ args.draws.key = k

/-- The credential is a password, or the key of an enrollment whose recovery blob or whose sealed
metadata opens to it. -/
def Accessible (E : Primitives) (v : View) : Prop :=
  c.Supplied v.credential ∨ ∃ args, c.Enrolls args ∧ v.credential = args.draws.key ∧
    ((∃ b m, v.files .recovery = some (.file b m) ∧
        unwrapBytes E b args.draws.recoverySecret = some args.draws.key) ∨
      ∃ b m, v.files .metadata = some (.file b m) ∧
        unsealBytes E v.seed b args.pin = some args.draws.key)

end Crowd

/-- Processes with an id of their own each, and generated keys that are nobody's password. -/
structure Cohort (ι : Type) extends Crowd ι where
  pid_inj : ∀ i j, (proc i).pid = (proc j).pid → i = j
  fresh : ∀ k, toCrowd.Generated k → ¬ toCrowd.Supplied k

/-- The recovery blob of an enrollment that the cohort knows of is there, and opens to `k`. -/
def Crowd.Backs {ι : Type} (c : Crowd ι) (E : Primitives) (n : Option (Node Path))
    (k : SecretBytes) : Prop :=
  ∃ args, c.Enrolls args ∧ k = args.draws.key ∧ ∃ b m, n = some (.file b m) ∧
    unwrapBytes E b args.draws.recoverySecret = some args.draws.key

/-- **The invariant**: the credential is a password, or backed by the recovery blob; and the sealed
metadata opens to generated keys only. -/
structure Crowd.Sound {ι : Type} (c : Crowd ι) (E : Primitives) (v : View) : Prop where
  backed : c.Supplied v.credential ∨ c.Backs E (v.files .recovery) v.credential
  metadata : v.MetadataWithin E c.Generated

theorem Crowd.Sound.accessible {ι : Type} {c : Crowd ι} {E : Primitives} {v : View}
    (h : c.Sound E v) : c.Accessible E v := by
  refine h.backed.imp id ?_
  rintro ⟨args, henrolls, hc, hblob⟩
  exact ⟨args, henrolls, hc, .inl hblob⟩

/-! ## Who holds the stake -/

section Stake

variable {ι : Type} (c : Crowd ι) (E : Primitives) (i : ι)

/-- There is a recovery blob, and the credential is a password. -/
structure Crowd.Busy (v : View) : Prop where
  password : c.Supplied v.credential
  blob : v.files .recovery ≠ none

/-- The stake is busy, and `i` has changed it last. -/
structure Crowd.Mine (w : Host × Option ι) : Prop where
  holder : w.2 = some i
  busy : c.Busy w.1.view

/-- Who has changed the stake last, after a step of `i`. -/
def holder (h h' : Host) (a : Option ι) : Option ι :=
  if h'.view.stake = h.view.stake then a else some i

@[simp] theorem holder_self (h : Host) (a : Option ι) : holder i h h a = a := if_pos rfl

/-- What the process `i` relies on. -/
structure Crowd.Rely (w w' : Host × Option ι) : Prop where
  temps : ∀ a tag, w'.1.at_ (.temp a (c.proc i).pid tag) = w.1.at_ (.temp a (c.proc i).pid tag)
  seed : w'.1.tpm.seed = w.1.tpm.seed
  sound : c.Sound E w.1.view → c.Sound E w'.1.view
  mine : c.Mine i w → w'.1.view.stake = w.1.view.stake ∧ w'.2 = w.2

/-- What the process `i` guarantees: it changes a busy stake only if it has changed it last. -/
structure Crowd.Guarantee (w w' : Host × Option ι) : Prop where
  temps : ∀ a pid tag, pid ≠ (c.proc i).pid →
    w'.1.at_ (.temp a pid tag) = w.1.at_ (.temp a pid tag)
  seed : w'.1.tpm.seed = w.1.tpm.seed
  sound : c.Sound E w.1.view → c.Sound E w'.1.view
  stake : w'.1.view.stake = w.1.view.stake ∧ w'.2 = w.2 ∨
    w'.2 = some i ∧ (c.Busy w.1.view → w.2 = some i)

variable {c E i}

theorem Crowd.Busy.of_stake {v v' : View} (h : c.Busy v) (hs : v'.stake = v.stake) : c.Busy v' where
  password := by
    rw [show v'.credential = v.credential from congrArg Prod.fst hs]
    exact h.password
  blob := by
    rw [show v'.files .recovery = v.files .recovery from congrArg Prod.snd hs]
    exact h.blob

theorem Crowd.Mine.of_stake {w w' : Host × Option ι} (h : c.Mine i w)
    (hs : w'.1.view.stake = w.1.view.stake) (hw : w'.2 = w.2) : c.Mine i w' :=
  ⟨hw.trans h.holder, h.busy.of_stake hs⟩

theorem Crowd.Rely.refl (w : Host × Option ι) : c.Rely E i w w :=
  ⟨fun _ _ => rfl, rfl, id, fun _ => ⟨rfl, rfl⟩⟩

theorem Crowd.Rely.trans {w₁ w₂ w₃ : Host × Option ι} (h₁ : c.Rely E i w₁ w₂)
    (h₂ : c.Rely E i w₂ w₃) : c.Rely E i w₁ w₃ where
  temps a tag := (h₂.temps a tag).trans (h₁.temps a tag)
  seed := h₂.seed.trans h₁.seed
  sound h := h₂.sound (h₁.sound h)
  mine h := by
    obtain ⟨hs, hw⟩ := h₁.mine h
    obtain ⟨hs', hw'⟩ := h₂.mine (h.of_stake hs hw)
    exact ⟨hs'.trans hs, hw'.trans hw⟩

/-- What one process guarantees, another one may rely on. -/
theorem Crowd.Guarantee.rely {j : ι} (hne : (c.proc i).pid ≠ (c.proc j).pid)
    {w w' : Host × Option ι} (h : c.Guarantee E i w w') : c.Rely E j w w' where
  temps a tag := h.temps a _ tag (Ne.symm hne)
  seed := h.seed
  sound := h.sound
  mine hm := by
    rcases h.stake with hs | ⟨-, hbusy⟩
    · exact hs
    · have hij : some j = some i := hm.holder.symm.trans (hbusy hm.busy)
      exact absurd (by rw [Option.some.inj hij]) hne

/-- A step that keeps the invariant, and changes a busy stake only when it is `i`'s own. -/
theorem Crowd.Guarantee.of_step {g : View → View} {h h' : Host} {a : Option ι}
    (hs : Step (c.proc i).pid g h h') (hseed : (g h.view).seed = h.view.seed)
    (hsound : c.Sound E h.view → c.Sound E (g h.view))
    (hbusy : c.Busy h.view → a = some i) :
    c.Guarantee E i (h, a) (h', holder i h h' a) where
  temps := hs.temps
  seed := (congrArg View.seed hs.view).trans hseed
  sound := hs.view ▸ hsound
  stake := by
    by_cases hst : h'.view.stake = h.view.stake
    · exact .inl ⟨hst, if_pos hst⟩
    · exact .inr ⟨if_neg hst, hbusy⟩

theorem Crowd.Sound.calm {pid : ℕ} {h h' : Host} (hs : c.Sound E h.view)
    (hc : Calm E c.Generated pid h h') : c.Sound E h'.view where
  backed := by
    have hcred : h'.view.credential = h.view.credential := congrArg Prod.fst hc.stake
    have hrec : h'.view.files .recovery = h.view.files .recovery := congrArg Prod.snd hc.stake
    rw [hcred, hrec]
    exact hs.backed
  metadata := hc.metadata hs.metadata

theorem Crowd.Guarantee.of_calm {h h' : Host} {a : Option ι}
    (hc : Calm E c.Generated (c.proc i).pid h h') :
    c.Guarantee E i (h, a) (h', holder i h h' a) where
  temps := hc.temps
  seed := hc.seed
  sound hs := hs.calm hc
  stake := .inl ⟨hc.stake, if_pos hc.stake⟩

theorem Crowd.Guarantee.refl (w : Host × Option ι) : c.Guarantee E i w w :=
  ⟨fun _ _ _ _ => rfl, rfl, id, .inl ⟨rfl, rfl⟩⟩

end Stake

end Tess

import Mathlib.Logic.Function.Basic
import Mathlib.Data.Set.Basic
import Mathlib.Data.Nat.Notation

/-!
# Effect programs and their weakest preconditions

A program is a tree of operations: it asks for an operation, and continues with its result. What
an operation returns, and what it does to the world, is the business of a `Machine`, which
resolves each operation by a *choice* of the environment (a fault, a random draw, nothing at
all). The same program can then be run with any faults, stopped at any operation, and interleaved
with other programs.

* `Reaches` is the run of one program: stopping it anywhere is a crash.
* `wp` is the weakest precondition of a program under interference: `rely` is what the others may
  do between two operations, and every operation of the program itself must be a step of
  `guar`. A program alone relies on `Eq`, and a crash invariant is a guarantee about the state
  after each step (`wp_reaches`, `Reaches.invariant`).
* `run` resolves the operations by a list of choices, and is how a concrete run is computed;
  `eval` resolves all of them by the same choice.
-/

namespace Effects

universe u

/-- Programs over the operations `Ω`, where `o : Ω` returns a `Res o`. -/
inductive Prog {Ω : Type u} (Res : Ω → Type u) (α : Type u) : Type u where
  | pure (a : α)
  | op (o : Ω) (k : Res o → Prog Res α)

variable {Ω : Type u} {Res : Ω → Type u} {α β : Type u}

namespace Prog

/-- Run a program, then the continuation on its result. -/
def bind : Prog Res α → (α → Prog Res β) → Prog Res β
  | .pure a, f => f a
  | .op o k, f => .op o fun r => (k r).bind f

instance : Monad (Prog Res) where
  pure := .pure
  bind := bind

@[simp] theorem pure_bind (a : α) (f : α → Prog Res β) : (Prog.pure a >>= f) = f a := rfl

@[simp] theorem op_bind (o : Ω) (k : Res o → Prog Res α) (f : α → Prog Res β) :
    (Prog.op o k >>= f) = .op o fun r => k r >>= f := rfl

theorem bind_pure' (p : Prog Res α) : (p >>= fun a => .pure a) = p := by
  induction p with
  | pure a => rfl
  | op o k ih => exact congrArg (Prog.op o) (funext ih)

theorem bind_assoc' {γ : Type u} (p : Prog Res α) (f : α → Prog Res β) (g : β → Prog Res γ) :
    (p >>= f >>= g) = p >>= fun a => f a >>= g := by
  induction p with
  | pure a => rfl
  | op o k ih => exact congrArg (Prog.op o) (funext ih)

instance : LawfulMonad (Prog Res) :=
  LawfulMonad.mk' (Prog Res) bind_pure' (fun _ _ => rfl) bind_assoc'

end Prog

/-- A single operation, as a program. -/
def call (o : Ω) : Prog Res (Res o) := .op o .pure

/-- What the operations do: the result and the next world for each choice of the environment, and
the choices the environment has in a world. -/
structure Machine (Res : Ω → Type u) (W χ : Type u) where
  exec : (o : Ω) → χ → W → Res o × W
  may : W → Ω → χ → Prop

variable {W χ : Type u}

/-- `Reaches M p w p' w'`: some number of operations lead from `p` in `w` to `p'` in `w'`. -/
inductive Reaches (M : Machine Res W χ) : Prog Res α → W → Prog Res α → W → Prop
  | refl (p : Prog Res α) (w : W) : Reaches M p w p w
  | step {o : Ω} {k : Res o → Prog Res α} {w : W} {c : χ} {p' : Prog Res α} {w' : W}
      (hc : M.may w o c) (h : Reaches M (k (M.exec o c w).1) (M.exec o c w).2 p' w') :
      Reaches M (.op o k) w p' w'

/-- The program has returned `a` in the world `w'`. -/
abbrev Returns (M : Machine Res W χ) (p : Prog Res α) (w : W) (a : α) (w' : W) : Prop :=
  Reaches M p w (.pure a) w'

/-! ## Weakest preconditions -/

/-- The weakest precondition of `p` for `Q`, when others move the world along `rely` before each
operation and every operation of `p` has to be a step of `guar`. -/
def wp (M : Machine Res W χ) (rely guar : W → W → Prop) :
    Prog Res α → (α → W → Prop) → W → Prop
  | .pure a, Q, w => Q a w
  | .op o k, Q, w => ∀ w', rely w w' → ∀ c, M.may w' o c →
      guar w' (M.exec o c w').2 ∧ wp M rely guar (k (M.exec o c w').1) Q (M.exec o c w').2

section Rules

variable {M : Machine Res W χ} {rely guar : W → W → Prop}

@[simp] theorem wp_pure (a : α) (Q : α → W → Prop) (w : W) :
    wp M rely guar (.pure a) Q w ↔ Q a w := Iff.rfl

@[simp] theorem wp_pure' (a : α) (Q : α → W → Prop) (w : W) :
    wp M rely guar (pure a) Q w ↔ Q a w := Iff.rfl

theorem wp_call (o : Ω) (Q : Res o → W → Prop) (w : W) :
    wp M rely guar (call o) Q w ↔ ∀ w', rely w w' → ∀ c, M.may w' o c →
      guar w' (M.exec o c w').2 ∧ Q (M.exec o c w').1 (M.exec o c w').2 := Iff.rfl

/-- **Sequencing**: the precondition of `p >>= f` is that of `p` for the precondition of `f`. -/
theorem wp_bind (p : Prog Res α) (f : α → Prog Res β) (Q : β → W → Prop) (w : W) :
    wp M rely guar (p >>= f) Q w ↔ wp M rely guar p (fun a => wp M rely guar (f a) Q) w := by
  induction p generalizing w with
  | pure a => exact Iff.rfl
  | op o k ih =>
    simp only [Prog.op_bind, wp]
    exact forall₄_congr fun w' _ c _ => and_congr_right fun _ => ih _ _

theorem wp_mono {guar' : W → W → Prop} {p : Prog Res α} {Q Q' : α → W → Prop} {w : W}
    (h : wp M rely guar p Q w) (hG : ∀ w w', guar w w' → guar' w w')
    (hQ : ∀ a w, Q a w → Q' a w) : wp M rely guar' p Q' w := by
  induction p generalizing w with
  | pure a => exact hQ a w h
  | op o k ih =>
    intro w' hw c hc
    obtain ⟨hg, h⟩ := h w' hw c hc
    exact ⟨hG _ _ hg, ih _ h⟩

/-- Weakening the postcondition. -/
theorem wp_post {p : Prog Res α} {Q Q' : α → W → Prop} {w : W} (h : wp M rely guar p Q w)
    (hQ : ∀ a w, Q a w → Q' a w) : wp M rely guar p Q' w :=
  wp_mono h (fun _ _ => id) hQ

theorem wp_true (p : Prog Res α) (w : W) :
    wp M rely (fun _ _ => True) p (fun _ _ => True) w := by
  induction p generalizing w with
  | pure a => trivial
  | op o k ih => exact fun _ _ _ _ => ⟨trivial, ih _ _⟩

/-- **Conjunction**: what is known of a program for two reasons. -/
theorem wp_conj {guar' : W → W → Prop} {p : Prog Res α} {Q Q' : α → W → Prop} {w : W}
    (h : wp M rely guar p Q w) (h' : wp M rely guar' p Q' w) :
    wp M rely (fun w w' => guar w w' ∧ guar' w w') p (fun a w => Q a w ∧ Q' a w) w := by
  induction p generalizing w with
  | pure a => exact ⟨h, h'⟩
  | op o k ih =>
    intro w' hw c hc
    obtain ⟨hg, h⟩ := h w' hw c hc
    obtain ⟨hg', h'⟩ := h' w' hw c hc
    exact ⟨⟨hg, hg'⟩, ih _ h h'⟩

/-- Every operation of the program, on every branch, is in `S`. -/
def Prog.All (S : Ω → Prop) : Prog Res α → Prop
  | .pure _ => True
  | .op o k => S o ∧ ∀ r, (k r).All S

@[simp] theorem Prog.all_pure (S : Ω → Prop) (a : α) :
    (pure a : Prog Res α).All S ↔ True := Iff.rfl

@[simp] theorem Prog.all_call (S : Ω → Prop) (o : Ω) : (call o : Prog Res (Res o)).All S ↔ S o :=
  ⟨And.left, fun h => ⟨h, fun _ => trivial⟩⟩

theorem Prog.All.bind {S : Ω → Prop} {p : Prog Res α} {f : α → Prog Res β} (hp : p.All S)
    (hf : ∀ a, (f a).All S) : (p >>= f).All S := by
  induction p with
  | pure a => exact hf a
  | op o k ih => exact ⟨hp.1, fun r => ih r (hp.2 r)⟩

theorem Prog.All.mono {S S' : Ω → Prop} (h : ∀ o, S o → S' o) {p : Prog Res α} (hp : p.All S) :
    p.All S' := by
  induction p with
  | pure a => trivial
  | op o k ih => exact ⟨h o hp.1, fun r => ih r (hp.2 r)⟩

/-- An assertion that the others keep, and that every operation of the program keeps, is kept by
the program. -/
theorem wp_all {S : Ω → Prop} {P : W → Prop} {p : Prog Res α} (hp : p.All S)
    (hrely : ∀ w w', rely w w' → P w → P w')
    (hop : ∀ w o c, S o → M.may w o c → P w → guar w (M.exec o c w).2 ∧ P (M.exec o c w).2)
    {w : W} (hP : P w) : wp M rely guar p (fun _ => P) w := by
  induction p generalizing w with
  | pure a => exact hP
  | op o k ih =>
    intro w' hw c hc
    obtain ⟨hg, hP'⟩ := hop w' o c hp.1 hc (hrely _ _ hw hP)
    exact ⟨hg, ih _ (hp.2 _) hP'⟩

end Rules

/-! ## A program on its own -/

section Alone

variable {M : Machine Res W χ} {guar : W → W → Prop}

theorem wp_reaches {p p' : Prog Res α} {Q : α → W → Prop} {w w' : W}
    (h : wp M Eq guar p Q w) (hr : Reaches M p w p' w') : wp M Eq guar p' Q w' := by
  induction hr with
  | refl => exact h
  | step hc _ ih => exact ih (h _ rfl _ hc).2

/-- The postcondition holds when the program returns. -/
theorem Returns.post {p : Prog Res α} {Q : α → W → Prop} {w w' : W} {a : α}
    (h : wp M Eq guar p Q w) (hr : Returns M p w a w') : Q a w' := wp_reaches h hr

/-- **Crash invariants.** A guarantee about the state after each step holds wherever the program
is stopped. -/
theorem Reaches.invariant {I : W → Prop} {p p' : Prog Res α} {Q : α → W → Prop} {w w' : W}
    (h : wp M Eq (fun _ => I) p Q w) (hI : I w) (hr : Reaches M p w p' w') : I w' := by
  induction hr with
  | refl => exact hI
  | step hc _ ih =>
    obtain ⟨hI', h⟩ := h _ rfl _ hc
    exact ih h hI'

theorem wp_call_alone (o : Ω) (Q : Res o → W → Prop) (w : W) :
    wp M Eq guar (call o) Q w ↔ ∀ c, M.may w o c →
      guar w (M.exec o c w).2 ∧ Q (M.exec o c w).1 (M.exec o c w).2 := by
  rw [wp_call]
  exact ⟨fun h => h w rfl, fun h w' hw => hw ▸ h⟩

/-- What no operation of the machine breaks holds throughout. -/
theorem wp_invariant {I : W → Prop}
    (hI : ∀ w o c, M.may w o c → I w → I (M.exec o c w).2) {p : Prog Res α} {Q : α → W → Prop}
    {w : W} (h : wp M Eq guar p Q w) (hw : I w) :
    wp M Eq (fun w w' => guar w w' ∧ I w') p (fun a w => Q a w ∧ I w) w := by
  induction p generalizing w with
  | pure a => exact ⟨h, hw⟩
  | op o k ih =>
    rintro w' rfl c hc
    obtain ⟨hg, h⟩ := h w rfl c hc
    exact ⟨⟨hg, hI _ _ _ hc hw⟩, ih _ h (hI _ _ _ hc hw)⟩

/-- A program that has returned has been through its first part. -/
theorem returns_bind {p : Prog Res α} {f : α → Prog Res β} {w w' : W} {b : β}
    (h : Returns M (p >>= f) w b w') :
    ∃ a w₁, Returns M p w a w₁ ∧ Returns M (f a) w₁ b w' := by
  induction p generalizing w with
  | pure a => exact ⟨a, w, .refl _ _, h⟩
  | op o k ih =>
    cases h with
    | step hc h =>
      obtain ⟨a, w₁, hp, hf⟩ := ih _ h
      exact ⟨a, w₁, .step hc hp, hf⟩

theorem returns_pure {a b : α} {w w' : W} (h : Returns M (pure a) w b w') : b = a ∧ w' = w := by
  cases h
  exact ⟨rfl, rfl⟩

/-- A program whose first part returns goes on with the rest. -/
theorem Returns.bind {p : Prog Res α} {f : α → Prog Res β} {w w₁ w' : W} {a : α} {b : β}
    (hp : Returns M p w a w₁) (hf : Returns M (f a) w₁ b w') : Returns M (p >>= f) w b w' := by
  induction p generalizing w with
  | pure a' =>
    obtain ⟨rfl, rfl⟩ := returns_pure hp
    exact hf
  | op o k ih =>
    cases hp with
    | step hc hp => exact .step hc (ih _ hp)

/-- A program returns when the environment has a choice for each of its operations. -/
theorem exists_returns {S : Ω → Prop} {I : W → Prop} (hmay : ∀ w o, I w → S o → ∃ c, M.may w o c)
    {p : Prog Res α} {Q : α → W → Prop} {w : W} (hp : p.All S) (h : wp M Eq (fun _ => I) p Q w)
    (hw : I w) : ∃ a w', Returns M p w a w' := by
  induction p generalizing w with
  | pure a => exact ⟨a, w, .refl _ _⟩
  | op o k ih =>
    obtain ⟨c, hc⟩ := hmay w o hw hp.1
    obtain ⟨hI, hk⟩ := h w rfl c hc
    obtain ⟨a, w', hr⟩ := ih _ (hp.2 _) hk hI
    exact ⟨a, w', .step hc hr⟩

end Alone

/-! ## Runs with given choices -/

/-- Resolve the operations of a program by a list of choices. When the list is exhausted the
program is stopped where it is. -/
def run (M : Machine Res W χ) : List χ → Prog Res α → W → Prog Res α × W
  | _, .pure a, w => (.pure a, w)
  | [], .op o k, w => (.op o k, w)
  | c :: cs, .op o k, w => run M cs (k (M.exec o c w).1) (M.exec o c w).2

/-- The environment has each of the choices of the list when it comes up. -/
def Admits (M : Machine Res W χ) : List χ → Prog Res α → W → Prop
  | _, .pure _, _ => True
  | [], .op _ _, _ => True
  | c :: cs, .op o k, w => M.may w o c ∧ Admits M cs (k (M.exec o c w).1) (M.exec o c w).2

theorem reaches_run {M : Machine Res W χ} {cs : List χ} {p : Prog Res α} {w : W}
    (h : Admits M cs p w) : Reaches M p w (run M cs p w).1 (run M cs p w).2 := by
  induction cs generalizing p w with
  | nil => cases p <;> exact .refl _ _
  | cons c cs ih =>
    cases p with
    | pure a => exact .refl _ _
    | op o k => exact .step h.1 (ih h.2)

instance decidableAdmits (M : Machine Res W χ) [∀ w o c, Decidable (M.may w o c)] :
    (cs : List χ) → (p : Prog Res α) → (w : W) → Decidable (Admits M cs p w)
  | [], .pure _, _ | [], .op _ _, _ | _ :: _, .pure _, _ => isTrue trivial
  | c :: cs, .op o k, w =>
    have := decidableAdmits M cs (k (M.exec o c w).1) (M.exec o c w).2
    inferInstanceAs (Decidable (M.may w o c ∧ _))

/-- What a program has returned, if it has. -/
def Prog.returned : Prog Res α → Option α
  | .pure a => some a
  | .op _ _ => none

theorem returns_run {M : Machine Res W χ} {cs : List χ} {p : Prog Res α} {w : W} {a : α}
    (h : Admits M cs p w) (ha : (run M cs p w).1.returned = some a) :
    Returns M p w a (run M cs p w).2 := by
  have hr := reaches_run h
  generalize run M cs p w = q at ha hr ⊢
  cases hq : q.1 with
  | pure b =>
    rw [hq] at ha hr
    exact Option.some.inj ha ▸ hr
  | op o k =>
    rw [hq] at ha
    cases ha

/-- An environment that has every choice admits every list of them. -/
theorem admits_of_may {M : Machine Res W χ} (h : ∀ w o c, M.may w o c) (cs : List χ)
    (p : Prog Res α) (w : W) : Admits M cs p w := by
  induction cs generalizing p w with
  | nil => cases p <;> trivial
  | cons c cs ih =>
    cases p with
    | pure a => trivial
    | op o k => exact ⟨h _ _ _, ih _ _⟩

theorem admits_replicate {M : Machine Res W χ} {c : χ} (hc : ∀ w o, M.may w o c) (n : ℕ)
    (p : Prog Res α) (w : W) : Admits M (List.replicate n c) p w := by
  induction n generalizing p w with
  | zero => cases p <;> trivial
  | succ n ih =>
    cases p with
    | pure a => trivial
    | op o k => exact ⟨hc w o, ih _ _⟩

/-- Run a program to its end, resolving every operation by the same choice. -/
def eval (M : Machine Res W χ) (c : χ) : Prog Res α → W → α × W
  | .pure a, w => (a, w)
  | .op o k, w => eval M c (k (M.exec o c w).1) (M.exec o c w).2

theorem eval_pure (M : Machine Res W χ) (c : χ) (a : α) (w : W) :
    eval M c (pure a) w = (a, w) := rfl

theorem eval_bind (M : Machine Res W χ) (c : χ) (p : Prog Res α) (f : α → Prog Res β) (w : W) :
    eval M c (p >>= f) w = eval M c (f (eval M c p w).1) (eval M c p w).2 := by
  induction p generalizing w with
  | pure a => rfl
  | op o k ih => exact ih _ _

/-- Programs whose operations leave the environment one choice return what they evaluate to. -/
theorem wp_eval {M M' : Machine Res W χ} {guar : W → W → Prop} {S : Ω → Prop} {c : χ}
    (he : M'.exec = M.exec) (hc : ∀ w o c', S o → M.may w o c' → c' = c)
    (hg : ∀ w w', guar w w') {p : Prog Res α} (hp : p.All S) (w : W) :
    wp M Eq guar p (fun a w' => eval M' c p w = (a, w')) w := by
  induction p generalizing w with
  | pure a => exact rfl
  | op o k ih =>
    rintro _ rfl c' hc'
    obtain rfl := hc _ _ _ hp.1 hc'
    refine ⟨hg _ _, wp_post (ih _ (hp.2 _) _) fun a w' h => ?_⟩
    rw [eval, he]
    exact h

/-- A program resolved by a choice that the environment always has returns. -/
theorem returns_eval {M : Machine Res W χ} {c : χ} (hc : ∀ w o, M.may w o c) (p : Prog Res α)
    (w : W) : Returns M p w (eval M c p w).1 (eval M c p w).2 := by
  induction p generalizing w with
  | pure a => exact .refl _ _
  | op o k ih => exact .step (hc w o) (ih _ _)

end Effects

import Tess.Effects.Program

/-!
# Calls one after another, each possibly cut short

A `Service` is a set of calls, each with its program. A session makes calls one at a time; a call
either returns, or is stopped at any of its operations (a crash, a kill). Every intermediate state
of a call is therefore the end of some session, and a statement about all sessions is a statement
about all intermediate states. The history of a session is what its caller knows: the calls, and
what those that returned have returned.
-/

namespace Effects

universe u v

variable {Ω : Type u} {Res : Ω → Type u} {W χ ρ : Type u} {κ : Type v}

/-- The calls made and their results, the latest first; a call that was stopped has none. -/
abbrev History (κ : Type v) (ρ : Type u) := List (κ × Option ρ)

/-- Calls and their programs. -/
structure Service (Res : Ω → Type u) (W ρ : Type u) (κ : Type v) where
  /-- The program a call runs. -/
  prog : κ → Prog Res ρ
  /-- The calls that are made after a history, in a world. -/
  allowed : History κ ρ → W → κ → Prop
  /-- The worlds in which a call may be stopped for good. -/
  mayStop : W → Prop

/-- The worlds that sessions lead to from those of `init`. The choices of the environment may depend
on the call. -/
inductive Session (M : κ → Machine Res W χ) (S : Service Res W ρ κ) (init : W → Prop) :
    History κ ρ → W → Prop
  | start {w : W} (h : init w) : Session M S init [] w
  | stop {ks : History κ ρ} {k : κ} {w w' : W} {p : Prog Res ρ} (h : Session M S init ks w)
      (ha : S.allowed ks w k) (hr : Reaches (M k) (S.prog k) w p w') (hs : S.mayStop w') :
      Session M S init ((k, none) :: ks) w'
  | done {ks : History κ ρ} {k : κ} {w w' : W} {r : ρ} (h : Session M S init ks w)
      (ha : S.allowed ks w k) (hr : Returns (M k) (S.prog k) w r w') :
      Session M S init ((k, some r) :: ks) w'

/-- **Invariants of sessions.** It is enough that a call started in a state of the invariant keeps
it wherever it may be stopped, and re-establishes it when it returns. -/
theorem Session.invariant {M : κ → Machine Res W χ} {S : Service Res W ρ κ} {init : W → Prop}
    {I : History κ ρ → W → Prop} (h₀ : ∀ w, init w → I [] w)
    (hcall : ∀ ks k w, I ks w → S.allowed ks w k → S.mayStop w → I ((k, none) :: ks) w)
    (hrun : ∀ ks k w, I ks w → S.allowed ks w k →
      wp (M k) Eq (fun _ w' => S.mayStop w' → I ((k, none) :: ks) w') (S.prog k)
        (fun r w' => I ((k, some r) :: ks) w') w)
    {ks : History κ ρ} {w : W} (h : Session M S init ks w) : I ks w := by
  induction h with
  | start h => exact h₀ _ h
  | stop _ ha hr hs ih =>
    exact Reaches.invariant (I := fun w' => S.mayStop w' → I _ w') (hrun _ _ _ ih ha)
      (hcall _ _ _ ih ha) hr hs
  | done _ ha hr ih => exact Returns.post (hrun _ _ _ ih ha) hr

end Effects

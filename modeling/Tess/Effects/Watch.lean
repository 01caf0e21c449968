import Tess.Effects.Errors

/-!
# Watching a machine

A record kept beside the world, which every operation updates from itself, the choice of the
environment and the world before it, and which no program sees. What can be said of a record is
said of runs of the watched machine, and each run of the machine is such a run (`Reaches.watch`).
-/

namespace Effects

universe u

variable {Ω : Type u} {Res : Ω → Type u} {W χ α A : Type u}

/-- The machine with a record that each operation updates. -/
def Machine.watch (M : Machine Res W χ) (upd : Ω → χ → W → A → A) :
    Machine Res (W × A) χ where
  exec o c s := ((M.exec o c s.1).1, (M.exec o c s.1).2, upd o c s.1 s.2)
  may s o c := M.may s.1 o c

variable {M : Machine Res W χ} {upd : Ω → χ → W → A → A}

/-- Watching does not restrict the runs. -/
theorem Reaches.watch {p p' : Prog Res α} {w w' : W} (h : Reaches M p w p' w') (a : A) :
    ∃ a', Reaches (M.watch upd) p (w, a) p' (w', a') := by
  induction h generalizing a with
  | refl p w => exact ⟨a, .refl _ _⟩
  | @step o k w c p' w' hc _ ih =>
    obtain ⟨a', h⟩ := ih (upd o c w a)
    exact ⟨a', .step (M := M.watch upd) (w := (w, a)) hc h⟩

/-- A run of the watched machine is one of the machine. -/
theorem Reaches.unwatch {p p' : Prog Res α} {s s' : W × A} (h : Reaches (M.watch upd) p s p' s') :
    Reaches M p s.1 p' s'.1 := by
  induction h with
  | refl p s => exact .refl _ _
  | step hc _ ih => exact .step hc ih

end Effects

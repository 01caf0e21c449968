import Mathlib.Algebra.GroupWithZero.Nat
import Tess.Effects.Traces

/-!
# Costs

What the calls of a program cost, when the environment can be trusted with something: a program
`Affords` a bound when no run that can be trusted costs more, or is cut short. Bounds add up along a
program.
-/

namespace Effects

universe u

variable {Ω : Type u} {Res : Ω → Type u} {ε ε' α β : Type u}

/-- The cost of a list of calls. -/
def total (cost : Answer Res → ℕ) (l : List (Answer Res)) : ℕ := (l.map cost).sum

/-- What can be trusted in a run can be trusted in its parts. -/
def Divisible (trust : List (Answer Res) → Prop) : Prop :=
  ∀ l l', trust (l ++ l') → trust l ∧ trust l'

def Affords (cost : Answer Res → ℕ) (trust : List (Answer Res) → Prop) (b : ℕ)
    (x : ExceptT (Stop ε) (Prog Res) α) : Prop :=
  ∀ r l, Ends x r l → trust l → total cost l ≤ b ∧ r ≠ .error .running

section Rules

variable {cost : Answer Res → ℕ} {trust : List (Answer Res) → Prop} {b c : ℕ}

@[simp] theorem total_nil : total cost [] = 0 := rfl

@[simp] theorem total_cons (e : Answer Res) (l : List (Answer Res)) :
    total cost (e :: l) = cost e + total cost l := List.sum_cons

@[simp] theorem total_append (l l' : List (Answer Res)) :
    total cost (l ++ l') = total cost l + total cost l' := by
  rw [total, List.map_append, List.sum_append]
  rfl

theorem Affords.mono {x : ExceptT (Stop ε) (Prog Res) α} (hx : Affords cost trust b x)
    (hb : b ≤ c) : Affords cost trust c x := fun r l h ht =>
  ⟨(hx r l h ht).1.trans hb, (hx r l h ht).2⟩

theorem affords_pure (a : α) :
    Affords cost trust 0 (pure a : ExceptT (Stop ε) (Prog Res) α) := by
  intro r l h _
  obtain ⟨rfl, rfl⟩ := ends_pure_iff.1 h
  exact ⟨le_rfl, nofun⟩

theorem affords_throw (e : ε) :
    Affords cost trust 0 (throw (.failed e) : ExceptT (Stop ε) (Prog Res) α) := by
  intro r l h _
  obtain ⟨rfl, rfl⟩ := ends_throw_iff.1 h
  exact ⟨le_rfl, nofun⟩

theorem affords_ensure (c : Prop) [Decidable c] (e : ε) :
    Affords cost trust 0 (ensure c (.failed e) : ExceptT (Stop ε) (Prog Res) PUnit) := by
  unfold ensure
  split
  · exact affords_pure _
  · exact affords_throw e

theorem affords_ask {o : Ω} {f : Res o → Except (Stop ε) α} (hc : ∀ y, cost ⟨o, y⟩ ≤ b)
    (hf : ∀ y, f y ≠ .error .running) : Affords cost trust b (ask o f) := by
  intro r l h _
  obtain ⟨y, rfl, rfl⟩ := ends_ask_iff.1 h
  exact ⟨by simpa using hc y, hf y⟩

/-- The costs of the parts of a program add up. -/
theorem Affords.bind_of (hd : Divisible trust) {x : ExceptT (Stop ε) (Prog Res) α}
    {f : α → ExceptT (Stop ε) (Prog Res) β} (hx : Affords cost trust b x)
    (hf : ∀ a l, Ends x (.ok a) l → Affords cost trust c (f a)) :
    Affords cost trust (b + c) (x >>= f) := by
  intro r l h ht
  obtain ⟨e, rfl, he⟩ | ⟨a, l₁, l₂, rfl, h₁, h₂⟩ := ends_bind_iff.1 h
  · obtain ⟨hle, hne⟩ := hx (.error e) l he ht
    refine ⟨by omega, fun hr => hne ?_⟩
    rw [Except.error.inj hr]
  · obtain ⟨ht₁, ht₂⟩ := hd l₁ l₂ ht
    obtain ⟨hle₁, -⟩ := hx _ l₁ h₁ ht₁
    obtain ⟨hle₂, hne⟩ := hf a l₁ h₁ r l₂ h₂ ht₂
    exact ⟨by rw [total_append]; omega, hne⟩

theorem Affords.bind (hd : Divisible trust) {x : ExceptT (Stop ε) (Prog Res) α}
    {f : α → ExceptT (Stop ε) (Prog Res) β} (hx : Affords cost trust b x)
    (hf : ∀ a, Affords cost trust c (f a)) : Affords cost trust (b + c) (x >>= f) :=
  hx.bind_of hd fun a _ _ => hf a

theorem Affords.settle {x : ExceptT (Stop ε) (Prog Res) α} (hx : Affords cost trust b x) :
    Affords cost trust b (settle x : ExceptT (Stop ε') (Prog Res) (Except ε α)) := by
  intro r l h ht
  obtain ⟨r₀, h₀, rfl⟩ := ends_settle_iff.1 h
  obtain ⟨hle, hne⟩ := hx r₀ l h₀ ht
  refine ⟨hle, ?_⟩
  obtain (e | _) | a := r₀
  · nofun
  · exact absurd rfl hne
  · nofun

end Rules

end Effects

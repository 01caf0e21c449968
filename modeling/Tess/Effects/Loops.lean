import Tess.Effects.Traces

/-!
# Weakest preconditions of loops

The rules of `wpe` for the programs of `Tess.Effects.Traces`: a call with its answer, an outcome
that is settled, a call that is made in any case, and a loop. The invariant of a loop counts the
rounds that are left, and where none is left it can say that the loop never gets there.
-/

namespace Effects

universe u

variable {Ω : Type u} {Res : Ω → Type u} {W χ ε ε' σ α β : Type u}
variable {M : Machine Res W χ} {rely guar : W → W → Prop} {w : W}

section Calls

variable {Q : α → W → Prop} {E : ε → W → Prop}

theorem wpe_ask {o : Ω} {f : Res o → Except ε α}
    (h : ∀ w', rely w w' → ∀ c, M.may w' o c →
      guar w' (M.exec o c w').2 ∧ outcome Q E (f (M.exec o c w').1) (M.exec o c w').2) :
    wpe M rely guar (ask o f) Q E w := h

/-- Make a call and go on with its answer. -/
theorem wpe_ask_bind {o : Ω} {f : Res o → Except ε β} {g : β → ExceptT ε (Prog Res) α}
    (h : ∀ w', rely w w' → ∀ c, M.may w' o c → guar w' (M.exec o c w').2 ∧
      outcome (fun b => wpe M rely guar (g b) Q E) E (f (M.exec o c w').1) (M.exec o c w').2) :
    wpe M rely guar (ask o f >>= g) Q E w :=
  (wpe_bind ..).2 (wpe_ask h)

end Calls

section Stops

variable {x : ExceptT (Stop ε) (Prog Res) α} {Q : α → W → Prop} {E : Stop ε → W → Prop}

/-- After a program has settled, an error is a value, unless the program was cut short. -/
theorem wpe_settle {Q : Except ε α → W → Prop} {E : Stop ε' → W → Prop}
    (h : wpe M rely guar x (fun a => Q (.ok a)) (fun e w =>
      (∀ e', e = .failed e' → Q (.error e') w) ∧ (e = .running → E .running w)) w) :
    wpe M rely guar (settle x) Q E w := by
  refine (wpe_mk ..).2 ((wp_bind ..).2 (wp_post h fun r w hr => ?_))
  obtain (e | _) | a := r
  · exact hr.1 e rfl
  · exact hr.2 rfl
  · exact hr

/-- The call is made once `x` has come to its end, and then the outcome of `x` stands. -/
theorem wpe_ensuring {o : Ω}
    (h : wpe M rely guar x
      (fun a => wpe M rely guar (ask o fun _ => (.ok a : Except (Stop ε) α)) Q E)
      (fun e w => (e = .running → E e w) ∧ (e ≠ .running →
        wpe M rely guar (ask o fun _ => (.error e : Except (Stop ε) α)) Q E w)) w) :
    wpe M rely guar (ensuring x o) Q E w := by
  refine (wpe_bind ..).2 (wpe_settle (wpe_mono h (fun a w ha => ?_) fun e w he => ⟨?_, ?_⟩))
  · exact wpe_ask_bind ha
  · rintro e' rfl
    exact wpe_ask_bind (he.2 nofun)
  · rintro rfl
    exact he.1 rfl

/-- **The loop rule**: every round that goes on keeps an invariant, a round that breaks or fails has
the postcondition, and so has a loop that is cut short. -/
theorem wpe_loop {body : σ → ExceptT (Stop ε) (Prog Res) (σ ⊕ α)} {I : ℕ → σ → W → Prop}
    (hcut : ∀ s w, I 0 s w → E .running w)
    (hbody : ∀ n s w, I (n + 1) s w → wpe M rely guar (body s) (Sum.elim (I n) Q) E w)
    {n : ℕ} {s : σ} (hI : I n s w) : wpe M rely guar (loop body n s) Q E w := by
  induction n generalizing s w with
  | zero => exact hcut s w hI
  | succ n ih =>
    refine wpe_seq (hbody n s w hI) fun next w' h => ?_
    cases next with
    | inl s' => exact ih h
    | inr a => exact h

end Stops

end Effects

import Tess.Effects.Errors

/-!
# Traces and loops

A program against an environment that answers its calls in any way it likes. `Traces p a l` says
that `p` returns `a` when it makes the calls `l` and gets the answers in `l`; what the environment
can be trusted with is then a condition on `l`.

A loop makes rounds until one of them breaks. A program is given the number of rounds it may make,
and it is cut short where they run out (`Stop.running`). It makes no call after that, so that every
run of the real loop that ends is there for some number of rounds, and nothing else is.
-/

namespace Effects

universe u

variable {Ω : Type u} {Res : Ω → Type u} {ε ε' σ α β : Type u}

/-- A call, and what it returned. -/
abbrev Answer (Res : Ω → Type u) : Type u := (o : Ω) × Res o

/-- The program returns `a` after the calls `l`, the first one first. -/
inductive Traces : Prog Res α → α → List (Answer Res) → Prop
  | pure (a : α) : Traces (.pure a) a []
  | op {o : Ω} {k : Res o → Prog Res α} {a : α} {l : List (Answer Res)} (x : Res o)
      (h : Traces (k x) a l) : Traces (.op o k) a (⟨o, x⟩ :: l)

theorem traces_pure_iff {a b : α} {l : List (Answer Res)} :
    Traces (pure a : Prog Res α) b l ↔ b = a ∧ l = [] := by
  constructor
  · rintro ⟨⟩
    exact ⟨rfl, rfl⟩
  · rintro ⟨rfl, rfl⟩
    exact .pure b

theorem traces_bind_iff {p : Prog Res α} {f : α → Prog Res β} {b : β} {l : List (Answer Res)} :
    Traces (p >>= f) b l ↔ ∃ a l₁ l₂, l = l₁ ++ l₂ ∧ Traces p a l₁ ∧ Traces (f a) b l₂ := by
  constructor
  · intro h
    induction p generalizing l with
    | pure a => exact ⟨a, [], l, rfl, .pure a, h⟩
    | op o k ih =>
      cases h with
      | op x h =>
        obtain ⟨a, l₁, l₂, rfl, ha, hb⟩ := ih x h
        exact ⟨a, ⟨o, x⟩ :: l₁, l₂, rfl, .op x ha, hb⟩
  · rintro ⟨a, l₁, l₂, rfl, ha, hb⟩
    induction ha with
    | pure a => exact hb
    | op x _ ih => exact .op x (ih hb)

/-! ## Programs that fail -/

/-- The outcome of a program that may fail, and its calls. -/
def Ends (x : ExceptT ε (Prog Res) α) (r : Except ε α) (l : List (Answer Res)) : Prop :=
  Traces x.run r l

section Rules

variable {r : Except ε α} {l : List (Answer Res)}

@[simp] theorem ends_pure_iff {a : α} :
    Ends (pure a : ExceptT ε (Prog Res) α) r l ↔ r = .ok a ∧ l = [] := traces_pure_iff

@[simp] theorem ends_throw_iff {e : ε} :
    Ends (throw e : ExceptT ε (Prog Res) α) r l ↔ r = .error e ∧ l = [] := traces_pure_iff

/-- **Sequencing**: the first part fails, or the second one goes on from its value. -/
theorem ends_bind_iff {x : ExceptT ε (Prog Res) α} {f : α → ExceptT ε (Prog Res) β}
    {r : Except ε β} :
    Ends (x >>= f) r l ↔ (∃ e, r = .error e ∧ Ends x (.error e) l) ∨
      ∃ a l₁ l₂, l = l₁ ++ l₂ ∧ Ends x (.ok a) l₁ ∧ Ends (f a) r l₂ := by
  unfold Ends
  rw [ExceptT.run_bind, traces_bind_iff]
  constructor
  · rintro ⟨e | a, l₁, l₂, rfl, hx, hf⟩
    · obtain ⟨rfl, rfl⟩ := traces_pure_iff.1 hf
      exact .inl ⟨e, rfl, by rwa [List.append_nil]⟩
    · exact .inr ⟨a, l₁, l₂, rfl, hx, hf⟩
  · rintro (⟨e, rfl, hx⟩ | ⟨a, l₁, l₂, rfl, hx, hf⟩)
    · exact ⟨.error e, l, [], (List.append_nil l).symm, hx, traces_pure_iff.2 ⟨rfl, rfl⟩⟩
    · exact ⟨.ok a, l₁, l₂, rfl, hx, hf⟩

/-- Make a call, and go on with what `f` makes of its answer. -/
def ask (o : Ω) (f : Res o → Except ε α) : ExceptT ε (Prog Res) α :=
  ExceptT.mk (.op o fun x => .pure (f x))

@[simp] theorem ends_ask_iff {o : Ω} {f : Res o → Except ε α} :
    Ends (ask o f) r l ↔ ∃ x, r = f x ∧ l = [⟨o, x⟩] := by
  constructor
  · rintro (⟨⟩ | ⟨x, ⟨⟩⟩)
    exact ⟨x, rfl, rfl⟩
  · rintro ⟨x, rfl, rfl⟩
    exact .op x (.pure _)

/-- A call, and what is done with its answer. -/
theorem ends_ask_bind_iff {o : Ω} {f : Res o → Except ε α} {g : α → ExceptT ε (Prog Res) β}
    {r : Except ε β} :
    Ends (ask o f >>= g) r l ↔ ∃ x l', l = ⟨o, x⟩ :: l' ∧
      ((∃ e, f x = .error e ∧ r = .error e ∧ l' = []) ∨ ∃ a, f x = .ok a ∧ Ends (g a) r l') := by
  rw [ends_bind_iff]
  constructor
  · rintro (⟨e, rfl, h⟩ | ⟨a, l₁, l₂, rfl, h, hg⟩)
    · obtain ⟨x, hx, rfl⟩ := ends_ask_iff.1 h
      exact ⟨x, [], rfl, .inl ⟨e, hx.symm, rfl, rfl⟩⟩
    · obtain ⟨x, hx, rfl⟩ := ends_ask_iff.1 h
      exact ⟨x, l₂, rfl, .inr ⟨a, hx.symm, hg⟩⟩
  · rintro ⟨x, l', rfl, ⟨e, hx, rfl, rfl⟩ | ⟨a, hx, hg⟩⟩
    · exact .inl ⟨e, rfl, ends_ask_iff.2 ⟨x, hx.symm, rfl⟩⟩
    · exact .inr ⟨a, [⟨o, x⟩], l', rfl, ends_ask_iff.2 ⟨x, hx.symm, rfl⟩, hg⟩

@[simp] theorem ends_ofResult_iff {x : Except ε α} :
    Ends (ofResult x : ExceptT ε (Prog Res) α) r l ↔ r = x ∧ l = [] := traces_pure_iff

theorem ends_ofResult_bind_iff {x : Except ε α} {g : α → ExceptT ε (Prog Res) β}
    {r : Except ε β} :
    Ends (ofResult x >>= g) r l ↔
      (∃ e, x = .error e ∧ r = .error e ∧ l = []) ∨ ∃ a, x = .ok a ∧ Ends (g a) r l := by
  rw [ends_bind_iff]
  constructor
  · rintro (⟨e, rfl, h⟩ | ⟨a, l₁, l₂, rfl, h, hg⟩)
    · obtain ⟨rfl, rfl⟩ := ends_ofResult_iff.1 h
      exact .inl ⟨e, rfl, rfl, rfl⟩
    · obtain ⟨rfl, rfl⟩ := ends_ofResult_iff.1 h
      exact .inr ⟨a, rfl, hg⟩
  · rintro (⟨e, rfl, rfl, rfl⟩ | ⟨a, rfl, hg⟩)
    · exact .inl ⟨e, rfl, ends_ofResult_iff.2 ⟨rfl, rfl⟩⟩
    · exact .inr ⟨a, [], l, rfl, ends_ofResult_iff.2 ⟨rfl, rfl⟩, hg⟩

theorem ends_adapt_iff {ε' : Type u} {f : ε → ε'} {x : ExceptT ε (Prog Res) α} {r : Except ε' α}
    {l : List (Answer Res)} :
    Ends (ExceptT.adapt f x) r l ↔ ∃ r₀, Ends x r₀ l ∧ r = r₀.mapError f := by
  have hrun : (ExceptT.adapt f x).run = x.run >>= fun r => pure (r.mapError f) := rfl
  unfold Ends
  rw [hrun, traces_bind_iff]
  constructor
  · rintro ⟨r₀, l₁, l₂, rfl, h₁, h₂⟩
    obtain ⟨rfl, rfl⟩ := traces_pure_iff.1 h₂
    rw [List.append_nil]
    exact ⟨r₀, h₁, rfl⟩
  · rintro ⟨r₀, h, rfl⟩
    exact ⟨r₀, l, [], (List.append_nil l).symm, h, .pure _⟩

/-- A check makes no call. -/
theorem ends_ensure {c : Prop} [Decidable c] {e : ε} {r : Except ε PUnit}
    (h : Ends (ensure c e : ExceptT ε (Prog Res) PUnit) r l) : l = [] := by
  unfold ensure at h
  split at h
  · exact (ends_pure_iff.1 h).2
  · exact (ends_throw_iff.1 h).2

/-- A program that succeeds has passed its checks. -/
theorem ends_ensure_bind {c : Prop} [Decidable c] {e : ε} {f : PUnit → ExceptT ε (Prog Res) α}
    {a : α} (h : Ends (ensure c e >>= f) (.ok a) l) : c ∧ Ends (f .unit) (.ok a) l := by
  unfold ensure at h
  split_ifs at h with hc
  · obtain ⟨_, ⟨⟩, -⟩ | ⟨_, l₁, l₂, rfl, h₁, h₂⟩ := ends_bind_iff.1 h
    obtain ⟨-, rfl⟩ := ends_pure_iff.1 h₁
    exact ⟨hc, h₂⟩
  · obtain ⟨_, ⟨⟩, -⟩ | ⟨_, l₁, l₂, rfl, h₁, h₂⟩ := ends_bind_iff.1 h
    obtain ⟨⟨⟩, -⟩ := ends_throw_iff.1 h₁

theorem ends_ensure_ok {c : Prop} [Decidable c] {e : ε} {u : PUnit}
    (h : Ends (ensure c e : ExceptT ε (Prog Res) PUnit) (.ok u) l) : c := by
  unfold ensure at h
  split_ifs at h with hc
  · exact hc
  · obtain ⟨⟨⟩, -⟩ := ends_throw_iff.1 h

end Rules

section Split

variable {γ : Type*} {P : γ → Prop} {l₁ l₂ l₁' l₂' : List γ} {e e' : γ}

/-- What does not hold in the first part of a list holds at a place of the second. -/
theorem split_right (h₁ : ∀ x ∈ l₁, ¬ P x) (he : P e) (h : l₁ ++ l₂ = l₁' ++ e :: l₂') :
    ∃ l, l₁' = l₁ ++ l ∧ l₂ = l ++ e :: l₂' := by
  obtain ⟨l, rfl, hl⟩ | ⟨l, rfl, hl⟩ := List.append_eq_append_iff.1 h
  · exact ⟨l, rfl, hl⟩
  · cases l with
    | nil => exact ⟨[], by simp, by simpa using hl.symm⟩
    | cons x l =>
      obtain ⟨rfl, -⟩ := List.cons.inj hl
      exact absurd he (h₁ e (by simp))

/-- What does not hold in the second part of a list holds at a place of the first. -/
theorem split_left (h₂ : ∀ x ∈ l₂, ¬ P x) (he : P e) (h : l₁ ++ l₂ = l₁' ++ e :: l₂') :
    ∃ l, l₁ = l₁' ++ e :: l := by
  obtain ⟨l, rfl, hl⟩ | ⟨l, rfl, hl⟩ := List.append_eq_append_iff.1 h
  · exact absurd he (h₂ e (by simp [hl]))
  · cases l with
    | nil =>
      obtain rfl : e :: l₂' = l₂ := hl
      exact absurd he (h₂ e (by simp))
    | cons x l =>
      obtain ⟨rfl, -⟩ := List.cons.inj hl
      exact ⟨l, rfl⟩

/-- What holds neither in the first part of a list nor in the last one holds in the middle. -/
theorem split_middle {m : List γ} (h₁ : ∀ x ∈ l₁, ¬ P x) (h₂ : ∀ x ∈ l₂, ¬ P x) (he : P e)
    (h : l₁ ++ m ++ l₂ = l₁' ++ e :: l₂') :
    ∃ m₁ m₂, m = m₁ ++ e :: m₂ ∧ l₁' = l₁ ++ m₁ ∧ l₂' = m₂ ++ l₂ := by
  rw [List.append_assoc] at h
  obtain ⟨m₁, rfl, hm⟩ := split_right h₁ he h
  obtain ⟨m₂, rfl⟩ := split_left h₂ he hm
  have hrest : m₁ ++ e :: (m₂ ++ l₂) = m₁ ++ e :: l₂' := by simpa using hm
  exact ⟨m₁, m₂, rfl, rfl, (List.cons.inj (List.append_cancel_left hrest)).2.symm⟩

/-- The one place of a list where something holds. -/
theorem split_unique (h₁ : ∀ x ∈ l₁, ¬ P x) (h₂ : ∀ x ∈ l₂, ¬ P x) (he' : P e')
    (h : l₁ ++ e :: l₂ = l₁' ++ e' :: l₂') : l₁' = l₁ ∧ e' = e ∧ l₂' = l₂ := by
  rw [List.append_cons] at h
  obtain ⟨m₁, m₂, hm, rfl, rfl⟩ := split_middle h₁ h₂ he' h
  obtain ⟨rfl, hcons⟩ | ⟨-, hnil⟩ := List.singleton_eq_append_iff.1 hm
  · obtain ⟨rfl, rfl⟩ := List.cons.inj hcons
    exact ⟨List.append_nil l₁, rfl, rfl⟩
  · cases hnil

end Split

/-! ## Loops -/

/-- Why a program with loops has no value: it has failed, or it was still in a loop when the rounds
it was given had run out. -/
inductive Stop (ε : Type u) where
  | failed (e : ε)
  | running

/-- A loop of at most `n` rounds. A round goes on with a state, or breaks with a value. -/
def loop (body : σ → ExceptT (Stop ε) (Prog Res) (σ ⊕ α)) :
    ℕ → σ → ExceptT (Stop ε) (Prog Res) α
  | 0, _ => throw .running
  | n + 1, s => body s >>= Sum.elim (loop body n) pure

/-- **The loop rule**: an assertion about the rounds that are left, the state and the calls so far,
which every round that goes on keeps. A round that breaks or fails has the postcondition then, and
so has a loop that is cut short. -/
theorem ends_loop_rounds {body : σ → ExceptT (Stop ε) (Prog Res) (σ ⊕ α)}
    {I : ℕ → σ → List (Answer Res) → Prop} {Q : Except (Stop ε) α → List (Answer Res) → Prop}
    (hcut : ∀ s l, I 0 s l → Q (.error .running) l)
    (hnext : ∀ n s l s' l', I (n + 1) s l → Ends (body s) (.ok (.inl s')) l' → I n s' (l ++ l'))
    (hbreak : ∀ n s l a l', I (n + 1) s l → Ends (body s) (.ok (.inr a)) l' → Q (.ok a) (l ++ l'))
    (hfail : ∀ n s l e l', I (n + 1) s l → Ends (body s) (.error e) l' → Q (.error e) (l ++ l'))
    {n : ℕ} {s : σ} {l l' : List (Answer Res)} {r : Except (Stop ε) α} (hI : I n s l)
    (h : Ends (loop body n s) r l') : Q r (l ++ l') := by
  induction n generalizing s l l' with
  | zero =>
    obtain ⟨rfl, rfl⟩ := ends_throw_iff.1 h
    rw [List.append_nil]
    exact hcut s l hI
  | succ n ih =>
    obtain ⟨e, rfl, hbody⟩ | ⟨s' | a, l₁, l₂, rfl, hbody, h⟩ := ends_bind_iff.1 h
    · exact hfail n s l e l' hI hbody
    · rw [← List.append_assoc]
      exact ih (hnext n s l s' l₁ hI hbody) h
    · obtain ⟨rfl, rfl⟩ := ends_pure_iff.1 h
      rw [List.append_nil]
      exact hbreak n s l a l₁ hI hbody

/-- The loop rule, for an assertion that does not count rounds. -/
theorem ends_loop {body : σ → ExceptT (Stop ε) (Prog Res) (σ ⊕ α)}
    {I : σ → List (Answer Res) → Prop} {Q : Except (Stop ε) α → List (Answer Res) → Prop}
    (hcut : ∀ s l, I s l → Q (.error .running) l)
    (hnext : ∀ s l s' l', I s l → Ends (body s) (.ok (.inl s')) l' → I s' (l ++ l'))
    (hbreak : ∀ s l a l', I s l → Ends (body s) (.ok (.inr a)) l' → Q (.ok a) (l ++ l'))
    (hfail : ∀ s l e l', I s l → Ends (body s) (.error e) l' → Q (.error e) (l ++ l'))
    {n : ℕ} {s : σ} {l l' : List (Answer Res)} {r : Except (Stop ε) α} (hI : I s l)
    (h : Ends (loop body n s) r l') : Q r (l ++ l') :=
  ends_loop_rounds (I := fun _ => I) hcut (fun _ => hnext) (fun _ => hbreak) (fun _ => hfail) hI h

/-- A round that goes on, and the rounds after it. -/
theorem ends_loop_next {body : σ → ExceptT (Stop ε) (Prog Res) (σ ⊕ α)} {n : ℕ} {s s' : σ}
    {r : Except (Stop ε) α} {l l' : List (Answer Res)} (hbody : Ends (body s) (.ok (.inl s')) l)
    (h : Ends (loop body n s') r l') : Ends (loop body (n + 1) s) r (l ++ l') :=
  ends_bind_iff.2 (.inr ⟨.inl s', l, l', rfl, hbody, h⟩)

/-- A round that breaks. -/
theorem ends_loop_break {body : σ → ExceptT (Stop ε) (Prog Res) (σ ⊕ α)} {n : ℕ} {s : σ} {a : α}
    {l : List (Answer Res)} (hbody : Ends (body s) (.ok (.inr a)) l) :
    Ends (loop body (n + 1) s) (.ok a) l :=
  ends_bind_iff.2 (.inr ⟨.inr a, l, [], (List.append_nil l).symm, hbody, .pure _⟩)

/-- The outcome of a program as a value, unless it was cut short. -/
def settled : Except (Stop ε) α → Except (Stop ε') (Except ε α)
  | .ok a => .ok (.ok a)
  | .error (.failed e) => .ok (.error e)
  | .error .running => .error .running

/-- Run `x`, and go on with its outcome, whether it has failed or not. -/
def settle (x : ExceptT (Stop ε) (Prog Res) α) : ExceptT (Stop ε') (Prog Res) (Except ε α) :=
  ExceptT.mk (x.run >>= fun r => .pure (settled r))

theorem ends_settle_iff {x : ExceptT (Stop ε) (Prog Res) α}
    {r : Except (Stop ε') (Except ε α)} {l : List (Answer Res)} :
    Ends (settle x) r l ↔ ∃ r₀, Ends x r₀ l ∧ r = settled r₀ := by
  refine traces_bind_iff.trans ?_
  constructor
  · rintro ⟨r₀, l₁, l₂, rfl, hx, hr⟩
    obtain ⟨rfl, rfl⟩ := traces_pure_iff.1 hr
    exact ⟨r₀, by rwa [List.append_nil], rfl⟩
  · rintro ⟨r₀, hx, rfl⟩
    exact ⟨r₀, l, [], (List.append_nil l).symm, hx, traces_pure_iff.2 ⟨rfl, rfl⟩⟩

theorem ends_settle_ok_iff {x : ExceptT (Stop ε) (Prog Res) α} {a : α} {l : List (Answer Res)} :
    Ends (settle x : ExceptT (Stop ε') (Prog Res) (Except ε α)) (.ok (.ok a)) l ↔
      Ends x (.ok a) l := by
  rw [ends_settle_iff]
  constructor
  · rintro ⟨(e | _) | a, hx, hr⟩
    · cases hr
    · cases hr
    · obtain rfl := Except.ok.inj (Except.ok.inj hr)
      exact hx
  · exact fun hx => ⟨.ok a, hx, rfl⟩

/-- A program that is settled was cut short, or what follows gets its outcome. -/
theorem ends_settle_bind_iff {x : ExceptT (Stop ε) (Prog Res) α}
    {g : Except ε α → ExceptT (Stop ε') (Prog Res) β} {r : Except (Stop ε') β}
    {l : List (Answer Res)} :
    Ends (settle x >>= g) r l ↔ (Ends x (.error .running) l ∧ r = .error .running) ∨
      ∃ o l₁ l₂, l = l₁ ++ l₂ ∧ Ends x (o.mapError .failed) l₁ ∧ Ends (g o) r l₂ := by
  simp only [ends_bind_iff, ends_settle_iff]
  constructor
  · rintro (⟨e, rfl, (e' | _) | a, hx, he⟩ | ⟨o, l₁, l₂, rfl, ⟨(e | _) | a, hx, ho⟩, hg⟩)
    · cases he
    · cases he
      exact .inl ⟨hx, rfl⟩
    · cases he
    · cases ho
      exact .inr ⟨.error e, l₁, l₂, rfl, hx, hg⟩
    · cases ho
    · cases ho
      exact .inr ⟨.ok a, l₁, l₂, rfl, hx, hg⟩
  · rintro (⟨hx, rfl⟩ | ⟨o, l₁, l₂, rfl, hx, hg⟩)
    · exact .inl ⟨.running, rfl, _, hx, rfl⟩
    · refine .inr ⟨o, l₁, l₂, rfl, ⟨_, hx, ?_⟩, hg⟩
      cases o <;> rfl

/-- Run `x`, and then make a call whatever the outcome of `x`, and whatever the call returns. -/
def ensuring (x : ExceptT (Stop ε) (Prog Res) α) (o : Ω) : ExceptT (Stop ε) (Prog Res) α :=
  settle x >>= fun r => ask o (fun _ => .ok r) >>= fun r => ofResult (r.mapError .failed)

/-- The call is made once, after `x`, unless `x` was cut short. -/
theorem ends_ensuring_iff {x : ExceptT (Stop ε) (Prog Res) α} {o : Ω} {r : Except (Stop ε) α}
    {l : List (Answer Res)} :
    Ends (ensuring x o) r l ↔ (r = .error .running ∧ Ends x r l) ∨
      r ≠ .error .running ∧ ∃ l' y, l = l' ++ [⟨o, y⟩] ∧ Ends x r l' := by
  unfold ensuring
  rw [ends_settle_bind_iff]
  constructor
  · rintro (⟨hx, rfl⟩ | ⟨r', l₁, l₂, rfl, hx, h⟩)
    · exact .inl ⟨rfl, hx⟩
    · obtain ⟨y, l₃, rfl, ⟨_, ⟨⟩, -⟩ | ⟨_, ⟨⟩, h⟩⟩ := ends_ask_bind_iff.1 h
      obtain ⟨rfl, rfl⟩ := ends_ofResult_iff.1 h
      refine .inr ⟨?_, l₁, y, rfl, hx⟩
      cases r' <;> nofun
  · rintro (⟨rfl, hx⟩ | ⟨hr, l', y, rfl, hx⟩)
    · exact .inl ⟨hx, rfl⟩
    · obtain ⟨r', rfl⟩ : ∃ r' : Except ε α, r = r'.mapError .failed := by
        obtain (e | _) | a := r
        · exact ⟨.error e, rfl⟩
        · exact absurd rfl hr
        · exact ⟨.ok a, rfl⟩
      exact .inr ⟨r', l', [⟨o, y⟩], rfl, hx, ends_ask_bind_iff.2
        ⟨y, [], rfl, .inr ⟨r', rfl, ends_ofResult_iff.2 ⟨rfl, rfl⟩⟩⟩⟩

/-- Fail with another error. -/
def rethrow (f : ε → ε') (x : ExceptT (Stop ε) (Prog Res) α) : ExceptT (Stop ε') (Prog Res) α :=
  settle x >>= fun o => ofResult (o.mapError fun e => .failed (f e))

theorem ends_rethrow_ok_iff {f : ε → ε'} {x : ExceptT (Stop ε) (Prog Res) α} {a : α}
    {l : List (Answer Res)} : Ends (rethrow f x) (.ok a) l ↔ Ends x (.ok a) l := by
  unfold rethrow
  rw [ends_settle_bind_iff]
  constructor
  · rintro (⟨-, ⟨⟩⟩ | ⟨o, l₁, l₂, rfl, hx, ho⟩)
    obtain ⟨hr, rfl⟩ := ends_ofResult_iff.1 ho
    obtain rfl := mapError_eq_ok.1 hr.symm
    rwa [List.append_nil]
  · exact fun hx => .inr ⟨.ok a, l, [], (List.append_nil l).symm, hx, ends_ofResult_iff.2 ⟨rfl, rfl⟩⟩

/-! ## Programs that do not fail -/

/-- The program has no error of its own: it is only ever cut short. -/
def Unfailing (x : ExceptT (Stop ε) (Prog Res) α) : Prop :=
  ∀ e l, Ends x (.error e) l → e = .running

theorem unfailing_pure (a : α) : Unfailing (pure a : ExceptT (Stop ε) (Prog Res) α) :=
  fun _ _ h => nomatch (ends_pure_iff.1 h).1

theorem unfailing_ask {o : Ω} (f : Res o → α) :
    Unfailing (ask o fun x => .ok (f x) : ExceptT (Stop ε) (Prog Res) α) := by
  intro e l h
  obtain ⟨_, ⟨⟩, -⟩ := ends_ask_iff.1 h

theorem unfailing_settle (x : ExceptT (Stop ε') (Prog Res) α) :
    Unfailing (settle x : ExceptT (Stop ε) (Prog Res) (Except ε' α)) := by
  intro e l h
  obtain ⟨(e' | _) | a, -, hr⟩ := ends_settle_iff.1 h
  · cases hr
  · exact Except.error.inj hr
  · cases hr

theorem Unfailing.bind {x : ExceptT (Stop ε) (Prog Res) α} {f : α → ExceptT (Stop ε) (Prog Res) β}
    (hx : Unfailing x) (hf : ∀ a, Unfailing (f a)) : Unfailing (x >>= f) := by
  intro e l h
  obtain ⟨e', he, h'⟩ | ⟨a, l₁, l₂, -, -, h₂⟩ := ends_bind_iff.1 h
  · obtain rfl := Except.error.inj he
    exact hx _ l h'
  · exact hf a e l₂ h₂

/-! ## The calls of a program -/

section AllOps

variable {S : Ω → Prop}

theorem Traces.allOps {p : Prog Res α} {a : α} {l : List (Answer Res)} (h : Traces p a l)
    (hp : p.All S) : ∀ e ∈ l, S e.1 := by
  induction h with
  | pure a => nofun
  | op x _ ih => exact List.forall_mem_cons.2 ⟨hp.1, ih (hp.2 x)⟩

/-- The calls of a run are operations of the program. -/
theorem AllOps.ends {x : ExceptT ε (Prog Res) α} (hx : AllOps S x) {r : Except ε α}
    {l : List (Answer Res)} (h : Ends x r l) : ∀ e ∈ l, S e.1 := Traces.allOps h hx

theorem allOps_ask {o : Ω} (ho : S o) (f : Res o → Except ε α) : AllOps S (ask o f) :=
  ⟨ho, fun _ => trivial⟩

theorem allOps_ofResult (x : Except ε α) :
    AllOps S (ofResult x : ExceptT ε (Prog Res) α) := trivial

/-- The rest is looked at for the results that there are. -/
theorem allOps_ofResult_bind {x : Except ε α} {g : α → ExceptT ε (Prog Res) β}
    (h : ∀ a, x = .ok a → AllOps S (g a)) : AllOps S (ofResult x >>= g) := by
  cases x with
  | error e => exact trivial
  | ok a => exact h a rfl

variable {x : ExceptT (Stop ε) (Prog Res) α}

theorem AllOps.settle (hx : AllOps S x) :
    AllOps S (settle x : ExceptT (Stop ε') (Prog Res) (Except ε α)) :=
  Prog.All.bind hx fun _ => trivial

theorem AllOps.rethrow (hx : AllOps S x) (f : ε → ε') : AllOps S (rethrow f x) :=
  hx.settle.bind fun _ => allOps_ofResult _

end AllOps

end Effects

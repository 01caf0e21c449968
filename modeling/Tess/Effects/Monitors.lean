import Tess.Effects.Traces

/-!
# Monitors

A monitor follows the calls of a program with a state of its own. It says which calls may be made in
a state, and which answers can be relied on there. A program is secured when none of its runs makes
a call that may not be made, as long as the answers have been such.
-/

namespace Effects

universe u

variable {Ω : Type u} {Res : Ω → Type u} {σ ε ε' α β τ : Type u}

structure Monitor (Res : Ω → Type u) (σ : Type u) where
  allows : σ → Ω → Prop
  trusts : σ → Answer Res → Prop
  next : σ → Answer Res → σ

namespace Monitor

variable (m : Monitor Res σ)

/-- The state after a list of calls. -/
def after (s : σ) (l : List (Answer Res)) : σ := l.foldl m.next s

/-- All answers can be relied on. -/
def Trusted : σ → List (Answer Res) → Prop
  | _, [] => True
  | s, e :: l => m.trusts s e ∧ Trusted (m.next s e) l

/-- Every call may be made, up to the first answer that cannot be relied on. -/
def Guarded : σ → List (Answer Res) → Prop
  | _, [] => True
  | s, e :: l => m.allows s e.1 ∧ (m.trusts s e → Guarded (m.next s e) l)

/-- From this state on the calls of `x` may be made, and then the outcome is as `Q` says. -/
def Secures (x : ExceptT ε (Prog Res) α) (Q : Except ε α → σ → Prop) (s : σ) : Prop :=
  ∀ r l, Ends x r l → m.Guarded s l ∧ (m.Trusted s l → Q r (m.after s l))

variable {m} {s : σ}

@[simp] theorem after_append (l l' : List (Answer Res)) :
    m.after s (l ++ l') = m.after (m.after s l) l' := List.foldl_append ..

theorem trusted_append {l l' : List (Answer Res)} :
    m.Trusted s (l ++ l') ↔ m.Trusted s l ∧ m.Trusted (m.after s l) l' := by
  induction l generalizing s with
  | nil => exact ⟨fun h => ⟨trivial, h⟩, And.right⟩
  | cons e l ih => exact (and_congr_right fun _ => ih).trans and_assoc.symm

theorem guarded_append {l l' : List (Answer Res)} :
    m.Guarded s (l ++ l') ↔ m.Guarded s l ∧ (m.Trusted s l → m.Guarded (m.after s l) l') := by
  induction l generalizing s with
  | nil =>
    constructor
    · exact fun h => ⟨trivial, fun _ => h⟩
    · exact fun h => h.2 trivial
  | cons e l ih =>
    constructor
    · rintro ⟨he, h⟩
      exact ⟨⟨he, fun ht => (ih.1 (h ht)).1⟩, fun ht => (ih.1 (h ht.1)).2 ht.2⟩
    · rintro ⟨⟨he, h⟩, h'⟩
      exact ⟨he, fun ht => ih.2 ⟨h ht, fun hl => h' ⟨ht, hl⟩⟩⟩

section Rules

variable {x : ExceptT ε (Prog Res) α} {Q Q' : Except ε α → σ → Prop}

theorem Secures.mono (hx : m.Secures x Q s) (h : ∀ r s, Q r s → Q' r s) : m.Secures x Q' s :=
  fun r l hl => ⟨(hx r l hl).1, fun ht => h _ _ ((hx r l hl).2 ht)⟩

theorem secures_pure {a : α} (h : Q (.ok a) s) :
    m.Secures (pure a : ExceptT ε (Prog Res) α) Q s := by
  intro r l hl
  obtain ⟨rfl, rfl⟩ := ends_pure_iff.1 hl
  exact ⟨trivial, fun _ => h⟩

theorem secures_throw {e : ε} (h : Q (.error e) s) :
    m.Secures (throw e : ExceptT ε (Prog Res) α) Q s := by
  intro r l hl
  obtain ⟨rfl, rfl⟩ := ends_throw_iff.1 hl
  exact ⟨trivial, fun _ => h⟩

theorem secures_ofResult {y : Except ε α} (h : Q y s) :
    m.Secures (ofResult y : ExceptT ε (Prog Res) α) Q s := by
  intro r l hl
  obtain ⟨rfl, rfl⟩ := ends_ofResult_iff.1 hl
  exact ⟨trivial, fun _ => h⟩

/-- A call has to be one that may be made. -/
theorem secures_ask {o : Ω} {f : Res o → Except ε α} (ho : m.allows s o)
    (h : ∀ y, m.trusts s ⟨o, y⟩ → Q (f y) (m.next s ⟨o, y⟩)) : m.Secures (ask o f) Q s := by
  intro r l hl
  obtain ⟨y, rfl, rfl⟩ := ends_ask_iff.1 hl
  exact ⟨⟨ho, fun _ => trivial⟩, fun ht => h y ht.1⟩

/-- **Sequencing**: the rest is secured from where the first part has come to. -/
theorem Secures.bind {f : α → ExceptT ε (Prog Res) β} {Q : Except ε β → σ → Prop}
    (hx : m.Secures x (fun r s => (∀ a, r = .ok a → m.Secures (f a) Q s) ∧
      ∀ e, r = .error e → Q (.error e) s) s) : m.Secures (x >>= f) Q s := by
  intro r l hl
  obtain ⟨e, rfl, he⟩ | ⟨a, l₁, l₂, rfl, h₁, h₂⟩ := ends_bind_iff.1 hl
  · exact ⟨(hx _ l he).1, fun ht => ((hx _ l he).2 ht).2 e rfl⟩
  · obtain ⟨hguard, hpost⟩ := hx _ l₁ h₁
    rw [guarded_append, trusted_append, after_append]
    exact ⟨⟨hguard, fun ht => ((hpost ht).1 a rfl r l₂ h₂).1⟩,
      fun ht => ((hpost ht.1).1 a rfl r l₂ h₂).2 ht.2⟩

/-- Make a call and go on with its answer. -/
theorem secures_ask_bind {o : Ω} {f : Res o → Except ε α} {g : α → ExceptT ε (Prog Res) β}
    {Q : Except ε β → σ → Prop} (ho : m.allows s o)
    (hok : ∀ y a, m.trusts s ⟨o, y⟩ → f y = .ok a → m.Secures (g a) Q (m.next s ⟨o, y⟩))
    (herror : ∀ y e, m.trusts s ⟨o, y⟩ → f y = .error e → Q (.error e) (m.next s ⟨o, y⟩)) :
    m.Secures (ask o f >>= g) Q s :=
  Secures.bind (secures_ask ho fun y ht => ⟨fun a ha => hok y a ht ha, fun e he => herror y e ht he⟩)

/-- Go on where a check is passed. -/
theorem secures_ensure_bind {c : Prop} [Decidable c] {e : ε} {f : PUnit → ExceptT ε (Prog Res) α}
    (hok : c → m.Secures (f .unit) Q s) (herror : ¬ c → Q (.error e) s) :
    m.Secures (ensure c e >>= f) Q s := by
  refine Secures.bind ?_
  unfold ensure
  split_ifs with hc
  · exact secures_pure ⟨fun _ _ => hok hc, nofun⟩
  · refine secures_throw ⟨nofun, ?_⟩
    rintro _ ⟨⟩
    exact herror hc

theorem Secures.settle {x : ExceptT (Stop ε) (Prog Res) α}
    {Q : Except (Stop ε') (Except ε α) → σ → Prop}
    (hx : m.Secures x (fun r s => Q (settled r) s) s) :
    m.Secures (Effects.settle x : ExceptT (Stop ε') (Prog Res) (Except ε α)) Q s := by
  intro r l hl
  obtain ⟨r₀, h₀, rfl⟩ := ends_settle_iff.1 hl
  exact hx r₀ l h₀

theorem Secures.rethrow {f : ε → ε'} {x : ExceptT (Stop ε) (Prog Res) α}
    {Q : Except (Stop ε') α → σ → Prop}
    (hx : m.Secures x (fun r s => (∀ a, r = .ok a → Q (.ok a) s) ∧
      (∀ e, r = .error (.failed e) → Q (.error (.failed (f e))) s) ∧
      (r = .error .running → Q (.error .running) s)) s) :
    m.Secures (Effects.rethrow f x) Q s := by
  refine Secures.bind (Secures.settle (hx.mono ?_))
  rintro ((e | _) | a) s ⟨hok, herror, hcut⟩
  · refine ⟨?_, nofun⟩
    rintro _ ⟨⟩
    exact secures_ofResult (herror e rfl)
  · refine ⟨nofun, ?_⟩
    rintro _ ⟨⟩
    exact hcut rfl
  · refine ⟨?_, nofun⟩
    rintro _ ⟨⟩
    exact secures_ofResult (hok a rfl)

theorem Secures.adapt {f : ε → ε'} {x : ExceptT ε (Prog Res) α} {Q : Except ε' α → σ → Prop}
    (hx : m.Secures x (fun r s => Q (r.mapError f) s) s) :
    m.Secures (ExceptT.adapt f x) Q s := by
  intro r l hl
  obtain ⟨r₀, h₀, rfl⟩ := ends_adapt_iff.1 hl
  exact hx r₀ l h₀

/-- The call that is made in any case has to be one that may be made then. -/
theorem Secures.ensuring {x : ExceptT (Stop ε) (Prog Res) α} {o : Ω}
    {Q : Except (Stop ε) α → σ → Prop}
    (hx : m.Secures x (fun r s => (r = .error .running → Q r s) ∧
      (r ≠ .error .running → m.allows s o ∧ ∀ y, m.trusts s ⟨o, y⟩ → Q r (m.next s ⟨o, y⟩))) s) :
    m.Secures (Effects.ensuring x o) Q s := by
  intro r l hl
  obtain ⟨hr, h⟩ | ⟨hr, l, y, rfl, h⟩ := ends_ensuring_iff.1 hl
  · exact ⟨(hx r l h).1, fun ht => ((hx r l h).2 ht).1 hr⟩
  · obtain ⟨hguard, hpost⟩ := hx r l h
    rw [guarded_append, trusted_append, after_append]
    exact ⟨⟨hguard, fun ht => ⟨((hpost ht).2 hr).1, fun _ => trivial⟩⟩,
      fun ht => ((hpost ht.1).2 hr).2 y ht.2.1⟩

/-- **The loop rule**: every round keeps an invariant, and where it breaks or fails, or the loop is
cut short, the postcondition holds. -/
theorem secures_loop {body : τ → ExceptT (Stop ε) (Prog Res) (τ ⊕ α)} {I : τ → σ → Prop}
    {Q : Except (Stop ε) α → σ → Prop} (hcut : ∀ t s, I t s → Q (.error .running) s)
    (hbody : ∀ t s, I t s → m.Secures (body t) (fun r s => (∀ t', r = .ok (.inl t') → I t' s) ∧
      (∀ a, r = .ok (.inr a) → Q (.ok a) s) ∧ ∀ e, r = .error e → Q (.error e) s) s)
    (n : ℕ) {t : τ} (hI : I t s) : m.Secures (loop body n t) Q s := by
  induction n generalizing s t with
  | zero => exact secures_throw (hcut t s hI)
  | succ n ih =>
    refine Secures.bind ((hbody t s hI).mono fun r s ⟨hnext, hbreak, hfail⟩ => ⟨?_, hfail⟩)
    rintro (t' | a) rfl
    · exact ih (hnext t' rfl)
    · exact secures_pure (hbreak a rfl)

/-- What every call keeps is kept by a program. -/
theorem secures_invariant {x : ExceptT ε (Prog Res) α} {S : Ω → Prop} {I : σ → Prop}
    (hx : AllOps S x) (hallows : ∀ o s, S o → I s → m.allows s o)
    (hnext : ∀ e s, S e.1 → I s → I (m.next s e)) (hI : I s) :
    m.Secures x (fun _ s => I s) s := by
  intro r l hl
  have hall := hx.ends hl
  clear hl
  induction l generalizing s with
  | nil => exact ⟨trivial, fun _ => hI⟩
  | cons e l ih =>
    rw [List.forall_mem_cons] at hall
    have hrest := ih (hnext e s hall.1 hI) hall.2
    exact ⟨⟨hallows e.1 s hall.1 hI, fun _ => hrest.1⟩, fun ht => hrest.2 ht.2⟩

end Rules

/-! ## The whole history -/

/-- The monitor that remembers every call, whatever is answered. -/
def history (allows : List (Answer Res) → Ω → Prop) : Monitor Res (List (Answer Res)) where
  allows := allows
  trusts _ _ := True
  next l e := l ++ [e]

section History

variable {allows : List (Answer Res) → Ω → Prop} {l₀ l : List (Answer Res)}

theorem after_history : (history allows).after l₀ l = l₀ ++ l := by
  induction l generalizing l₀ with
  | nil => exact (List.append_nil l₀).symm
  | cons e l ih =>
    have hrest : (history allows).after (l₀ ++ [e]) l = l₀ ++ [e] ++ l := ih
    exact hrest.trans (List.append_assoc ..)

theorem trusted_history : (history allows).Trusted l₀ l := by
  induction l generalizing l₀ with
  | nil => trivial
  | cons e l ih => exact ⟨trivial, ih⟩

/-- Every call was one that may be made after those before it. -/
theorem guarded_history : (history allows).Guarded l₀ l ↔
    ∀ before e rest, l = before ++ e :: rest → allows (l₀ ++ before) e.1 := by
  induction l generalizing l₀ with
  | nil =>
    refine ⟨fun _ before e rest h => ?_, fun _ => trivial⟩
    cases before <;> cases h
  | cons e l ih =>
    constructor
    · rintro ⟨he, hl⟩ before e' rest h
      cases before with
      | nil =>
        obtain ⟨rfl, rfl⟩ := List.cons.inj h
        rwa [List.append_nil]
      | cons e₀ before =>
        obtain ⟨rfl, rfl⟩ := List.cons.inj h
        have hnext : allows (l₀ ++ [e] ++ before) e'.1 := ih.1 (hl trivial) before e' rest rfl
        rwa [List.append_assoc] at hnext
    · intro h
      refine ⟨?_, fun _ => ih.2 fun before e' rest heq => ?_⟩
      · have hnow := h [] e l rfl
        rwa [List.append_nil] at hnow
      · have hlater := h (e :: before) e' rest (congrArg (e :: ·) heq)
        rwa [← List.singleton_append, ← List.append_assoc] at hlater

/-- A program whose calls keep an invariant under which they may be made is secured, and its calls
have been added. -/
theorem secures_history {x : ExceptT ε (Prog Res) α} {S : Ω → Prop} {I : List (Answer Res) → Prop}
    (hx : AllOps S x) (hallows : ∀ o l, S o → I l → allows l o)
    (hnext : ∀ e l, S e.1 → I l → I (l ++ [e])) (hI : I l₀) :
    (history allows).Secures x
      (fun r l => I l ∧ ∃ l₁, l = l₀ ++ l₁ ∧ Ends x r l₁ ∧ ∀ e ∈ l₁, S e.1) l₀ := by
  intro r l hl
  obtain ⟨hguard, hpost⟩ := secures_invariant (m := history allows) hx hallows hnext hI r l hl
  exact ⟨hguard, fun ht => ⟨hpost ht, l, after_history, hl, hx.ends hl⟩⟩

/-- What is known of the calls of a program holds of those that have been added. -/
theorem Secures.allOps {x : ExceptT ε (Prog Res) α} {Q : Except ε α → List (Answer Res) → Prop}
    {S : Ω → Prop} (h : (history allows).Secures x Q l₀) (hx : AllOps S x) :
    (history allows).Secures x
      (fun r l => Q r l ∧ ∃ l₁, l = l₀ ++ l₁ ∧ ∀ e ∈ l₁, S e.1) l₀ :=
  fun r l hl => ⟨(h r l hl).1, fun ht => ⟨(h r l hl).2 ht, l, after_history, hx.ends hl⟩⟩

end History

end Monitor

end Effects

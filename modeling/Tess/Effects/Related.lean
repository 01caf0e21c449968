import Mathlib.Data.List.Forall2
import Tess.Effects.Traces

/-!
# Related programs

Two programs are related when they make the same calls and come to the same value as long as their
answers are related. What can be said of the runs of one is then said of the runs of the other with
answers that correspond, and a program that only looks at what related answers have in common is
related to itself. Where an answer decides a later call, the calls are changed along with it
(`Carries`).
-/

namespace Effects

universe u

variable {Ω : Type u} {Res : Ω → Type u} {ε ε' σ α β : Type u}

/-- The programs make the same calls, and have the same value in the end. -/
inductive Related (R : (o : Ω) → Res o → Res o → Prop) : Prog Res α → Prog Res α → Prop
  | pure (a : α) : Related R (.pure a) (.pure a)
  | op {o : Ω} {k k' : Res o → Prog Res α} (h : ∀ y y', R o y y' → Related R (k y) (k' y')) :
      Related R (.op o k) (.op o k')

/-- The same call, with related answers. -/
inductive Corresponds (R : (o : Ω) → Res o → Res o → Prop) : Answer Res → Answer Res → Prop
  | answer {o : Ω} {y y' : Res o} (h : R o y y') : Corresponds R ⟨o, y⟩ ⟨o, y'⟩

variable {R : (o : Ω) → Res o → Res o → Prop}

namespace Related

variable {p p' : Prog Res α} {a : α} {l l' : List (Answer Res)}

theorem symm (h : Related R p p') : Related (fun o y y' => R o y' y) p' p := by
  induction h with
  | pure a => exact .pure a
  | op _ ih => exact .op fun y y' hy => ih y' y hy

theorem bind {f f' : α → Prog Res β} (hp : Related R p p') (hf : ∀ a, Related R (f a) (f' a)) :
    Related R (p >>= f) (p' >>= f') := by
  induction hp with
  | pure a => exact hf a
  | op _ ih => exact .op ih

/-- Where related answers are the same, a program is related to itself. -/
theorem refl {S : Ω → Prop} (hp : p.All S) (hS : ∀ o, S o → ∀ y y', R o y y' → y = y') :
    Related R p p := by
  induction p with
  | pure a => exact .pure a
  | op o k ih =>
    refine .op fun y y' hy => ?_
    obtain rfl := hS o hp.1 y y' hy
    exact ih y (hp.2 y)

theorem traces (h : Related R p p') (ht : Traces p a l)
    (hl : List.Forall₂ (Corresponds R) l l') : Traces p' a l' := by
  induction h generalizing l l' with
  | pure b =>
    cases ht
    cases hl
    exact .pure a
  | op _ ih =>
    cases ht with
    | op y ht =>
      cases hl with
      | cons hy hl =>
        cases hy with
        | answer hy => exact .op _ (ih y _ hy ht hl)

end Related

/-! ## Programs that fail -/

/-- Programs that may fail, with the same outcome in the end. -/
abbrev RelatedT (R : (o : Ω) → Res o → Res o → Prop) (x x' : ExceptT ε (Prog Res) α) : Prop :=
  Related R x.run x'.run

section Rules

variable {x x' : ExceptT ε (Prog Res) α}

/-- **Runs with corresponding answers** have the same outcome. -/
theorem RelatedT.ends_iff (h : RelatedT R x x') {r : Except ε α} {l l' : List (Answer Res)}
    (hl : List.Forall₂ (Corresponds R) l l') : Ends x r l ↔ Ends x' r l' := by
  refine ⟨fun ht => h.traces ht hl, fun ht => h.symm.traces ht ?_⟩
  refine hl.flip.imp fun e e' he => ?_
  cases he with
  | answer he => exact .answer he

theorem relatedT_ofResult (r : Except ε α) :
    RelatedT R (ofResult r : ExceptT ε (Prog Res) α) (ofResult r) := .pure r

theorem RelatedT.bind {f f' : α → ExceptT ε (Prog Res) β} (hx : RelatedT R x x')
    (hf : ∀ a, RelatedT R (f a) (f' a)) : RelatedT R (x >>= f) (x' >>= f') := by
  unfold RelatedT
  rw [ExceptT.run_bind, ExceptT.run_bind]
  refine Related.bind hx fun r => ?_
  cases r with
  | ok a => exact hf a
  | error e => exact .pure _

/-- A call whose answers differ, when what is made of them is related. -/
theorem relatedT_ask_bind {o : Ω} {f : Res o → Except ε α} {g g' : α → ExceptT ε (Prog Res) β}
    (h : ∀ y y', R o y y' → (∃ e, f y = .error e ∧ f y' = .error e) ∨
      ∃ a a', f y = .ok a ∧ f y' = .ok a' ∧ RelatedT R (g a) (g' a')) :
    RelatedT R (ask o f >>= g) (ask o f >>= g') := by
  refine .op fun y y' hy => ?_
  change RelatedT R (ofResult (f y) >>= g) (ofResult (f y') >>= g')
  obtain ⟨e, he, he'⟩ | ⟨a, a', ha, ha', hg⟩ := h y y' hy
  · rw [he, he']
    exact .pure _
  · rw [ha, ha']
    exact hg

theorem RelatedT.settle {x x' : ExceptT (Stop ε) (Prog Res) α} (h : RelatedT R x x') :
    RelatedT R (settle x : ExceptT (Stop ε') (Prog Res) (Except ε α)) (settle x') :=
  Related.bind h fun _ => .pure _

theorem RelatedT.loop {body body' : σ → ExceptT (Stop ε) (Prog Res) (σ ⊕ α)}
    (h : ∀ s, RelatedT R (body s) (body' s)) (n : ℕ) (s : σ) :
    RelatedT R (loop body n s) (loop body' n s) := by
  induction n generalizing s with
  | zero => exact .pure _
  | succ n ih =>
    refine (h s).bind fun next => ?_
    cases next with
    | inl s => exact ih s
    | inr a => exact .pure _

end Rules

/-! ## Changed calls -/

/-- With every run of the first program goes one of the second, of the same outcome, with the calls
changed by `φ`. -/
def Carries (φ : Answer Res → Answer Res) (x x' : ExceptT ε (Prog Res) α) : Prop :=
  ∀ r l, Ends x r l → Ends x' r (l.map φ)

section Changed

variable {φ : Answer Res → Answer Res} {x x' : ExceptT ε (Prog Res) α}

/-- A program none of whose calls is changed carries over to itself. -/
theorem carries_of_allOps {S : Ω → Prop} (hx : AllOps S x) (hφ : ∀ e, S e.1 → φ e = e) :
    Carries φ x x := by
  intro r l h
  have hsame : l.map φ = l.map id := List.map_congr_left fun e he => hφ e (hx.ends h e he)
  rwa [hsame, List.map_id]

theorem Carries.bind {f f' : α → ExceptT ε (Prog Res) β} (hx : Carries φ x x')
    (hf : ∀ a, Carries φ (f a) (f' a)) : Carries φ (x >>= f) (x' >>= f') := by
  intro r l h
  obtain ⟨e, rfl, he⟩ | ⟨a, l₁, l₂, rfl, h₁, h₂⟩ := ends_bind_iff.1 h
  · exact ends_bind_iff.2 (.inl ⟨e, rfl, hx _ _ he⟩)
  · rw [List.map_append]
    exact ends_bind_iff.2 (.inr ⟨a, _, _, rfl, hx _ _ h₁, hf a _ _ h₂⟩)

/-- A changed call, where what is made of its answers carries over. -/
theorem carries_ask_bind {o o' : Ω} {f : Res o → Except ε α} {f' : Res o' → Except ε α}
    {g g' : α → ExceptT ε (Prog Res) β}
    (h : ∀ y, ∃ y', φ ⟨o, y⟩ = ⟨o', y'⟩ ∧ ((∃ e, f y = .error e ∧ f' y' = .error e) ∨
      ∃ a a', f y = .ok a ∧ f' y' = .ok a' ∧ Carries φ (g a) (g' a'))) :
    Carries φ (ask o f >>= g) (ask o' f' >>= g') := by
  intro r l hl
  obtain ⟨y, l', rfl, hy⟩ := ends_ask_bind_iff.1 hl
  obtain ⟨y', hφ, hy'⟩ := h y
  rw [List.map_cons, hφ]
  refine ends_ask_bind_iff.2 ⟨y', l'.map φ, rfl, ?_⟩
  obtain ⟨e, hf, hf'⟩ | ⟨a, a', hf, hf', hg⟩ := hy'
  · obtain ⟨e', he', rfl, rfl⟩ | ⟨a, ha, -⟩ := hy
    · rw [hf] at he'
      obtain rfl := Except.error.inj he'
      exact .inl ⟨e, hf', rfl, rfl⟩
    · rw [hf] at ha
      cases ha
  · obtain ⟨e', he', -⟩ | ⟨b, hb, hends⟩ := hy
    · rw [hf] at he'
      cases he'
    · rw [hf] at hb
      obtain rfl := Except.ok.inj hb
      exact .inr ⟨a', hf', hg _ _ hends⟩

theorem carries_ask {o o' : Ω} {f : Res o → Except ε α} {f' : Res o' → Except ε α}
    (h : ∀ y, ∃ y', φ ⟨o, y⟩ = ⟨o', y'⟩ ∧ f y = f' y') : Carries φ (ask o f) (ask o' f') := by
  intro r l hl
  obtain ⟨y, rfl, rfl⟩ := ends_ask_iff.1 hl
  obtain ⟨y', hφ, hf⟩ := h y
  exact ends_ask_iff.2 ⟨y', hf, by rw [List.map_singleton, hφ]⟩

theorem Carries.adapt (hx : Carries φ x x') (f : ε → ε') :
    Carries φ (ExceptT.adapt f x) (ExceptT.adapt f x') := by
  intro r l h
  obtain ⟨r₀, h₀, rfl⟩ := ends_adapt_iff.1 h
  exact ends_adapt_iff.2 ⟨r₀, hx _ _ h₀, rfl⟩

theorem Carries.settle {x x' : ExceptT (Stop ε) (Prog Res) α} (hx : Carries φ x x') :
    Carries φ (settle x : ExceptT (Stop ε') (Prog Res) (Except ε α)) (settle x') := by
  intro r l h
  obtain ⟨r₀, h₀, rfl⟩ := ends_settle_iff.1 h
  exact ends_settle_iff.2 ⟨r₀, hx _ _ h₀, rfl⟩

end Changed

end Effects

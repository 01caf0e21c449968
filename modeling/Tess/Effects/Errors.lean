import Tess.Effects.Program

/-!
# Programs that fail, and programs with local state

The weakest preconditions of the two transformer stacks over `Prog`: `wpe` for a program that
returns or throws, with a postcondition for each, and `wpt` for one that also updates a local
state, which an error does not discard. Both are `wp` of the underlying program, so that the
rules below are the only thing later proofs need to know about `ExceptT` and `StateT`.
-/

namespace Effects

universe u

variable {Ω : Type u} {Res : Ω → Type u} {W χ ε σ α β : Type u}

/-! ## Results -/

theorem bind_eq_ok {x : Except ε α} {f : α → Except ε β} {b : β} :
    x >>= f = .ok b ↔ ∃ a, x = .ok a ∧ f a = .ok b := by
  cases x with
  | ok a => simp [bind, Except.bind]
  | error e => simp [bind, Except.bind]

@[simp] theorem throw_ne_ok (e : ε) (a : α) : ¬ (throw e : Except ε α) = .ok a := nofun

@[simp] theorem throw_bind_ne_ok (e : ε) (f : α → Except ε β) (b : β) :
    ¬ (throw e >>= f : Except ε β) = .ok b := nofun

@[simp] theorem pure_eq_ok {a b : α} : (pure a : Except ε α) = .ok b ↔ a = b :=
  ⟨Except.ok.inj, congrArg _⟩

theorem mapError_eq_ok {ε' : Type u} {r : Except ε α} {f : ε → ε'} {a : α} :
    r.mapError f = .ok a ↔ r = .ok a := by
  cases r with
  | ok b => simp [Except.mapError]
  | error e => simp [Except.mapError]

theorem toOption_eq_some {r : Except ε α} {a : α} : r.toOption = some a ↔ r = .ok a := by
  cases r with
  | ok b => simp [Except.toOption]
  | error e => simp [Except.toOption]

/-! ## Errors -/

/-- A result that is already there. -/
def ofResult (r : Except ε α) : ExceptT ε (Prog Res) α := ExceptT.mk (pure r)

/-- Run `x`, and go on with its outcome, whichever it is. -/
def attempt {ε' : Type u} (x : ExceptT ε (Prog Res) α) : ExceptT ε' (Prog Res) (Except ε α) :=
  ExceptT.lift x.run

/-- Fail with `e` unless `c` holds. -/
def ensure (c : Prop) [Decidable c] (e : ε) : ExceptT ε (Prog Res) PUnit :=
  if c then pure .unit else throw e

/-- Run `x` unless `c` holds already. -/
def unlessThen (c : Prop) [Decidable c] (x : ExceptT ε (Prog Res) PUnit) :
    ExceptT ε (Prog Res) PUnit :=
  if c then pure .unit else x

/-- When `x` fails, run `c` for its effect, and fail with the error that `f` makes of it. -/
def cleanup {ε' : Type u} (x : ExceptT ε (Prog Res) α) (c : Prog Res PUnit) (f : ε → ε') :
    ExceptT ε' (Prog Res) α :=
  ExceptT.mk do
    match ← x.run with
    | .ok a => pure (.ok a)
    | .error e => do
      c
      pure (.error (f e))

/-- The postcondition of a program that returns a value or an error. -/
def outcome (Q : α → W → Prop) (E : ε → W → Prop) : Except ε α → W → Prop
  | .ok a => Q a
  | .error e => E e

@[simp] theorem outcome_ok (Q : α → W → Prop) (E : ε → W → Prop) (a : α) (w : W) :
    outcome Q E (.ok a) w ↔ Q a w := Iff.rfl

@[simp] theorem outcome_error (Q : α → W → Prop) (E : ε → W → Prop) (e : ε) (w : W) :
    outcome Q E (.error e) w ↔ E e w := Iff.rfl

theorem outcome_of_ok {Q : α → W → Prop} {E : ε → W → Prop} {r : Except ε α} {a : α} {w : W}
    (h : r = .ok a) (hQ : Q a w) : outcome Q E r w := by
  subst h
  exact hQ

theorem outcome_of_error {Q : α → W → Prop} {E : ε → W → Prop} {r : Except ε α} {e : ε} {w : W}
    (h : r = .error e) (hE : E e w) : outcome Q E r w := by
  subst h
  exact hE

/-- An outcome whose error is reported as another one. -/
theorem outcome_mapError {ε' : Type u} {Q : α → W → Prop} {E : ε' → W → Prop} {r : Except ε α}
    {f : ε → ε'} {w : W} (hok : ∀ a, r = .ok a → Q a w) (herr : ∀ e, r = .error e → E (f e) w) :
    outcome Q E (r.mapError f) w := by
  cases r with
  | ok a => exact hok a rfl
  | error e => exact herr e rfl

/-- The weakest precondition of a program that may fail: `Q` after a value, `E` after an error. -/
def wpe (M : Machine Res W χ) (rely guar : W → W → Prop) (x : ExceptT ε (Prog Res) α)
    (Q : α → W → Prop) (E : ε → W → Prop) : W → Prop :=
  wp M rely guar x.run (outcome Q E)

section Rules

variable {M : Machine Res W χ} {rely guar : W → W → Prop}

@[simp] theorem wpe_pure (a : α) (Q : α → W → Prop) (E : ε → W → Prop) (w : W) :
    wpe M rely guar (pure a) Q E w ↔ Q a w := Iff.rfl

@[simp] theorem wpe_throw (e : ε) (Q : α → W → Prop) (E : ε → W → Prop) (w : W) :
    wpe M rely guar (throw e) Q E w ↔ E e w := Iff.rfl

theorem wpe_bind (x : ExceptT ε (Prog Res) α) (f : α → ExceptT ε (Prog Res) β)
    (Q : β → W → Prop) (E : ε → W → Prop) (w : W) :
    wpe M rely guar (x >>= f) Q E w ↔
      wpe M rely guar x (fun a => wpe M rely guar (f a) Q E) E w := by
  simp only [wpe, ExceptT.run_bind, wp_bind]
  have hf : (fun a => wp M rely guar (match a with
        | .ok x => (f x).run
        | .error e => pure (.error e)) (outcome Q E)) =
      outcome (fun a => wp M rely guar (f a).run (outcome Q E)) E := by
    funext a
    cases a <;> rfl
  exact iff_of_eq (congrArg (wp M rely guar x.run · w) hf)

theorem wpe_lift (p : Prog Res α) (Q : α → W → Prop) (E : ε → W → Prop) (w : W) :
    wpe M rely guar (liftM p : ExceptT ε (Prog Res) α) Q E w ↔ wp M rely guar p Q w := by
  change wp M rely guar (p >>= fun a => pure (.ok a)) (outcome Q E) w ↔ _
  rw [wp_bind]
  rfl

theorem wpe_mono {x : ExceptT ε (Prog Res) α} {Q Q' : α → W → Prop} {E E' : ε → W → Prop} {w : W}
    (h : wpe M rely guar x Q E w) (hQ : ∀ a w, Q a w → Q' a w) (hE : ∀ e w, E e w → E' e w) :
    wpe M rely guar x Q' E' w :=
  wp_post h fun r w hr => by
    cases r with
    | ok a => exact hQ a w hr
    | error e => exact hE e w hr

/-- The same, with a weaker guarantee. -/
theorem wpe_guar {guar' : W → W → Prop} {x : ExceptT ε (Prog Res) α} {Q Q' : α → W → Prop}
    {E E' : ε → W → Prop} {w : W} (h : wpe M rely guar x Q E w)
    (hG : ∀ w w', guar w w' → guar' w w') (hQ : ∀ a w, Q a w → Q' a w)
    (hE : ∀ e w, E e w → E' e w) : wpe M rely guar' x Q' E' w :=
  wp_mono h hG fun r w hr => by
    cases r with
    | ok a => exact hQ a w hr
    | error e => exact hE e w hr

/-- An `Except` result of an operation is an outcome of the program. -/
theorem wpe_mk (p : Prog Res (Except ε α)) (Q : α → W → Prop) (E : ε → W → Prop) (w : W) :
    wpe M rely guar (ExceptT.mk p) Q E w ↔ wp M rely guar p (outcome Q E) w := Iff.rfl

theorem wpe_ofResult {r : Except ε α} {Q : α → W → Prop} {E : ε → W → Prop} {w : W}
    (hok : ∀ a, r = .ok a → Q a w) (herr : ∀ e, r = .error e → E e w) :
    wpe M rely guar (ofResult r) Q E w := by
  cases r with
  | ok a => exact hok a rfl
  | error e => exact herr e rfl

theorem wpe_ofResult_ok_bind (a : α) (f : α → ExceptT ε (Prog Res) β) (Q : β → W → Prop)
    (E : ε → W → Prop) (w : W) :
    wpe M rely guar (ofResult (.ok a) >>= f) Q E w ↔ wpe M rely guar (f a) Q E w := Iff.rfl

theorem wpe_ofResult_error_bind (e : ε) (f : α → ExceptT ε (Prog Res) β) (Q : β → W → Prop)
    (E : ε → W → Prop) (w : W) :
    wpe M rely guar (ofResult (.error e) >>= f) Q E w ↔ E e w := Iff.rfl

/-- Running a program to look at its outcome. -/
theorem wp_run (x : ExceptT ε (Prog Res) α) (Q : Except ε α → W → Prop) (w : W) :
    wp M rely guar x.run Q w ↔
      wpe M rely guar x (fun a => Q (.ok a)) (fun e => Q (.error e)) w :=
  iff_of_eq (congrArg (wp M rely guar x.run · w) (funext fun r => by cases r <;> rfl))

theorem wpe_attempt {ε' : Type u} (x : ExceptT ε (Prog Res) α) (Q : Except ε α → W → Prop)
    (E : ε' → W → Prop) (w : W) :
    wpe M rely guar (attempt x) Q E w ↔
      wpe M rely guar x (fun a => Q (.ok a)) (fun e => Q (.error e)) w :=
  (wpe_lift ..).trans (wp_run ..)

/-- Going on with the outcome of a program, whichever it is. -/
theorem wpe_look {ε' : Type u} {x : ExceptT ε (Prog Res) α}
    {f : Except ε α → Prog Res (Except ε' β)} {P : α → W → Prop} {F : ε → W → Prop}
    {Q : β → W → Prop} {E : ε' → W → Prop} {w : W} (hx : wpe M rely guar x P F w)
    (hok : ∀ a w, P a w → wpe M rely guar (ExceptT.mk (f (.ok a))) Q E w)
    (herr : ∀ e w, F e w → wpe M rely guar (ExceptT.mk (f (.error e))) Q E w) :
    wpe M rely guar (ExceptT.mk (x.run >>= f)) Q E w :=
  (wpe_mk ..).2 ((wp_bind ..).2 ((wp_run ..).2 (wpe_mono hx hok herr)))

theorem wpe_adapt {ε' : Type u} (f : ε → ε') (x : ExceptT ε (Prog Res) α) (Q : α → W → Prop)
    (E : ε' → W → Prop) (w : W) :
    wpe M rely guar (ExceptT.adapt f x) Q E w ↔ wpe M rely guar x Q (fun e => E (f e)) w := by
  change wp M rely guar (x.run >>= fun r => pure (r.mapError f)) (outcome Q E) w ↔ _
  rw [wp_bind]
  exact iff_of_eq (congrArg (wp M rely guar x.run · w) (funext fun r => by cases r <;> rfl))

theorem wpe_ensure (c : Prop) [Decidable c] (e : ε) (Q : PUnit → W → Prop) (E : ε → W → Prop)
    (w : W) :
    wpe M rely guar (ensure c e) Q E w ↔ (c → Q .unit w) ∧ (¬ c → E e w) := by
  unfold ensure
  split <;> rename_i hc <;> simp [hc]

theorem wpe_cleanup {ε' : Type u} (x : ExceptT ε (Prog Res) α) (c : Prog Res PUnit) (f : ε → ε')
    (Q : α → W → Prop) (E : ε' → W → Prop) (w : W) :
    wpe M rely guar (cleanup x c f) Q E w ↔
      wpe M rely guar x Q (fun e => wp M rely guar c fun _ => E (f e)) w := by
  rw [cleanup, wpe_mk, wp_bind, wp_run]
  refine iff_of_eq (congrArg (wpe M rely guar x Q · w) (funext fun e => funext fun w => ?_))
  exact propext (wp_bind ..)

/-- Conjunction, for the values. -/
theorem wpe_conj {guar' : W → W → Prop} {x : ExceptT ε (Prog Res) α} {Q Q' : α → W → Prop}
    {E E' : ε → W → Prop} {w : W} (h : wpe M rely guar x Q E w) (h' : wpe M rely guar' x Q' E' w) :
    wpe M rely (fun w w' => guar w w' ∧ guar' w w') x (fun a w => Q a w ∧ Q' a w)
      (fun e w => E e w ∧ E' e w) w :=
  wp_post (wp_conj h h') fun r w hr => by
    cases r with
    | ok a => exact hr
    | error e => exact hr

/-- Nothing is asked of the program. -/
theorem wpe_true (x : ExceptT ε (Prog Res) α) (w : W) :
    wpe M rely (fun _ _ => True) x (fun _ _ => True) (fun _ _ => True) w :=
  wp_post (wp_true x.run w) fun r w _ => by
    cases r <;> trivial

/-- Sequencing, with the intermediate assertion given. -/
theorem wpe_seq {x : ExceptT ε (Prog Res) α} {f : α → ExceptT ε (Prog Res) β} {P : α → W → Prop}
    {Q : β → W → Prop} {E : ε → W → Prop} {w : W} (hx : wpe M rely guar x P E w)
    (hf : ∀ a w, P a w → wpe M rely guar (f a) Q E w) : wpe M rely guar (x >>= f) Q E w :=
  (wpe_bind x f Q E w).2 (wpe_mono hx hf fun _ _ => id)

/-- Sequencing, when the errors of the first part are known more precisely. -/
theorem wpe_step {x : ExceptT ε (Prog Res) α} {f : α → ExceptT ε (Prog Res) β} {P : α → W → Prop}
    {Q : β → W → Prop} {E E' : ε → W → Prop} {w : W} (hx : wpe M rely guar x P E' w)
    (hE : ∀ e w, E' e w → E e w) (hf : ∀ a w, P a w → wpe M rely guar (f a) Q E w) :
    wpe M rely guar (x >>= f) Q E w :=
  wpe_seq (wpe_mono hx (fun _ _ => id) hE) hf

/-- The postcondition holds when the program returns a value. -/
theorem returns_ok {guar : W → W → Prop} {x : ExceptT ε (Prog Res) α} {Q : α → W → Prop}
    {E : ε → W → Prop} {w w' : W} {a : α} (h : wpe M Eq guar x Q E w)
    (hr : Returns M x.run w (.ok a) w') : Q a w' :=
  Returns.post (Q := outcome Q E) h hr

/-- The postcondition holds when the program fails. -/
theorem returns_error {guar : W → W → Prop} {x : ExceptT ε (Prog Res) α} {Q : α → W → Prop}
    {E : ε → W → Prop} {w w' : W} {e : ε} (h : wpe M Eq guar x Q E w)
    (hr : Returns M x.run w (.error e) w') : E e w' :=
  Returns.post (Q := outcome Q E) h hr

/-- A program whose first part succeeds goes on with the rest. -/
theorem Returns.bind_ok {x : ExceptT ε (Prog Res) α} {f : α → ExceptT ε (Prog Res) β} {w w₁ w' : W}
    {a : α} {r : Except ε β} (hx : Returns M x.run w (.ok a) w₁)
    (hf : Returns M (f a).run w₁ r w') : Returns M (x >>= f).run w r w' := by
  rw [ExceptT.run_bind]
  exact Returns.bind hx hf

/-- A program whose first part fails fails. -/
theorem Returns.bind_error {x : ExceptT ε (Prog Res) α} (f : α → ExceptT ε (Prog Res) β) {w w' : W}
    {e : ε} (hx : Returns M x.run w (.error e) w') :
    Returns M (x >>= f).run w (.error e) w' := by
  rw [ExceptT.run_bind]
  exact Returns.bind hx (.refl _ _)

end Rules

section All

variable {S : Ω → Prop}

/-- Every operation of a program that may fail is in `S`. -/
def AllOps (S : Ω → Prop) (x : ExceptT ε (Prog Res) α) : Prop := x.run.All S

@[simp] theorem allOps_pure (a : α) : AllOps S (pure a : ExceptT ε (Prog Res) α) := trivial

@[simp] theorem allOps_throw (e : ε) : AllOps S (throw e : ExceptT ε (Prog Res) α) := trivial

theorem AllOps.bind {x : ExceptT ε (Prog Res) α} {f : α → ExceptT ε (Prog Res) β}
    (hx : AllOps S x) (hf : ∀ a, AllOps S (f a)) : AllOps S (x >>= f) := by
  unfold AllOps
  rw [ExceptT.run_bind]
  refine Prog.All.bind hx fun r => ?_
  cases r with
  | ok a => exact hf a
  | error e => trivial

theorem allOps_lift {p : Prog Res α} (hp : p.All S) :
    AllOps S (liftM p : ExceptT ε (Prog Res) α) :=
  Prog.All.bind hp fun _ => trivial

theorem AllOps.adapt {ε' : Type u} {x : ExceptT ε (Prog Res) α} (hx : AllOps S x) (f : ε → ε') :
    AllOps S (ExceptT.adapt f x) :=
  Prog.All.bind hx fun _ => trivial

theorem allOps_ensure (c : Prop) [Decidable c] (e : ε) :
    AllOps S (ensure c e : ExceptT ε (Prog Res) PUnit) := by
  unfold ensure
  split <;> trivial

theorem AllOps.unlessThen {x : ExceptT ε (Prog Res) PUnit} (hx : AllOps S x) (c : Prop)
    [Decidable c] : AllOps S (unlessThen c x) := by
  unfold Effects.unlessThen
  split
  · trivial
  · exact hx

theorem AllOps.cleanup {ε' : Type u} {x : ExceptT ε (Prog Res) α} {c : Prog Res PUnit}
    (hx : AllOps S x) (hc : c.All S) (f : ε → ε') : AllOps S (cleanup x c f) := by
  refine Prog.All.bind hx fun r => ?_
  cases r with
  | ok a => trivial
  | error e => exact hc.bind fun _ => trivial

/-- An assertion that every operation of a program keeps is kept, whichever way it ends. -/
theorem wpe_all {M : Machine Res W χ} {rely guar : W → W → Prop} {P : W → Prop}
    {x : ExceptT ε (Prog Res) α} (hx : AllOps S x) (hrely : ∀ w w', rely w w' → P w → P w')
    (hop : ∀ w o c, S o → M.may w o c → P w → guar w (M.exec o c w).2 ∧ P (M.exec o c w).2)
    {w : W} (hP : P w) : wpe M rely guar x (fun _ => P) (fun _ => P) w :=
  wp_post (wp_all hx hrely hop hP) fun r w hw => by
    cases r with
    | ok a => exact hw
    | error e => exact hw

end All

/-! ## Results under a single choice -/

/-- Resolved by `c` throughout, the program returns `a` in `w'`. -/
def Yields (M : Machine Res W χ) (c : χ) (x : ExceptT ε (Prog Res) α) (w : W) (a : α) (w' : W) :
    Prop :=
  eval M c x.run w = (.ok a, w')

section Yields

variable {M : Machine Res W χ} {c : χ} {w w' w'' : W} {a : α} {b : β}

theorem yields_pure (a : α) : Yields (ε := ε) M c (pure a) w a w := rfl

theorem yields_pure_iff {a' : α} :
    Yields (ε := ε) M c (pure a) w a' w' ↔ a = a' ∧ w = w' := by
  constructor
  · intro h
    exact ⟨Except.ok.inj (congrArg Prod.fst h), congrArg Prod.snd h⟩
  · rintro ⟨rfl, rfl⟩
    exact yields_pure a

theorem yields_bind_iff {x : ExceptT ε (Prog Res) α} {f : α → ExceptT ε (Prog Res) β} :
    Yields M c (x >>= f) w b w'' ↔ ∃ a w', Yields M c x w a w' ∧ Yields M c (f a) w' b w'' := by
  unfold Yields
  rw [ExceptT.run_bind, eval_bind]
  rcases eval M c x.run w with ⟨_ | a, w'⟩
  · constructor
    · intro h
      cases h
    · rintro ⟨a, w', hx, -⟩
      cases hx
  · constructor
    · intro h
      exact ⟨a, w', rfl, h⟩
    · rintro ⟨a, w', hx, hf⟩
      cases hx
      exact hf

theorem Yields.bind {x : ExceptT ε (Prog Res) α} {f : α → ExceptT ε (Prog Res) β}
    (hx : Yields M c x w a w') (hf : Yields M c (f a) w' b w'') :
    Yields M c (x >>= f) w b w'' :=
  yields_bind_iff.2 ⟨a, w', hx, hf⟩

theorem yields_lift_iff {p : Prog Res α} :
    Yields (ε := ε) M c (liftM p) w a w' ↔ eval M c p w = (a, w') := by
  have hrun : (liftM p : ExceptT ε (Prog Res) α).run = p >>= fun a => pure (Except.ok a) := rfl
  rw [Yields, hrun, eval_bind, eval_pure]
  generalize eval M c p w = r
  constructor
  · intro h
    obtain ⟨hr, hw⟩ := Prod.mk.inj h
    exact Prod.ext (Except.ok.inj hr) hw
  · rintro rfl
    rfl

theorem yields_lift {p : Prog Res α} (h : eval M c p w = (a, w')) :
    Yields (ε := ε) M c (liftM p) w a w' := yields_lift_iff.2 h

theorem yields_adapt_iff {ε' : Type u} {x : ExceptT ε (Prog Res) α} {f : ε → ε'} :
    Yields M c (ExceptT.adapt f x) w a w' ↔ Yields M c x w a w' := by
  have hrun : (ExceptT.adapt f x).run = x.run >>= fun r => pure (r.mapError f) := rfl
  rw [Yields, Yields, hrun, eval_bind, eval_pure]
  generalize eval M c x.run w = r
  constructor
  · intro h
    obtain ⟨_ | b, w₁⟩ := r
    · cases h
    · obtain ⟨hr, hw⟩ := Prod.mk.inj h
      have hb : b = a := Except.ok.inj hr
      rw [hb]
      exact congrArg _ hw
  · rintro rfl
    rfl

theorem Yields.adapt {ε' : Type u} {x : ExceptT ε (Prog Res) α} (hx : Yields M c x w a w')
    (f : ε → ε') : Yields M c (ExceptT.adapt f x) w a w' := yields_adapt_iff.2 hx

/-- A result that is already there. -/
theorem yields_mk_pure_iff {r : Except ε α} :
    Yields M c (ExceptT.mk (pure r)) w a w' ↔ r = .ok a ∧ w = w' :=
  iff_of_eq (Prod.mk.injEq ..)

theorem Yields.cleanup {ε' : Type u} {x : ExceptT ε (Prog Res) α} (hx : Yields M c x w a w')
    (p : Prog Res PUnit) (f : ε → ε') : Yields M c (cleanup x p f) w a w' := by
  have hrun : eval M c x.run w = (.ok a, w') := hx
  change eval M c (x.run >>= _) w = _
  rw [eval_bind, hrun]
  rfl

theorem yields_ensure_iff {p : Prop} [Decidable p] {e : ε} {u : PUnit} :
    Yields M c (ensure p e : ExceptT ε (Prog Res) PUnit) w u w' ↔ p ∧ w = w' := by
  unfold ensure
  split <;> rename_i hp
  · rw [yields_pure_iff]
    exact and_congr_left fun _ => iff_of_true rfl hp
  · exact iff_of_false nofun fun h => hp h.1

theorem yields_ensure {p : Prop} [Decidable p] (hp : p) (e : ε) :
    Yields M c (ensure p e : ExceptT ε (Prog Res) PUnit) w .unit w :=
  yields_ensure_iff.2 ⟨hp, rfl⟩

/-- Where the environment has no other choice, that is all there is. -/
theorem Yields.wpe {M' : Machine Res W χ} {guar : W → W → Prop} {S : Ω → Prop}
    {x : ExceptT ε (Prog Res) α} (hx : Yields M' c x w a w') (hs : AllOps S x)
    (he : M'.exec = M.exec) (hc : ∀ w o c', S o → M.may w o c' → c' = c)
    (hg : ∀ w w', guar w w') :
    wpe M Eq guar x (fun b w'' => b = a ∧ w'' = w') (fun _ _ => False) w :=
  wp_post (wp_eval he hc hg hs w) fun r w'' hr => by
    obtain ⟨rfl, rfl⟩ := Prod.mk.inj (hr.symm.trans hx)
    exact ⟨rfl, rfl⟩

end Yields

/-! ## Errors and a local state -/

/-- The postcondition of a program that returns a value or an error together with its state. -/
def outcomeState (Q : α → σ → W → Prop) (E : ε → σ → W → Prop) : Except ε α × σ → W → Prop
  | (.ok a, s) => Q a s
  | (.error e, s) => E e s

/-- The weakest precondition of a program with a local state, which survives an error. -/
def wpt (M : Machine Res W χ) (rely guar : W → W → Prop)
    (x : ExceptT ε (StateT σ (Prog Res)) α) (Q : α → σ → W → Prop) (E : ε → σ → W → Prop) (s : σ) :
    W → Prop :=
  wp M rely guar (x.run.run s) (outcomeState Q E)

/-- A program without local state is one that leaves it alone. -/
instance liftState : MonadLift (ExceptT ε (Prog Res)) (ExceptT ε (StateT σ (Prog Res))) where
  monadLift x := ExceptT.mk (StateT.lift x.run)

section Rules

variable {M : Machine Res W χ} {rely guar : W → W → Prop}

@[simp] theorem wpt_pure (a : α) (Q : α → σ → W → Prop) (E : ε → σ → W → Prop) (s : σ) (w : W) :
    wpt M rely guar (pure a) Q E s w ↔ Q a s w := Iff.rfl

theorem wpt_bind (x : ExceptT ε (StateT σ (Prog Res)) α)
    (f : α → ExceptT ε (StateT σ (Prog Res)) β) (Q : β → σ → W → Prop) (E : ε → σ → W → Prop)
    (s : σ) (w : W) :
    wpt M rely guar (x >>= f) Q E s w ↔
      wpt M rely guar x (fun a s => wpt M rely guar (f a) Q E s) E s w := by
  simp only [wpt, ExceptT.run_bind, StateT.run_bind, wp_bind]
  have hf : (fun p : Except ε α × σ => wp M rely guar ((match p.1 with
        | .ok x => (f x).run
        | .error e => pure (.error e)).run p.2) (outcomeState Q E)) =
      outcomeState (fun a s => wp M rely guar ((f a).run.run s) (outcomeState Q E)) E := by
    funext ⟨a, s⟩
    cases a <;> rfl
  exact iff_of_eq (congrArg (wp M rely guar (x.run.run s) · w) hf)

theorem wpt_lift (x : ExceptT ε (Prog Res) α) (Q : α → σ → W → Prop) (E : ε → σ → W → Prop)
    (s : σ) (w : W) :
    wpt M rely guar (liftM x : ExceptT ε (StateT σ (Prog Res)) α) Q E s w ↔
      wpe M rely guar x (fun a => Q a s) (fun e => E e s) w := by
  change wp M rely guar (x.run >>= fun r => pure (r, s)) (outcomeState Q E) w ↔ _
  rw [wp_bind]
  exact iff_of_eq (congrArg (wp M rely guar x.run · w)
    (funext fun r => by cases r <;> rfl))

@[simp] theorem wpt_modify (f : σ → σ) (Q : PUnit → σ → W → Prop) (E : ε → σ → W → Prop) (s : σ)
    (w : W) :
    wpt M rely guar (modify f : ExceptT ε (StateT σ (Prog Res)) PUnit) Q E s w ↔
      Q .unit (f s) w := Iff.rfl

theorem wpt_adapt {ε' : Type u} (f : ε → ε') (x : ExceptT ε (StateT σ (Prog Res)) α)
    (Q : α → σ → W → Prop) (E : ε' → σ → W → Prop) (s : σ) (w : W) :
    wpt M rely guar (ExceptT.adapt f x) Q E s w ↔
      wpt M rely guar x Q (fun e => E (f e)) s w := by
  change wp M rely guar (x.run.run s >>= fun r => pure (r.1.mapError f, r.2)) (outcomeState Q E) w
    ↔ _
  rw [wp_bind]
  exact iff_of_eq (congrArg (wp M rely guar (x.run.run s) · w)
    (funext fun ⟨r, s⟩ => by cases r <;> rfl))

theorem wpt_mono {x : ExceptT ε (StateT σ (Prog Res)) α} {Q Q' : α → σ → W → Prop}
    {E E' : ε → σ → W → Prop} {s : σ} {w : W} (h : wpt M rely guar x Q E s w)
    (hQ : ∀ a s w, Q a s w → Q' a s w) (hE : ∀ e s w, E e s w → E' e s w) :
    wpt M rely guar x Q' E' s w :=
  wp_post h fun ⟨r, s⟩ w hr => by
    cases r with
    | ok a => exact hQ a s w hr
    | error e => exact hE e s w hr

/-- Sequencing, with the intermediate assertion given. -/
theorem wpt_seq {x : ExceptT ε (StateT σ (Prog Res)) α}
    {f : α → ExceptT ε (StateT σ (Prog Res)) β} {P : α → σ → W → Prop} {Q : β → σ → W → Prop}
    {E : ε → σ → W → Prop} {s : σ} {w : W} (hx : wpt M rely guar x P E s w)
    (hf : ∀ a s w, P a s w → wpt M rely guar (f a) Q E s w) : wpt M rely guar (x >>= f) Q E s w :=
  (wpt_bind x f Q E s w).2 (wpt_mono hx hf fun _ _ _ => id)

end Rules

end Effects

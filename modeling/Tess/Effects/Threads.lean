import Tess.Effects.Program

/-!
# Programs that run at the same time

A pool of programs over one shared world: a step is one operation of any of them, and the
operations of different programs interleave in any order. `PoolReaches.safe` is the rely–guarantee
rule: when each program's steps are what the others rely on, each keeps its own precondition along
every interleaving, and whatever every guarantee preserves is an invariant of the pool.

What the programs may rely on can depend on the past of a run, of which the world need not show
enough. `Machine.aux` adds a record that is computed along the run and that no program sees: a pool
reaches the same with it and without it (`PoolReaches.aux`), and a precondition proved without it
holds with it (`wp_aux`).
-/

namespace Effects

universe u v

variable {Ω : Type u} {Res : Ω → Type u} {W χ ρ : Type u} {ι : Type v}

/-- One operation of one program of the pool. The choices of the environment may depend on whose
operation it is. -/
inductive PoolStep [DecidableEq ι] (M : ι → Machine Res W χ) :
    (ι → Prog Res ρ) × W → (ι → Prog Res ρ) × W → Prop
  | step (ps : ι → Prog Res ρ) (w : W) (i : ι) (o : Ω) (k : Res o → Prog Res ρ) (c : χ)
      (hp : ps i = .op o k) (hc : (M i).may w o c) :
      PoolStep M (ps, w)
        (Function.update ps i (k ((M i).exec o c w).1), ((M i).exec o c w).2)

/-- The states of the pool that interleavings lead to. -/
inductive PoolReaches [DecidableEq ι] (M : ι → Machine Res W χ) (s : (ι → Prog Res ρ) × W) :
    (ι → Prog Res ρ) × W → Prop
  | refl : PoolReaches M s s
  | tail {s' s'' : (ι → Prog Res ρ) × W} (h : PoolReaches M s s') (hs : PoolStep M s' s'') :
      PoolReaches M s s''

variable {M : ι → Machine Res W χ} {rely guar : ι → W → W → Prop}

/-- A precondition is stable under the interference it allows for. -/
theorem wp_stable {M : Machine Res W χ} {rely guar : W → W → Prop}
    (htrans : ∀ w₁ w₂ w₃, rely w₁ w₂ → rely w₂ w₃ → rely w₁ w₃) {p : Prog Res ρ} {w w' : W}
    (h : wp M rely guar p (fun _ _ => True) w) (hw : rely w w') :
    wp M rely guar p (fun _ _ => True) w' := by
  cases p with
  | pure a => trivial
  | op o k => exact fun w'' hw' => h w'' (htrans _ _ _ hw hw')

/-- **The rely–guarantee rule.** -/
theorem PoolReaches.safe [DecidableEq ι] {I : W → Prop}
    (htrans : ∀ i w₁ w₂ w₃, rely i w₁ w₂ → rely i w₂ w₃ → rely i w₁ w₃)
    (hrefl : ∀ i w, rely i w w)
    (hguar : ∀ i j, i ≠ j → ∀ w w', I w → guar i w w' → rely j w w')
    (hI : ∀ i w w', I w → guar i w w' → I w') {ps ps' : ι → Prog Res ρ} {w w' : W}
    (h₀ : I w) (hps : ∀ i, wp (M i) (rely i) (guar i) (ps i) (fun _ _ => True) w)
    (h : PoolReaches M (ps, w) (ps', w')) :
    I w' ∧ ∀ i, wp (M i) (rely i) (guar i) (ps' i) (fun _ _ => True) w' := by
  suffices ∀ s, PoolReaches M (ps, w) s →
      I s.2 ∧ ∀ i, wp (M i) (rely i) (guar i) (s.1 i) (fun _ _ => True) s.2 from this _ h
  intro s h
  induction h with
  | refl => exact ⟨h₀, hps⟩
  | tail _ hs ih =>
    obtain ⟨hw, hall⟩ := ih
    cases hs with
    | step ps w i o k c hp hc =>
      have hi := hall i
      simp only [hp] at hi
      obtain ⟨hg, hi⟩ := hi w (hrefl i w) c hc
      refine ⟨hI i _ _ hw hg, fun j => ?_⟩
      by_cases hj : j = i
      · subst hj
        simpa using hi
      · simp only [Function.update_of_ne hj]
        exact wp_stable (htrans j) (hall j) (hguar i j (Ne.symm hj) _ _ hw hg)

/-! ## Runs with given turns -/

/-- Any part of the run of one program is a run of the pool. -/
theorem PoolReaches.reaches [DecidableEq ι] {s : (ι → Prog Res ρ) × W} {ps : ι → Prog Res ρ}
    {w w' : W} {i : ι} {p p' : Prog Res ρ} (h : PoolReaches M s (ps, w)) (hp : ps i = p)
    (hr : Reaches (M i) p w p' w') : PoolReaches M s (Function.update ps i p', w') := by
  induction hr generalizing ps with
  | refl p w =>
    subst hp
    rwa [Function.update_eq_self]
  | @step o k w c p' w' hc _ ih =>
    have hi := ih (h.tail (.step ps w i o k c hp hc)) (Function.update_self ..)
    rwa [Function.update_idem] at hi

/-- Let programs of the pool take turns, each for so many operations, all resolved by `c`. -/
def takeTurns [DecidableEq ι] (M : ι → Machine Res W χ) (c : χ) :
    List (ι × ℕ) → (ι → Prog Res ρ) × W → (ι → Prog Res ρ) × W
  | [], s => s
  | (i, n) :: turns, s =>
    takeTurns M c turns (Function.update s.1 i (run (M i) (List.replicate n c) (s.1 i) s.2).1,
      (run (M i) (List.replicate n c) (s.1 i) s.2).2)

/-- The environment has the choice `c` whenever it comes up in these turns. -/
def AdmitsTurns [DecidableEq ι] (M : ι → Machine Res W χ) (c : χ) :
    List (ι × ℕ) → (ι → Prog Res ρ) × W → Prop
  | [], _ => True
  | (i, n) :: turns, s =>
    Admits (M i) (List.replicate n c) (s.1 i) s.2 ∧
      AdmitsTurns M c turns (takeTurns M c [(i, n)] s)

instance decidableAdmitsTurns [DecidableEq ι] (M : ι → Machine Res W χ)
    [∀ i w o c, Decidable ((M i).may w o c)] (c : χ) :
    (turns : List (ι × ℕ)) → (s : (ι → Prog Res ρ) × W) → Decidable (AdmitsTurns M c turns s)
  | [], _ => isTrue trivial
  | (i, n) :: turns, s =>
    have := decidableAdmitsTurns M c turns (takeTurns M c [(i, n)] s)
    inferInstanceAs (Decidable (Admits (M i) (List.replicate n c) (s.1 i) s.2 ∧ _))

theorem admitsTurns_of_may [DecidableEq ι] {c : χ} (hc : ∀ i w o, (M i).may w o c)
    (turns : List (ι × ℕ)) (s : (ι → Prog Res ρ) × W) : AdmitsTurns M c turns s := by
  induction turns generalizing s with
  | nil => trivial
  | cons turn turns ih => exact ⟨admits_replicate (hc turn.1) turn.2 _ _, ih _⟩

theorem poolReaches_takeTurns [DecidableEq ι] {c : χ} {turns : List (ι × ℕ)}
    {s s' : (ι → Prog Res ρ) × W} (hc : AdmitsTurns M c turns s') (h : PoolReaches M s s') :
    PoolReaches M s (takeTurns M c turns s') := by
  induction turns generalizing s' with
  | nil => exact h
  | cons turn turns ih => exact ih hc.2 (h.reaches (i := turn.1) rfl (reaches_run hc.1))

/-! ## Auxiliary state -/

variable {α A : Type u}

/-- The machine with a record that each operation updates, from the world before and after it. -/
def Machine.aux (M : Machine Res W χ) (upd : W → W → A → A) : Machine Res (W × A) χ where
  exec o c wa := ((M.exec o c wa.1).1, (M.exec o c wa.1).2, upd wa.1 (M.exec o c wa.1).2 wa.2)
  may wa o c := M.may wa.1 o c

/-- The record does not restrict the pool. -/
theorem PoolReaches.aux [DecidableEq ι] (upd : ι → W → W → A → A) {ps ps' : ι → Prog Res ρ}
    {w w' : W} (h : PoolReaches M (ps, w) (ps', w')) (a : A) :
    ∃ a', PoolReaches (fun i => (M i).aux (upd i)) (ps, (w, a)) (ps', (w', a')) := by
  suffices ∀ s, PoolReaches M (ps, w) s →
      ∃ a', PoolReaches (fun i => (M i).aux (upd i)) (ps, (w, a)) (s.1, (s.2, a')) from this _ h
  intro s h
  induction h with
  | refl => exact ⟨a, .refl⟩
  | tail _ hs ih =>
    obtain ⟨a', ih⟩ := ih
    cases hs with
    | step ps₁ w₁ i o k c hp hc =>
      exact ⟨_, ih.tail (.step ps₁ (w₁, a') i o k c hp hc)⟩

/-- A precondition on the world, when the record satisfies `J` in it throughout. -/
theorem wp_aux {M : Machine Res W χ} {upd : W → W → A → A} {rely guar : W → W → Prop}
    {rely' guar' : W × A → W × A → Prop} {J : W × A → Prop}
    (hrely : ∀ wa wa', J wa → rely' wa wa' → rely wa.1 wa'.1 ∧ J wa')
    (hguar : ∀ w a w', J (w, a) → guar w w' →
      guar' (w, a) (w', upd w w' a) ∧ J (w', upd w w' a))
    {p : Prog Res α} {Q : α → W → Prop} {w : W} {a : A} (h : wp M rely guar p Q w) (ha : J (w, a)) :
    wp (M.aux upd) rely' guar' p (fun x wa => Q x wa.1 ∧ J wa) (w, a) := by
  induction p generalizing w a with
  | pure x => exact ⟨h, ha⟩
  | op o k ih =>
    rintro ⟨w', a'⟩ hw c hc
    obtain ⟨hr, ha'⟩ := hrely _ _ ha hw
    obtain ⟨hg, h⟩ := h w' hr c hc
    obtain ⟨hg', ha''⟩ := hguar _ _ _ ha' hg
    exact ⟨hg', ih _ h ha''⟩

end Effects

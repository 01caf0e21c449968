import Tess.Effects.Errors

/-!
# Transactions that record their progress

A transaction makes a list of changes, one step after another, and after each step that has
returned it records the change in its local state. A step that fails may have made its change, or
left some other trace; it is not recorded. So when a transaction stops, the changes made are a
prefix of the list, possibly with the trace of the step that failed, and the recorded ones are
exactly those of the steps that returned.

* `Halted` is that description, and `Finished` the one of a transaction that made every change.
* `Runs` says of a program that it is such a transaction. `Runs.bind` composes transactions, and
  `Runs.recorded` makes one of a single step.
-/

namespace Effects

universe u

/-- The changes of a transaction: what each does to the visible state, what a failure of its step
may leave, how it is recorded, and what is known once it has been made. -/
structure Changes (V C T : Type u) where
  apply : C → V → V
  spoil : C → V → V → Prop
  record : C → T → T
  valid : C → Prop

variable {V C T : Type u}

namespace Changes

variable (D : Changes V C T)

def applyAll (cs : List C) (v : V) : V := cs.foldl (fun v c => D.apply c v) v

def recordAll (cs : List C) (t : T) : T := cs.foldl (fun t c => D.record c t) t

@[simp] theorem applyAll_nil (v : V) : D.applyAll [] v = v := rfl

@[simp] theorem applyAll_cons (c : C) (cs : List C) (v : V) :
    D.applyAll (c :: cs) v = D.applyAll cs (D.apply c v) := rfl

theorem applyAll_append (cs cs' : List C) (v : V) :
    D.applyAll (cs ++ cs') v = D.applyAll cs' (D.applyAll cs v) := List.foldl_append ..

@[simp] theorem recordAll_nil (t : T) : D.recordAll [] t = t := rfl

@[simp] theorem recordAll_cons (c : C) (cs : List C) (t : T) :
    D.recordAll (c :: cs) t = D.recordAll cs (D.record c t) := rfl

theorem recordAll_append (cs cs' : List C) (t : T) :
    D.recordAll (cs ++ cs') t = D.recordAll cs' (D.recordAll cs t) := List.foldl_append ..

/-- What a transaction that was to make the changes `cs` leaves when it stops: the visible and the
local state it started in, and those it stopped in. -/
inductive Halted : List C → V → T → V → T → Prop
  | here (cs : List C) (v : V) (t : T) : Halted cs v t v t
  | spoiled {c : C} {v v' : V} (cs : List C) (t : T) (hc : D.valid c) (h : D.spoil c v v') :
      Halted (c :: cs) v t v' t
  | later {c : C} {cs : List C} {v v' : V} {t t' : T} (hc : D.valid c)
      (h : Halted cs (D.apply c v) (D.record c t) v' t') : Halted (c :: cs) v t v' t'

/-- What a transaction leaves that made all the changes. -/
structure Finished (cs : List C) (v : V) (t : T) (v' : V) (t' : T) : Prop where
  view : v' = D.applyAll cs v
  recorded : t' = D.recordAll cs t
  valid : ∀ c ∈ cs, D.valid c

/-- The visible states on the way. -/
def Within (cs : List C) (v v' : V) : Prop := ∀ t, ∃ t', D.Halted cs v t v' t'

variable {D}

theorem Halted.append {cs : List C} {v v' : V} {t t' : T} (h : D.Halted cs v t v' t')
    (cs' : List C) : D.Halted (cs ++ cs') v t v' t' := by
  induction h with
  | here cs v t => exact .here _ _ _
  | spoiled cs t hc h => exact .spoiled _ _ hc h
  | later hc _ ih => exact .later hc ih

theorem Finished.nil (v : V) (t : T) : D.Finished [] v t v t := ⟨rfl, rfl, by simp⟩

/-- After the first changes, the rest. -/
theorem Halted.after {cs cs' : List C} {v v' : V} {t t' : T} (hv : ∀ c ∈ cs, D.valid c)
    (h : D.Halted cs' (D.applyAll cs v) (D.recordAll cs t) v' t') :
    D.Halted (cs ++ cs') v t v' t' := by
  induction cs generalizing v t with
  | nil => exact h
  | cons c cs ih =>
    exact .later (hv c (by simp)) (ih (fun c' hc' => hv c' (by simp [hc'])) h)

theorem Finished.after {cs cs' : List C} {v v' : V} {t t' : T} (hv : ∀ c ∈ cs, D.valid c)
    (h : D.Finished cs' (D.applyAll cs v) (D.recordAll cs t) v' t') :
    D.Finished (cs ++ cs') v t v' t' where
  view := by rw [h.view, applyAll_append]
  recorded := by rw [h.recorded, recordAll_append]
  valid c hc := (List.mem_append.mp hc).elim (hv c) (h.valid c)

theorem Within.here (cs : List C) (v : V) : D.Within cs v v := fun t => ⟨t, .here _ _ _⟩

theorem Within.one {c : C} {v v' : V} (hc : D.valid c) (h : v' = D.apply c v) :
    D.Within [c] v v' := by
  subst h
  exact fun t => ⟨_, .later hc (.here _ _ _)⟩

theorem Within.spoiled {c : C} {v v' : V} (hc : D.valid c) (h : D.spoil c v v') :
    D.Within [c] v v' := fun t => ⟨t, .spoiled _ _ hc h⟩

theorem Within.append {cs : List C} {v v' : V} (h : D.Within cs v v') (cs' : List C) :
    D.Within (cs ++ cs') v v' := fun t => (h t).imp fun _ ht => ht.append cs'

theorem Within.after {cs cs' : List C} {v v' : V} (hv : ∀ c ∈ cs, D.valid c)
    (h : D.Within cs' (D.applyAll cs v) v') : D.Within (cs ++ cs') v v' :=
  fun t => (h (D.recordAll cs t)).imp fun _ ht => ht.after hv

/-- Where a transaction stops: after a prefix of the changes, or spoiled by the next one. -/
theorem Halted.prefix {cs : List C} {v v' : V} {t t' : T} (h : D.Halted cs v t v' t') :
    ∃ done rest, cs = done ++ rest ∧ (∀ c ∈ done, D.valid c) ∧ t' = D.recordAll done t ∧
      (v' = D.applyAll done v ∨
        ∃ c rest', rest = c :: rest' ∧ D.valid c ∧ D.spoil c (D.applyAll done v) v') := by
  induction h with
  | here cs v t => exact ⟨[], cs, rfl, by simp, rfl, .inl rfl⟩
  | @spoiled c v v' cs t hc h => exact ⟨[], c :: cs, rfl, by simp, rfl, .inr ⟨c, cs, rfl, hc, h⟩⟩
  | @later c cs v v' t t' hc _ ih =>
    obtain ⟨done, rest, rfl, hv, ht, hv'⟩ := ih
    exact ⟨c :: done, rest, rfl, by simpa [hc] using hv, ht, hv'⟩

end Changes

/-! ## Programs that are transactions -/

variable {Ω : Type u} {Res : Ω → Type u} {W χ ε α β : Type u}

/-- A step, recorded once it has succeeded. -/
def recorded (x : ExceptT ε (Prog Res) PUnit) (f : T → T) :
    ExceptT ε (StateT T (Prog Res)) PUnit := do
  liftM x
  modify f

/-- Run from the visible state `v` and the local state `t`, the program makes the changes `cs` and
returns a value of `Q`, or it stops on the way. -/
def Runs (M : Machine Res W χ) (view : W → V) (D : Changes V C T) (cs : List C) (v : V) (t : T)
    (x : ExceptT ε (StateT T (Prog Res)) α) (Q : α → Prop) : Prop :=
  ∀ w, view w = v → wpt M Eq (fun _ w' => D.Within cs v (view w')) x
    (fun a t' w' => Q a ∧ D.Finished cs v t (view w') t')
    (fun _ t' w' => D.Halted cs v t (view w') t') t w

section Rules

variable {M : Machine Res W χ} {view : W → V} {D : Changes V C T} {cs cs' : List C} {v : V} {t : T}

theorem wpt_guar {guar guar' : W → W → Prop} {x : ExceptT ε (StateT T (Prog Res)) α}
    {Q Q' : α → T → W → Prop} {E E' : ε → T → W → Prop} {w : W} (h : wpt M Eq guar x Q E t w)
    (hG : ∀ w w', guar w w' → guar' w w') (hQ : ∀ a s w, Q a s w → Q' a s w)
    (hE : ∀ e s w, E e s w → E' e s w) : wpt M Eq guar' x Q' E' t w :=
  wp_mono h hG fun ⟨r, s⟩ w hr => by
    cases r with
    | ok a => exact hQ a s w hr
    | error e => exact hE e s w hr

theorem Runs.pure {a : α} {Q : α → Prop} (h : Q a) :
    Runs (ε := ε) M view D [] v t (pure a) Q :=
  fun _ hw => ⟨h, by rw [hw]; exact .nil v t⟩

/-- **Composition**: the second transaction starts where the first one has finished. -/
theorem Runs.bind {x : ExceptT ε (StateT T (Prog Res)) α}
    {f : α → ExceptT ε (StateT T (Prog Res)) β} {P : α → Prop} {Q : β → Prop}
    (hx : Runs M view D cs v t x P)
    (hf : ∀ a, P a → (∀ c ∈ cs, D.valid c) →
      Runs M view D cs' (D.applyAll cs v) (D.recordAll cs t) (f a) Q) :
    Runs M view D (cs ++ cs') v t (x >>= f) Q := by
  intro w hw
  refine (wpt_bind ..).2 (wpt_guar (hx w hw) (fun _ _ h => h.append cs') ?_
    fun _ _ _ h => h.append cs')
  rintro a t' w' ⟨ha, hfin⟩
  obtain rfl := hfin.recorded
  refine wpt_guar (hf a ha hfin.valid w' hfin.view) (fun _ _ h => h.after hfin.valid) ?_
    fun _ _ _ h => h.after hfin.valid
  rintro b t'' w'' ⟨hb, hfin'⟩
  exact ⟨hb, hfin'.after hfin.valid⟩

theorem Runs.adapt {ε' : Type u} {x : ExceptT ε (StateT T (Prog Res)) α} {Q : α → Prop}
    (h : Runs M view D cs v t x Q) (f : ε → ε') :
    Runs M view D cs v t (ExceptT.adapt f x) Q :=
  fun w hw => (wpt_adapt ..).2 (h w hw)

/-- A program that changes nothing visible. -/
theorem Runs.lift {x : ExceptT ε (Prog Res) α} {Q : α → Prop}
    (hx : ∀ w, view w = v → wpe M Eq (fun _ w' => view w' = v) x (fun a w' => Q a ∧ view w' = v)
      (fun _ w' => view w' = v) w) :
    Runs M view D [] v t (liftM x : ExceptT ε (StateT T (Prog Res)) α) Q := by
  intro w hw
  refine (wpt_lift ..).2 (wp_mono (hx w hw) (fun _ w' h => ?_) ?_)
  · rw [h]
    exact .here _ _
  · intro r w' hr
    cases r with
    | ok a =>
      obtain ⟨ha, hv⟩ := hr
      exact ⟨ha, by rw [hv]; exact .nil v t⟩
    | error e =>
      obtain rfl : view w' = v := hr
      exact .here _ _ _

/-- A program that changes nothing visible, and then a transaction. -/
theorem Runs.quiet {x : ExceptT ε (Prog Res) α} {f : α → ExceptT ε (StateT T (Prog Res)) β}
    {P : α → Prop} {Q : β → Prop}
    (hx : ∀ w, view w = v → wpe M Eq (fun _ w' => view w' = v) x (fun a w' => P a ∧ view w' = v)
      (fun _ w' => view w' = v) w)
    (hf : ∀ a, P a → Runs M view D cs v t (f a) Q) :
    Runs M view D cs v t ((liftM x : ExceptT ε (StateT T (Prog Res)) α) >>= f) Q :=
  Runs.bind (.lift hx) fun a ha _ => hf a ha

/-- A step, and then a transaction. -/
theorem Runs.then {c : C} {x : ExceptT ε (StateT T (Prog Res)) α}
    {f : α → ExceptT ε (StateT T (Prog Res)) β} {P : α → Prop} {Q : β → Prop}
    (hx : Runs M view D [c] v t x P)
    (hf : ∀ a, P a → Runs M view D cs (D.apply c v) (D.record c t) (f a) Q) :
    Runs M view D (c :: cs) v t (x >>= f) Q :=
  Runs.bind hx fun a ha _ => hf a ha

theorem within_of_step {c : C} {v v' : V}
    (h : v' = v ∨ D.valid c ∧ (v' = D.apply c v ∨ D.spoil c v v')) : D.Within [c] v v' := by
  rcases h with rfl | ⟨hc, h | h⟩
  · exact .here _ _
  · exact .one hc h
  · exact .spoiled hc h

theorem halted_of_step {c : C} {v v' : V} (h : v' = v ∨ D.valid c ∧ D.spoil c v v') :
    D.Halted [c] v t v' t := by
  rcases h with rfl | ⟨hc, h⟩
  · exact .here _ _ _
  · exact .spoiled _ _ hc h

/-- A program that makes one change, which the transaction does not record. -/
theorem Runs.change {c : C} {x : ExceptT ε (Prog Res) α} {Q : α → Prop}
    (hx : ∀ w, view w = v → wpe M Eq
      (fun _ w' => view w' = v ∨ D.valid c ∧ (view w' = D.apply c v ∨ D.spoil c v (view w'))) x
      (fun a w' => Q a ∧ D.valid c ∧ view w' = D.apply c v)
      (fun _ w' => view w' = v ∨ D.valid c ∧ D.spoil c v (view w')) w) (hc : D.record c t = t) :
    Runs M view D [c] v t (liftM x : ExceptT ε (StateT T (Prog Res)) α) Q := by
  intro w hw
  refine (wpt_lift ..).2 (wp_mono (hx w hw) (fun _ _ h => within_of_step h) ?_)
  intro r w' hr
  cases r with
  | ok a =>
    obtain ⟨ha, hv, h⟩ := hr
    exact ⟨ha, h, by simp [hc], by simpa using hv⟩
  | error e => exact halted_of_step hr

/-- **A step**: a program that makes one change, recorded once it has returned. -/
theorem Runs.recorded {c : C} {x : ExceptT ε (Prog Res) PUnit} {f : T → T}
    (hx : ∀ w, view w = v → wpe M Eq
      (fun _ w' => view w' = v ∨ D.valid c ∧ (view w' = D.apply c v ∨ D.spoil c v (view w'))) x
      (fun _ w' => D.valid c ∧ view w' = D.apply c v)
      (fun _ w' => view w' = v ∨ D.valid c ∧ D.spoil c v (view w')) w) (hf : f t = D.record c t) :
    Runs M view D [c] v t (recorded x f) fun _ => True := by
  intro w hw
  refine (wpt_bind ..).2 ((wpt_lift ..).2 (wp_mono (hx w hw) (fun _ _ h => within_of_step h) ?_))
  intro r w' hr
  cases r with
  | ok a => exact ⟨trivial, hr.2, by simp [hf], by simpa using hr.1⟩
  | error e => exact halted_of_step hr

end Rules

end Effects

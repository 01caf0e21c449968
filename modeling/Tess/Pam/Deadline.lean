import Tess.Effects.Costs
import Tess.Pam.Supervise

/-!
# The time a helper is waited for

While it supervises the helper, the module naps between two looks at it. When the clock keeps up with
the naps, they do not add up to more than the deadline and two grace periods, whatever the helper
does and whichever call fails, and each wait is over after as many looks as its budget has naps, and
one more.
-/

namespace Tess

namespace Pam

namespace Supervise

open Effects

/-- The time that a call sleeps. -/
def nap : Event → ℕ
  | ⟨.sleep span, _⟩ => span
  | _ => 0

/-- Between two readings, the clock goes on by no less than the naps in between. -/
def KeepsUp (l : List Event) : Prop :=
  ∀ l₁ t l₂ t' l₃, l = l₁ ++ ⟨.now, t⟩ :: l₂ ++ ⟨.now, t'⟩ :: l₃ → t + total nap l₂ ≤ t'

theorem keepsUp_divisible : Divisible KeepsUp := by
  intro l l' h
  constructor
  · rintro l₁ t l₂ t' l₃ rfl
    exact h l₁ t l₂ t' (l₃ ++ l') (by simp)
  · rintro l₁ t l₂ t' l₃ rfl
    exact h (l ++ l₁) t l₂ t' l₃ (by simp)

/-- The clock is seen to keep up with the naps: `s` is the last reading and the naps since. -/
def KeepsUpFrom : ℕ → List Event → Prop
  | _, [] => True
  | s, ⟨.now, t⟩ :: l => s ≤ t ∧ KeepsUpFrom t l
  | s, e :: l => KeepsUpFrom (s + nap e) l

instance decidableKeepsUpFrom : (s : ℕ) → (l : List Event) → Decidable (KeepsUpFrom s l)
  | _, [] => isTrue trivial
  | s, ⟨o, x⟩ :: l => by
    cases o with
    | now =>
      have := decidableKeepsUpFrom x l
      exact inferInstanceAs (Decidable (s ≤ x ∧ _))
    | _ => exact decidableKeepsUpFrom _ l

theorem KeepsUpFrom.reading {s t : ℕ} {l l' : List Event}
    (h : KeepsUpFrom s (l ++ ⟨.now, t⟩ :: l')) : s + total nap l ≤ t ∧ KeepsUpFrom t l' := by
  induction l generalizing s with
  | nil => exact h
  | cons e l ih =>
    obtain ⟨o, x⟩ := e
    cases o with
    | now =>
      obtain ⟨hle, hrest⟩ := h
      obtain ⟨ht, hl'⟩ := ih hrest
      have hsum : total nap (⟨.now, x⟩ :: l) = total nap l := by simp [total, nap]
      rw [hsum]
      exact ⟨(Nat.add_le_add_right hle _).trans ht, hl'⟩
    | _ =>
      obtain ⟨ht, hl'⟩ := ih h
      refine ⟨?_, hl'⟩
      simpa [total, add_assoc] using ht

theorem KeepsUpFrom.keepsUp {s : ℕ} {l : List Event} (h : KeepsUpFrom s l) : KeepsUp l := by
  rintro l₁ t l₂ t' l₃ rfl
  rw [List.append_assoc] at h
  exact h.reading.2.reading.1

/-! ## One wait -/

section Wait

variable {budget interval started : ℕ} {l : List Event}

/-- After `k` rounds of a wait: the naps are within the budget, and since a reading `t`, `k` naps or
the whole budget have passed. -/
structure Napped (budget interval started k : ℕ) (l : List Event) : Prop where
  within : total nap l ≤ budget
  passed : ∃ l₁ t l₂, ⟨.now, started⟩ :: l = l₁ ++ ⟨.now, t⟩ :: l₂ ∧
    started + min (k * interval) budget ≤ t + total nap l₂

/-- What a reading after such rounds shows. -/
theorem Napped.reading {k t : ℕ} {l' : List Event} (h : Napped budget interval started k l)
    (hk : KeepsUp (⟨.now, started⟩ :: l ++ ⟨.now, t⟩ :: l')) :
    started + total nap l ≤ t ∧ started + min (k * interval) budget ≤ t := by
  obtain ⟨l₁, t₀, l₂, hl, hpassed⟩ := h.passed
  refine ⟨hk [] started l t l' rfl, hpassed.trans ?_⟩
  exact hk l₁ t₀ l₂ t l' (by rw [hl])

/-- A round that goes on ends with a nap, after a reading before the end of the budget. -/
theorem pollRound_next {r : Unit} (h : Ends (pollRound budget interval started) (.ok (.inl r)) l) :
    ∃ t, t - started < budget ∧ l = [⟨.tryWait, .ok none⟩, ⟨.now, t⟩,
      ⟨.sleep (min interval (budget - (t - started))), ()⟩] := by
  unfold pollRound tryWait now sleep at h
  obtain ⟨x, l', rfl, ⟨e, -, hr, -⟩ | ⟨status, hx, hgo⟩⟩ := ends_ask_bind_iff.1 h
  · cases hr
  clear h
  cases status with
  | some status =>
    obtain ⟨hr, -⟩ := ends_pure_iff.1 hgo
    cases Except.ok.inj hr
  | none =>
    obtain rfl := mapError_eq_ok.1 hx
    obtain ⟨t, l₂, rfl, ⟨_, ⟨⟩, -⟩ | ⟨_, ht, hnap⟩⟩ := ends_ask_bind_iff.1 hgo
    obtain rfl := Except.ok.inj ht
    dsimp only at hnap
    split_ifs at hnap with hr
    · obtain ⟨he, -⟩ := ends_pure_iff.1 hnap
      cases Except.ok.inj he
    · obtain ⟨_, l₃, rfl, ⟨_, ⟨⟩, -⟩ | ⟨_, -, hend⟩⟩ := ends_ask_bind_iff.1 hnap
      obtain ⟨-, rfl⟩ := ends_pure_iff.1 hend
      exact ⟨t, by omega, rfl⟩

theorem Napped.round {k t : ℕ} (h : Napped budget interval started k l)
    (ht : t - started < budget)
    (hk : KeepsUp (⟨.now, started⟩ :: (l ++ [⟨.tryWait, .ok none⟩, ⟨.now, t⟩,
      ⟨.sleep (min interval (budget - (t - started))), ()⟩]))) :
    Napped budget interval started (k + 1) (l ++ [⟨.tryWait, .ok none⟩, ⟨.now, t⟩,
      ⟨.sleep (min interval (budget - (t - started))), ()⟩]) := by
  have hlook : Napped budget interval started k (l ++ [⟨.tryWait, .ok none⟩]) := by
    obtain ⟨l₁, t₀, l₂, hl, hpassed⟩ := h.passed
    refine ⟨by simpa [nap] using h.within, l₁, t₀, l₂ ++ [⟨.tryWait, .ok none⟩], ?_, ?_⟩
    · rw [← List.cons_append, hl]
      simp
    · simpa [nap] using hpassed
  have hk' : KeepsUp (⟨.now, started⟩ :: (l ++ [⟨.tryWait, .ok none⟩]) ++ ⟨.now, t⟩ ::
      [⟨.sleep (min interval (budget - (t - started))), ()⟩]) := by simpa using hk
  obtain ⟨hnaps, hmin⟩ := hlook.reading hk'
  have hlen : total nap l ≤ t - started := by
    have : total nap (l ++ [⟨.tryWait, .ok none⟩]) = total nap l := by simp [nap]
    omega
  constructor
  · simp [nap]
    omega
  · refine ⟨⟨.now, started⟩ :: l ++ [⟨.tryWait, .ok none⟩], t,
      [⟨.sleep (min interval (budget - (t - started))), ()⟩], by simp, ?_⟩
    have hsucc : (k + 1) * interval = k * interval + interval := by
      rw [Nat.add_mul, Nat.one_mul]
    simp [nap]
    omega

/-- Where a wait stands with `n` of its rounds left, when it was given one more than `rounds`. -/
structure Waiting (budget interval started rounds n : ℕ) (l : List Event) : Prop where
  le : n ≤ rounds + 1
  napped : Napped budget interval started (rounds + 1 - n) l
  early : n ≤ rounds → (rounds - n) * interval < budget

theorem Waiting.round {rounds n t : ℕ} (h : Waiting budget interval started rounds (n + 1) l)
    (ht : t - started < budget)
    (hk : KeepsUp (⟨.now, started⟩ :: (l ++ [⟨.tryWait, .ok none⟩, ⟨.now, t⟩,
      ⟨.sleep (min interval (budget - (t - started))), ()⟩]))) :
    Waiting budget interval started rounds n (l ++ [⟨.tryWait, .ok none⟩, ⟨.now, t⟩,
      ⟨.sleep (min interval (budget - (t - started))), ()⟩]) := by
  have hle := h.le
  have hround := h.napped.round ht hk
  refine ⟨by omega, ?_, fun _ => ?_⟩
  · rwa [show rounds + 1 - n = rounds + 1 - (n + 1) + 1 by omega]
  · obtain ⟨l₁, t₀, l₂, hl, hpassed⟩ := h.napped.passed
    have hread : t₀ + total nap (l₂ ++ [⟨.tryWait, .ok none⟩]) ≤ t :=
      hk l₁ t₀ _ t [⟨.sleep (min interval (budget - (t - started))), ()⟩] (by
        rw [← List.cons_append, hl]
        simp)
    have hlook : total nap (l₂ ++ [⟨.tryWait, .ok none⟩]) = total nap l₂ := by simp [nap]
    have hcount : rounds + 1 - (n + 1) = rounds - n := by omega
    rw [hcount] at hpassed
    omega

/-- **A wait** naps for no more than its budget, and is over after as many rounds as the budget has
naps, and one more. -/
theorem poll_affords {rounds : ℕ} (hr : budget ≤ rounds * interval) :
    Affords nap KeepsUp budget (poll budget interval (rounds + 1)) := by
  intro r l h ht
  unfold poll now at h
  obtain ⟨started, l₂, rfl, ⟨_, ⟨⟩, -⟩ | ⟨_, hs, hloop⟩⟩ := ends_ask_bind_iff.1 h
  obtain rfl := Except.ok.inj hs
  refine ends_loop_rounds (l := [⟨.now, started⟩])
    (I := fun n _ l => KeepsUp l → ∃ l', l = ⟨.now, started⟩ :: l' ∧
      Waiting budget interval started rounds n l')
    (Q := fun r l => KeepsUp l → total nap l ≤ budget ∧ r ≠ .error .running)
    ?_ ?_ ?_ ?_ (fun _ => ⟨[], rfl, ?_⟩) hloop ht
  · intro _ l hI hk
    obtain ⟨l', rfl, hw⟩ := hI hk
    have := hw.early (Nat.zero_le _)
    rw [Nat.sub_zero] at this
    omega
  · intro n _ l _ l' hI h hk
    obtain ⟨l₀, rfl, hw⟩ := hI (keepsUp_divisible _ _ hk).1
    obtain ⟨t, ht, rfl⟩ := pollRound_next h
    exact ⟨_, rfl, hw.round ht hk⟩
  · intro n _ l a l' hI h hk
    obtain ⟨l₀, rfl, hw⟩ := hI (keepsUp_divisible _ _ hk).1
    have hnaps := hw.napped.within
    refine ⟨?_, nofun⟩
    obtain ⟨⟨⟩, -⟩ | ⟨status, -, rfl⟩ | ⟨t, -, -, rfl⟩ | ⟨_, ⟨⟩, -⟩ := pollRound_cases h
    · simpa [nap] using hnaps
    · simpa [nap] using hnaps
  · intro n _ l e l' hI h hk
    obtain ⟨l₀, rfl, hw⟩ := hI (keepsUp_divisible _ _ hk).1
    have hnaps := hw.napped.within
    obtain ⟨⟨⟩, -⟩ | ⟨_, ⟨⟩, -⟩ | ⟨_, ⟨⟩, -⟩ | ⟨e', he, rfl⟩ := pollRound_cases h
    refine ⟨by simpa [nap] using hnaps, ?_⟩
    rw [Except.error.inj he]
    nofun
  · refine ⟨le_rfl, ⟨by simp, [], started, [], rfl, by simp⟩, fun h => ?_⟩
    omega

end Wait

/-! ## The supervision -/

section Supervision

variable {watchdog : Watchdog} {rounds : ℕ}

theorem affords_send (pid : Pid) (signal : Signal) :
    Affords nap KeepsUp 0 (sendSignal pid signal) := by
  refine affords_ask (fun _ => le_rfl) fun y => ?_
  unfold signalled
  split <;> nofun

theorem waitWithin_affords {budget interval : ℕ} (hr : budget ≤ rounds * interval) :
    Affords nap KeepsUp budget (waitWithin budget interval (rounds + 1)) :=
  (poll_affords hr).bind keepsUp_divisible fun _ => affords_pure _

theorem escalateTermination_affords (pid : Pid) (hr : watchdog.termGrace ≤ rounds * watchdog.poll) :
    Affords nap KeepsUp (2 * watchdog.termGrace)
      (escalateTermination pid watchdog (rounds + 1)) := by
  unfold escalateTermination
  refine ((affords_send pid .sigterm).bind keepsUp_divisible
    (c := watchdog.termGrace + (0 + watchdog.termGrace)) fun _ => ?_).mono (by omega)
  refine (waitWithin_affords hr).bind keepsUp_divisible fun exited => ?_
  split
  · exact (affords_pure _).mono (Nat.zero_le _)
  · refine (affords_send pid .sigkill).bind keepsUp_divisible fun _ => ?_
    refine ((waitWithin_affords hr).bind keepsUp_divisible (c := 0) fun exited => ?_).mono le_rfl
    split <;> exact affords_pure _

theorem affords_reap : Affords nap KeepsUp 0 reapInBackground :=
  affords_ask (fun _ => le_rfl) fun _ => nofun

theorem supervise_affords (pid : Pid) (hd : watchdog.deadline ≤ rounds * watchdog.poll)
    (hg : watchdog.termGrace ≤ rounds * watchdog.poll) :
    Affords nap KeepsUp (watchdog.deadline + 2 * watchdog.termGrace)
      (supervise pid watchdog (rounds + 1)) := by
  unfold supervise
  refine (poll_affords hd).bind keepsUp_divisible fun status => ?_
  cases status with
  | some status => exact (affords_pure _).mono (Nat.zero_le _)
  | none =>
    refine ((escalateTermination_affords pid hg).settle.bind keepsUp_divisible (c := 0)
      fun kill => ?_).mono le_rfl
    obtain e | escalated | _ := kill
    · exact affords_reap.bind keepsUp_divisible (c := 0) fun _ => affords_throw e
    · exact affords_pure _
    · exact affords_reap.bind keepsUp_divisible (c := 0) fun _ => affords_pure _

theorem spawn_affords (command : Command) (stdin : Option (List UInt8)) :
    Affords nap KeepsUp 0 (spawn command stdin) :=
  affords_ask (fun _ => le_rfl) fun y => by cases y <;> nofun

theorem runWithInput_affords (command : Command) (input : List UInt8)
    (hd : watchdog.deadline ≤ rounds * watchdog.poll)
    (hg : watchdog.termGrace ≤ rounds * watchdog.poll) :
    Affords nap KeepsUp (watchdog.deadline + 2 * watchdog.termGrace)
      (runWithInput command watchdog input (rounds + 1)) := by
  have hfree : ∀ {α : Type} {x : Io α} {f : α → Io RunOutcome}, Affords nap KeepsUp 0 x →
      (∀ a, Affords nap KeepsUp (watchdog.deadline + 2 * watchdog.termGrace) (f a)) →
      Affords nap KeepsUp (watchdog.deadline + 2 * watchdog.termGrace) (x >>= f) :=
    fun hx hf => (hx.bind keepsUp_divisible hf).mono (by omega)
  unfold runWithInput
  refine hfree (affords_ensure _ _) fun _ => ?_
  refine hfree (affords_ask (fun _ => le_rfl) fun y => by cases y <;> nofun) fun _ => ?_
  refine hfree (affords_ask (fun _ => le_rfl) fun y => by cases y <;> nofun) fun _ => ?_
  refine hfree (affords_ask (fun _ => le_rfl) fun y => by cases y <;> nofun) fun _ => ?_
  exact hfree (spawn_affords command (some input)) fun pid => supervise_affords pid hd hg

theorem run_affords (command : Command) (hd : watchdog.deadline ≤ rounds * watchdog.poll)
    (hg : watchdog.termGrace ≤ rounds * watchdog.poll) :
    Affords nap KeepsUp (watchdog.deadline + 2 * watchdog.termGrace)
      (run command watchdog (rounds + 1)) :=
  ((spawn_affords command none).bind keepsUp_divisible fun pid =>
    supervise_affords pid hd hg).mono (by omega)

/-- **The deadline.** When the clock keeps up with the naps, a run of the helper is over after so
many rounds in each wait as the longest wait has naps, and one more, and it naps for no longer than
the deadline and two grace periods: whatever the helper does, and whichever call fails. -/
theorem helper_bounded {command : Command} (input : List UInt8) {x : Io RunOutcome}
    (hx : x = run command watchdog (rounds + 1) ∨
      x = runWithInput command watchdog input (rounds + 1))
    (hd : watchdog.deadline ≤ rounds * watchdog.poll)
    (hg : watchdog.termGrace ≤ rounds * watchdog.poll) {r : Except (Stop IoError) RunOutcome}
    {l : List Event} (h : Ends x r l) (hk : KeepsUp l) :
    r ≠ .error .running ∧ total nap l ≤ watchdog.deadline + 2 * watchdog.termGrace := by
  have hbound : Affords nap KeepsUp (watchdog.deadline + 2 * watchdog.termGrace) x := by
    obtain rfl | rfl := hx
    · exact run_affords command hd hg
    · exact runWithInput_affords command input hd hg
  exact (hbound r l h hk).symm

theorem helper_bounded_killed :
    total nap killedRun ≤ sampleWatchdog.deadline + 2 * sampleWatchdog.termGrace :=
  (helper_bounded [] (.inl rfl) (by decide) (by decide) ends_killedRun
    (KeepsUpFrom.keepsUp (s := 0) (by decide))).2

end Supervision

end Supervise

end Pam

end Tess

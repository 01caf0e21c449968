import Tess.Concurrent.Cohort

/-!
# Holding the stake

A process works on a stake that it does not hold, or that it holds. In both cases the others let its
calm parts be (`wp_free`, `wp_mine`): what it relies on differs, and while it holds the stake nobody
else changes it. The steps that are not calm are the ones that change the stake: a rekey, the rename
of a recovery blob onto its name, the removal of that blob.
-/

namespace Tess

open Files Effects Recovery

/-- A rekey that is reported as failed has not taken effect, and a recovery blob is renamed onto its
name only when the name is free. -/
def freeRecovery (h : Host) (o : Op) (f : Fault) : Prop :=
  noLateRekey h o f ∧
    ∀ p, o = .file (.rename p (.main .recovery)) → f = .ok → h.files .recovery = none

/-- The name that a rename puts a file under. -/
def renameTarget : Op → Option Path
  | .file (.rename _ q) => some q
  | _ => none

theorem renameTarget_eq_some {o : Op} {q : Path} :
    renameTarget o = some q ↔ ∃ p, o = .file (.rename p q) := by
  constructor
  · intro h
    unfold renameTarget at h
    split at h
    · obtain rfl := Option.some.inj h
      exact ⟨_, rfl⟩
    · cases h
  · rintro ⟨p, rfl⟩
    rfl

instance (h : Host) (o : Op) (f : Fault) : Decidable (freeRecovery h o f) :=
  decidable_of_iff (noLateRekey h o f ∧
    (renameTarget o = some (.main .recovery) → f = .ok → h.files .recovery = none)) <| by
    rw [renameTarget_eq_some, forall_exists_index]
    rfl

instance (E : Primitives) (h : Host) (o : Op) (f : Fault) :
    Decidable ((machine E freeRecovery).may h o f) :=
  inferInstanceAs (Decidable (freeRecovery h o f))

section Processes

variable {ι : Type} (c : Crowd ι) (E : Primitives) (i : ι)

/-- The machine of a process, with the record of who has changed the stake last. -/
abbrev tracked : Machine Op.Res (Host × Option ι) Fault :=
  (machine E freeRecovery).aux (holder i)

/-- The host is sound, on the TPM of the cohort. -/
structure Crowd.Fine (seed : ℕ) (h : Host) : Prop where
  sound : c.Sound E h.view
  seed : h.tpm.seed = seed

/-- What a process relies on while it does not hold the stake. -/
structure Crowd.RelyFree (pid : ℕ) (h h' : Host) : Prop where
  temps : ∀ a tag, h'.at_ (.temp a pid tag) = h.at_ (.temp a pid tag)
  seed : h'.tpm.seed = h.tpm.seed
  sound : c.Sound E h.view → c.Sound E h'.view

/-- What it relies on while it holds the stake. -/
structure Crowd.RelyMine (pid : ℕ) (h h' : Host) : Prop extends c.RelyFree E pid h h' where
  stake : h'.view.stake = h.view.stake

variable {c E i} {seed : ℕ} {h : Host} {a : Option ι} {w : Host × Option ι}

theorem Crowd.RelyFree.keepsTemps (pid : ℕ) : KeepsTemps pid (c.RelyFree E pid) :=
  fun _ _ hh => hh.temps

theorem Crowd.RelyMine.keepsTemps (pid : ℕ) : KeepsTemps pid (c.RelyMine E pid) :=
  fun _ _ hh => hh.temps

theorem Crowd.Fine.steady (pid : ℕ) :
    Steady E c.Generated pid (c.RelyFree E pid) (c.Fine E seed) where
  rely _ _ hh hf := ⟨hh.sound hf.sound, hh.seed.trans hf.seed⟩
  calm _ _ hh hf := ⟨hf.sound.calm hh, hh.seed.trans hf.seed⟩

/-- While the process holds the stake, the stake is what it was. -/
theorem Crowd.Fine.steady_stake (pid : ℕ) (s : SecretBytes × Option (Node Path)) :
    Steady E c.Generated pid (c.RelyMine E pid)
      fun h => c.Fine E seed h ∧ h.view.stake = s where
  rely _ _ hh hf := ⟨⟨hh.sound hf.1.sound, hh.seed.trans hf.1.seed⟩, hh.stake.trans hf.2⟩
  calm _ _ hh hf := ⟨⟨hf.1.sound.calm hh, hh.seed.trans hf.1.seed⟩, hh.stake.trans hf.2⟩

theorem Crowd.Fine.rely {w w' : Host × Option ι} (hf : c.Fine E seed w.1)
    (hw : c.Rely E i w w') : c.Fine E seed w'.1 := ⟨hw.sound hf.sound, hw.seed.trans hf.seed⟩

/-! ## Calm parts -/

/-- A calm program of a process that may not hold the stake. -/
theorem wp_free {α : Type} {p : Prog Op.Res α} {Q : α → Host → Prop}
    (hp : wp (machine E freeRecovery) (c.RelyFree E (c.proc i).pid)
      (Calm E c.Generated (c.proc i).pid) p Q h) :
    wp (tracked E i) (c.Rely E i) (c.Guarantee E i) p (fun x w => Q x w.1) (h, a) :=
  wp_post (wp_aux (J := fun _ => True) (fun _ _ _ hw => ⟨⟨hw.temps, hw.seed, hw.sound⟩, trivial⟩)
    (fun _ _ _ _ hc => ⟨.of_calm hc, trivial⟩) hp trivial) fun _ _ hQ => hQ.1

/-- A calm program of a process that holds the stake. -/
theorem wp_mine {α : Type} {p : Prog Op.Res α} {Q : α → Host → Prop} (hm : c.Mine i (h, a))
    (hp : wp (machine E freeRecovery) (c.RelyMine E (c.proc i).pid)
      (Calm E c.Generated (c.proc i).pid) p Q h) :
    wp (tracked E i) (c.Rely E i) (c.Guarantee E i) p (fun x w => Q x w.1 ∧ c.Mine i w) (h, a) := by
  refine wp_aux (J := c.Mine i) (fun w w' hm hw => ?_) (fun h a h' hm hc => ?_) hp hm
  · obtain ⟨hs, ha⟩ := hw.mine hm
    exact ⟨⟨⟨hw.temps, hw.seed, hw.sound⟩, hs⟩, hm.of_stake hs ha⟩
  · exact ⟨.of_calm hc, hm.of_stake hc.stake (if_pos hc.stake)⟩

theorem wpe_free {ε α : Type} {x : ExceptT ε (Prog Op.Res) α} {Q : α → Host → Prop}
    {X : ε → Host → Prop}
    (hp : wpe (machine E freeRecovery) (c.RelyFree E (c.proc i).pid)
      (Calm E c.Generated (c.proc i).pid) x Q X h) :
    wpe (tracked E i) (c.Rely E i) (c.Guarantee E i) x (fun u w => Q u w.1)
      (fun e w => X e w.1) (h, a) :=
  wp_post (wp_free hp) fun r _ hr => by cases r <;> exact hr

theorem wpe_mine {ε α : Type} {x : ExceptT ε (Prog Op.Res) α} {Q : α → Host → Prop}
    {X : ε → Host → Prop} (hm : c.Mine i (h, a))
    (hp : wpe (machine E freeRecovery) (c.RelyMine E (c.proc i).pid)
      (Calm E c.Generated (c.proc i).pid) x Q X h) :
    wpe (tracked E i) (c.Rely E i) (c.Guarantee E i) x (fun u w => Q u w.1 ∧ c.Mine i w)
      (fun e w => X e w.1 ∧ c.Mine i w) (h, a) :=
  wp_post (wp_mine hm hp) fun r _ hr => by cases r <;> exact hr

theorem wpe_quiet_free {ε α : Type} {x : ExceptT ε (Prog Op.Res) α}
    (hx : AllOps (Quiet (c.proc i).pid) x) (hf : c.Fine E seed w.1) :
    wpe (tracked E i) (c.Rely E i) (c.Guarantee E i) x (fun _ w => c.Fine E seed w.1)
      (fun _ w => c.Fine E seed w.1) w :=
  wpe_free (wpe_quiet (Crowd.Fine.steady _).stable hx hf)

/-- An operation that does nothing. -/
theorem same_concurrent {o : Op} {f : Fault} {Q : Host × Option ι → Prop}
    (hs : (exec E o f h).2 = h) (hQ : Q (h, a)) :
    c.Guarantee E i (h, a) ((tracked E i).exec o f (h, a)).2 ∧
      Q ((tracked E i).exec o f (h, a)).2 := by
  have hsame : ((tracked E i).exec o f (h, a)).2 = (h, a) := by
    change ((exec E o f h).2, holder i h (exec E o f h).2 a) = (h, a)
    rw [hs, holder_self]
  rw [hsame]
  exact ⟨.refl _, hQ⟩

/-! ## Changing the stake -/

/-- A rekey: it takes effect, or it fails and changes nothing. -/
theorem rekey_concurrent {old new : SecretBytes} {generated : Bool} {P Q : Host × Option ι → Prop}
    {X : Error → Host × Option ι → Prop} (hP : ∀ w w', c.Rely E i w w' → P w → P w')
    (hok : ∀ h a h', P (h, a) → h.view.credential = old →
      Step (c.proc i).pid (·.rekey new generated) h h' →
      c.Guarantee E i (h, a) (h', holder i h h' a) ∧ Q (h', holder i h h' a))
    (herr : ∀ e w, P w → X e w) (h₀ : P w) :
    wpe (tracked E i) (c.Rely E i) (c.Guarantee E i) (keyringRekey old new generated)
      (fun _ => Q) X w := by
  rintro ⟨h, a⟩ hw f hf
  have hPh := hP _ _ hw h₀
  have hlate : f ≠ .late := hf.1 old new generated rfl
  rcases exec_rekey E (c.proc i).pid h f old new generated with
    ⟨hres, hc, hstep⟩ | ⟨e, hres, ⟨-, hs⟩ | ⟨hl, -, -⟩⟩
  · obtain ⟨hg, hQ⟩ := hok _ _ _ hPh hc hstep
    exact ⟨hg, outcome_of_ok hres hQ⟩
  · obtain ⟨hg, hx⟩ := same_concurrent (c := c) (i := i) (Q := X e) hs (herr e _ hPh)
    exact ⟨hg, outcome_of_error hres hx⟩
  · exact absurd hl hlate

/-- A sound stake without a recovery blob is a password. -/
theorem Crowd.Sound.password_of_free {v : View} (hs : c.Sound E v)
    (hfree : v.files .recovery = none) : c.Supplied v.credential := by
  rcases hs.backed with hc | ⟨_, -, -, b, m, hb, -⟩
  · exact hc
  · cases hfree.symm.trans hb

/-- The process has put its recovery blob in place, and has not rekeyed yet. -/
structure Crowd.Placed (c : Crowd ι) (E : Primitives) (i : ι) (args : EnrollArgs) (seed : ℕ)
    (w : Host × Option ι) : Prop where
  fine : c.Fine E seed w.1
  mine : c.Mine i w
  blob : ∃ b, w.1.view.files .recovery = some (.file b 0o600) ∧ blobBytes E args.draws = some b

/-- What a process holds, it keeps through a calm part. -/
theorem Crowd.Placed.wpe {args : EnrollArgs} {ε α : Type} {x : ExceptT ε (Prog Op.Res) α}
    (hw : c.Placed E i args seed w)
    (hx : ∀ s, Steady E c.Generated (c.proc i).pid (c.RelyMine E (c.proc i).pid)
        (fun h => c.Fine E seed h ∧ h.view.stake = s) → ∀ h, c.Fine E seed h ∧ h.view.stake = s →
      Effects.wpe (machine E freeRecovery) (c.RelyMine E (c.proc i).pid)
        (Calm E c.Generated (c.proc i).pid) x (fun _ h => c.Fine E seed h ∧ h.view.stake = s)
        (fun _ h => c.Fine E seed h ∧ h.view.stake = s) h) :
    Effects.wpe (tracked E i) (c.Rely E i) (c.Guarantee E i) x
      (fun _ => c.Placed E i args seed) (fun _ => c.Placed E i args seed) w := by
  obtain ⟨b, hb, hblob⟩ := hw.blob
  have hkeep : ∀ w' : Host × Option ι, (c.Fine E seed w'.1 ∧ w'.1.view.stake = w.1.view.stake) ∧
      c.Mine i w' → c.Placed E i args seed w' := fun w' ⟨⟨hf, hs⟩, hm⟩ =>
    ⟨hf, hm, b, (congrArg Prod.snd hs).trans hb, hblob⟩
  exact wpe_mono (wpe_mine hw.mine (hx _ (Crowd.Fine.steady_stake _ _) _ ⟨hw.fine, rfl⟩))
    (fun _ w' h => hkeep w' h) fun _ w' h => hkeep w' h

/-- Publishing the recovery blob: afterwards the process holds the stake. -/
theorem publish_recovery {args : EnrollArgs} {tag : ℕ} {bytes : Bytes} (f g : IoError → Error)
    (hf : c.Fine E seed w.1) (hblob : blobBytes E args.draws = some bytes)
    (htemp : w.1.at_ (.temp .recovery (c.proc i).pid tag) = some (.file bytes 0o600)) :
    wpe (tracked E i) (c.Rely E i) (c.Guarantee E i)
      (publish (.temp .recovery (c.proc i).pid tag) .recovery f g)
      (fun _ => c.Placed E i args seed) (fun _ w => c.Fine E seed w.1) w := by
  refine wpe_seq (P := fun _ => c.Placed E i args seed) ((wpe_cleanup ..).2 ?_) fun _ w hw =>
    (wpe_adapt ..).2 ?_
  · rintro ⟨h, a⟩ hw fault hmay
    have hf' : c.Fine E seed h := hf.rely hw
    rcases exec_rename (E := E) (a := .recovery) fault ((hw.temps _ _).trans htemp) with
      ⟨rfl, hres, hstep⟩ | ⟨e, hres, hsame⟩
    · have hfree : h.view.files .recovery = none := hmay.2 _ rfl rfl
      have hpass := hf'.sound.password_of_free hfree
      have hview := hstep.view
      generalize hh' : (exec E (.file (.rename (.temp .recovery (c.proc i).pid tag)
        (.main .recovery))) .ok h).2 = h' at hview hstep
      have hsound : c.Sound E (h.view.place .recovery bytes) :=
        ⟨.inl hpass, metadataWithin_of_files (View.files_place_of_ne _ _ (by simp))
          hf'.sound.metadata⟩
      have hstake : h'.view.stake ≠ h.view.stake := by
        intro hs
        have := congrArg Prod.snd hs
        simp only [View.stake, hview, View.files_place_self, hfree] at this
        cases this
      have hplaced : c.Placed E i args seed (h', holder i h h' a) := by
        refine ⟨⟨hview ▸ hsound, (congrArg View.seed hview).trans hf'.seed⟩,
          ⟨if_neg hstake, ⟨hview ▸ hpass, ?_⟩⟩, bytes, ?_, hblob⟩
        · simp [hview]
        · simp [hview]
      have hg : c.Guarantee E i (h, a) (h', holder i h h' a) :=
        .of_step hstep rfl (fun _ => hsound) fun hb => absurd hfree hb.blob
      subst hh'
      exact ⟨hg, outcome_of_ok hres hplaced⟩
    · obtain ⟨hg, hf''⟩ :=
        same_concurrent (c := c) (i := i) (a := a) (Q := fun w => c.Fine E seed w.1) hsame hf'
      exact ⟨hg, outcome_of_error hres
        (wp_free (wp_quiet (Crowd.Fine.steady _).stable (discard_all ⟨_, tag, rfl⟩) hf''))⟩
  · exact wpe_mono (hw.wpe fun s hs h hh => wpe_calm hs (x := syncParentDir (.main .recovery))
      ⟨trivial, fun _ => trivial⟩ hh) (fun _ _ h => h) fun _ _ h => h.fine

end Processes

end Tess

import Tess.Mug.Gate

/-!
# The emitter

Where the emitter is left by a liveness pair and by the gate: off, but for a pair whose frame with
the emitter on is not delivered, and an emitter that cannot be turned on.
-/

namespace Tess

namespace Mug

open Effects

variable {F : Type} {K : Kernels F} {detector : Bool} {enrolled : FaceEnrollment F}
  {frame : IrFrame} {deadline deadlineMs rounds : ℕ} {distances : List F} {cfg : LivenessConfig F}

/-- A call to anything but the emitter. -/
def Quiet : Event F → Prop
  | ⟨.setEnabled _, _⟩ => False
  | _ => True

/-- Whenever the emitter was told to turn off, it did. -/
def OffSucceeds (l : List (Event F)) : Prop := ∀ x, ⟨.setEnabled false, x⟩ ∈ l → x = .ok ()

/-- The emitter could not be turned on, or it is on and the frame of the pair that shows it is not
delivered. -/
def OnFails (l : List (Event F)) : Prop :=
  (∃ e, ⟨.setEnabled true, .error e⟩ ∈ l) ∨ ∃ e, (captures l)[1]? = some (.error e)

theorem commands_quiet {l : List (Event F)} (h : ∀ e ∈ l, Quiet e) : commands l = [] := by
  refine List.filterMap_eq_nil_iff.2 fun e he => ?_
  obtain ⟨o, x⟩ := e
  cases o with
  | setEnabled on => exact (h _ he).elim
  | _ => rfl

theorem leftOff_concat (l : List (Event F)) (x : Except (MugError F) Unit) :
    LeftOff (l ++ [⟨.setEnabled false, x⟩]) := by
  rw [LeftOff, commands_append]
  exact List.getLast?_concat ..

theorem FrameRun.quiet {r : Except (Stop (MugError F)) (Option F)} {l : List (Event F)}
    (h : FrameRun K enrolled frame detector r l) : ∀ e ∈ l, Quiet e := by
  cases h <;> simp [Quiet]

theorem MatchRound.quiet {r : Except (Stop (MugError F)) (List F ⊕ List F)} {l : List (Event F)}
    (h : MatchRound K detector enrolled deadline distances r l) : ∀ e ∈ l, Quiet e := by
  cases h with
  | delivered hd ht hf => simpa [Quiet] using hf.quiet
  | _ => simp [Quiet]

/-- **The emitter and the pair.** -/
theorem PairRun.leftOff_iff {r : Except (Stop (MugError F)) FramePair} {l : List (Event F)}
    (h : PairRun deadlineMs r l) (hoff : OffSucceeds l) : LeftOff l ↔ ¬ OnFails l := by
  cases h with
  | offRefused t₀ e => cases hoff (.error e) (by simp)
  | _ => simp [LeftOff, OnFails, commands, captures]

/-- The calls of a captured pair, followed by calls that leave the emitter alone. -/
def Shown (l : List (Event F)) : Prop :=
  ∃ deadlineMs t₀ t pair x l', (∀ e ∈ l', Quiet e) ∧ l = pairEvents deadlineMs t₀ t pair x ++ l'

theorem PairRun.shown {pair : FramePair} {l l' : List (Event F)}
    (h : PairRun deadlineMs (.ok pair) l) (hl' : ∀ e ∈ l', Quiet e) : Shown (l ++ l') := by
  obtain ⟨t₀, t, x, rfl⟩ := h.ok
  exact ⟨deadlineMs, t₀, t, pair, x, l', hl', rfl⟩

theorem Shown.leftOff {l : List (Event F)} (h : Shown l) : LeftOff l := by
  obtain ⟨_, _, _, _, _, l', hl, rfl⟩ := h
  rw [LeftOff, commands_append, commands_quiet hl, List.append_nil]
  rfl

/-- After the pair, only turning the emitter on can fail. -/
theorem Shown.onFails_iff {l : List (Event F)} (h : Shown l) (l' : List (Event F)) :
    OnFails (l ++ l') ↔ ∃ e, ⟨.setEnabled true, .error e⟩ ∈ l' := by
  obtain ⟨_, _, _, _, _, m, hm, rfl⟩ := h
  have hm' : ∀ e, (⟨.setEnabled true, .error e⟩ : Event F) ∉ m := fun e he => hm _ he
  simp [OnFails, pairEvents, captures, hm']

variable [LinearOrder F]

/-- Matching leaves the emitter alone. -/
theorem matchFace_quiet {r : Except (Stop (MugError F)) Unit} {l : List (Event F)}
    (h : Ends (matchFace K detector enrolled deadline rounds distances) r l) :
    ∀ e ∈ l, Quiet e := by
  have hloop : ∀ {r l}, Ends (loop (matchRound K detector enrolled deadline) rounds distances) r l →
      ∀ e ∈ l, Quiet e := by
    intro r l h
    have hgo : ∀ (s : List F) (l : List (Event F)) r l', (∀ e ∈ l, Quiet e) →
        Ends (matchRound K detector enrolled deadline s) r l' → ∀ e ∈ l ++ l', Quiet e :=
      fun s l r l' hl h e he =>
        (List.mem_append.1 he).elim (hl e) ((matchRound_run h).quiet e)
    exact ends_loop (I := fun _ l => ∀ e ∈ l, Quiet e) (Q := fun _ l => ∀ e ∈ l, Quiet e)
      (fun _ _ hl => hl) (fun s l _ l' => hgo s l _ l') (fun s l _ l' => hgo s l _ l')
      (fun s l _ l' => hgo s l _ l') (l := []) nofun h
  obtain ⟨e, -, hl⟩ | ⟨ds, l₁, l₂, rfl, hl, hd⟩ := ends_bind_iff.1 h
  · exact hloop hl
  · obtain ⟨-, rfl⟩ := ends_ofResult_iff.1 hd
    rw [List.append_nil]
    exact hloop hl

/-- **The emitter and the gate.** -/
theorem VerifyRun.leftOff_iff {r : Except (Stop (MugError F)) Unit} {l : List (Event F)}
    (h : VerifyRun K detector enrolled cfg deadlineMs rounds r l) (hr : r ≠ .error .running)
    (hoff : OffSucceeds l) : LeftOff l ↔ ¬ OnFails l := by
  -- the clock is read before the pair
  have hnow : ∀ (t : ℕ) (l : List (Event F)),
      (LeftOff (⟨.now, t⟩ :: l) ↔ LeftOff l) ∧ (OnFails (⟨.now, t⟩ :: l) ↔ OnFails l) :=
    fun t l => ⟨.rfl, by simp [OnFails, captures]⟩
  cases h with
  | notCaptured t hp =>
    rw [(hnow t _).1, (hnow t _).2]
    exact hp.leftOff_iff fun x hx => hoff x (List.mem_cons_of_mem _ hx)
  | @notLive t pair l hp e hj =>
    have hs : Shown (l ++ []) := hp.shown nofun
    rw [List.append_nil] at hs
    rw [(hnow t _).1, (hnow t _).2]
    have hno : ¬ OnFails l := by simpa using (hs.onFails_iff []).not
    exact iff_of_true hs.leftOff hno
  | @notMatched t pair l hp f hj e l' hf =>
    have hs : Shown (l ++ l') := hp.shown hf.quiet
    have hno : ¬ OnFails (l ++ l') := by simpa using (hs.onFails_iff []).not
    rw [List.cons_append, (hnow t _).1, (hnow t _).2]
    exact iff_of_true hs.leftOff hno
  | @notLit t pair l hp f hj d l' hf e =>
    have hs : Shown (l ++ l') := hp.shown hf.quiet
    rw [List.cons_append, List.cons_append, (hnow t _).1, (hnow t _).2, hs.onFails_iff]
    simp [LeftOff, commands]
  | cut => exact absurd rfl hr
  | @decided t pair l hp f hj d l' hf r l'' hm x =>
    have hs : Shown (l ++ l') := hp.shown hf.quiet
    have hno : ∀ e, (⟨.setEnabled true, .error e⟩ : Event F) ∉ l'' :=
      fun e he => matchFace_quiet hm _ he
    refine iff_of_true (leftOff_concat _ x) ?_
    rw [List.append_assoc, List.cons_append, List.cons_append, (hnow t _).2, hs.onFails_iff]
    simp [hno]

/-- **The emitter ends off** in every run of the pair and of the gate that returns, as long as it
can be turned off, but where it cannot be turned on, or the pair has no frame with it on. -/
theorem emitter_leftOff_iff (K : Kernels F) (detector : Bool) (enrolled : FaceEnrollment F)
    (cfg : LivenessConfig F) (deadlineMs rounds : ℕ) :
    (∀ r l, Ends (captureLivenessPair (F := F) deadlineMs) r l → OffSucceeds l →
      (LeftOff l ↔ ¬ OnFails l)) ∧
    ∀ r l, Ends (verify K detector enrolled cfg deadlineMs rounds) r l → r ≠ .error .running →
      OffSucceeds l → (LeftOff l ↔ ¬ OnFails l) :=
  ⟨fun _ _ h hoff => (captureLivenessPair_run h).leftOff_iff hoff,
    fun _ _ h hr hoff => (verify_run h).leftOff_iff hr hoff⟩

/-- The frame with the emitter on is not delivered in time. -/
def missedPair : List (Event ℤ) :=
  [⟨.now, 0⟩, ⟨.setEnabled false, .ok ()⟩, ⟨.capture 1000, .ok sampleFrame⟩,
    ⟨.setEnabled true, .ok ()⟩, ⟨.now, 500000000⟩, ⟨.capture 1500, .error (.timeout 1500)⟩]

theorem missedPair_ends : Ends (captureLivenessPair (F := ℤ) 2000)
    (.error (.failed (.timeout 1500))) missedPair :=
  .op _ (.op _ (.op _ (.op _ (.op _ (.op _ (.pure _))))))

theorem missedVerify_ends : Ends (verify sampleKernels true sampleEnrollment sampleConfig 2000 0)
    (.error (.failed (.timeout 1500))) (⟨.now, 0⟩ :: missedPair) :=
  .op _ (.op _ (.op _ (.op _ (.op _ (.op _ (.op _ (.pure _)))))))

theorem emitter_leftOff_iff_missed : (LeftOff missedPair ↔ ¬ OnFails missedPair) ∧
    (LeftOff (⟨.now, 0⟩ :: missedPair) ↔ ¬ OnFails (⟨.now, 0⟩ :: missedPair)) := by
  have hoff : OffSucceeds missedPair := by simp [OffSucceeds, missedPair]
  have h := emitter_leftOff_iff sampleKernels true sampleEnrollment sampleConfig 2000 0
  exact ⟨h.1 _ _ missedPair_ends hoff, h.2 _ _ missedVerify_ends nofun (by simpa [OffSucceeds])⟩

/-- The emitter is left on where the frame that shows it is missed. -/
theorem not_leftOff_missed :
    (¬ ∀ r l, Ends (captureLivenessPair (F := ℤ) 2000) r l → OffSucceeds l → LeftOff l) ∧
    ¬ ∀ r l, Ends (verify sampleKernels true sampleEnrollment sampleConfig 2000 0) r l →
      r ≠ .error .running → OffSucceeds l → LeftOff l := by
  have hoff : OffSucceeds missedPair := by simp [OffSucceeds, missedPair]
  constructor
  · intro h
    have hlast := h _ _ missedPair_ends hoff
    simp [LeftOff, commands, missedPair] at hlast
  · intro h
    have hlast := h _ _ missedVerify_ends nofun (by simpa [OffSucceeds])
    simp [LeftOff, commands, missedPair] at hlast

end Mug

end Tess

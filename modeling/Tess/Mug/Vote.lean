import Tess.Mug.Gate

/-!
# The vote

The median distance is within the threshold where a majority of the distances is. The gate lets a
face in only after a live pair, and by the vote of the frames that were matched.
-/

namespace Tess

namespace Mug

open Effects

variable {F : Type} {K : Kernels F} {detector : Bool} {enrolled : FaceEnrollment F}
  {frame : IrFrame} {deadline deadlineMs rounds : ℕ} {distances : List F} {cfg : LivenessConfig F}

/-! ## The tally -/

/-- The frames that were delivered. -/
def frames (l : List (Event F)) : List IrFrame := (captures l).filterMap Except.toOption

theorem frames_append (l l' : List (Event F)) : frames (l ++ l') = frames l ++ frames l' := by
  rw [frames, captures_append, List.filterMap_append]
  rfl

variable (K) (detector) (enrolled)

/-- The distances of the embeddings that were made. -/
def matchedDistances (l : List (Event F)) : List F :=
  l.filterMap fun
    | ⟨.extract _, x⟩ => (distanceOf K enrolled x).toOption
    | _ => none

/-- Among the calls are those that match a frame, at this distance. -/
def Matched (l : List (Event F)) (frame : IrFrame) (d : F) : Prop :=
  ∃ l', l' <:+: l ∧ FrameRun K enrolled frame detector (.ok (some d)) l'

/-- The distances are those of frames of a list, each taken once and in its order. -/
def Tally (fs : List IrFrame) (l : List (Event F)) (ds : List F) : Prop :=
  matchedDistances K enrolled l = ds ∧ ∃ votes : List (IrFrame × F),
    List.Sublist (votes.map Prod.fst) fs ∧ votes.map Prod.snd = ds ∧
      ∀ v ∈ votes, Matched K detector enrolled l v.1 v.2

variable {K} {detector} {enrolled}

theorem matchedDistances_append (l l' : List (Event F)) : matchedDistances K enrolled (l ++ l') =
    matchedDistances K enrolled l ++ matchedDistances K enrolled l' := List.filterMap_append ..

theorem Matched.append {l : List (Event F)} {frame : IrFrame} {d : F}
    (h : Matched K detector enrolled l frame d) (l' : List (Event F)) :
    Matched K detector enrolled (l ++ l') frame d := by
  obtain ⟨m, hm, hf⟩ := h
  exact ⟨m, hm.trans (List.prefix_append l l').isInfix, hf⟩

theorem Tally.append {fs : List IrFrame} {l : List (Event F)} {ds : List F}
    (h : Tally K detector enrolled fs l ds) (fs' : List IrFrame) {m : List (Event F)}
    (hm : matchedDistances K enrolled m = []) :
    Tally K detector enrolled (fs ++ fs') (l ++ m) ds := by
  obtain ⟨hd, votes, hfst, hsnd, hv⟩ := h
  refine ⟨by rw [matchedDistances_append, hm, List.append_nil, hd], votes, ?_, hsnd,
    fun v hmem => (hv v hmem).append m⟩
  exact hfst.trans (List.sublist_append_left fs fs')

theorem map_some_ok {x : Except (MugError F) F} {d : Option F}
    (h : Except.ok d = (x.map some).mapError Stop.failed) : d.toList = x.toOption.toList := by
  cases x with
  | ok a =>
    obtain rfl := Except.ok.inj h
    rfl
  | error e => cases h

/-- A frame that is matched has its distance among the calls, and no other is delivered. -/
theorem FrameRun.matched {d : Option F} {l : List (Event F)}
    (h : FrameRun K enrolled frame detector (.ok d) l) :
    matchedDistances K enrolled l = d.toList ∧ captures l = [] := by
  generalize hr : Except.ok d = r at h
  cases h with
  | noFace hx =>
    obtain rfl := Except.ok.inj hr
    exact ⟨rfl, rfl⟩
  | notAligned => cases hr
  | aligned hx y =>
    rw [map_some_ok hr]
    exact ⟨by cases hy : (distanceOf K enrolled y).toOption <;> simp [matchedDistances, hy], rfl⟩
  | whole y =>
    rw [map_some_ok hr]
    exact ⟨by cases hy : (distanceOf K enrolled y).toOption <;> simp [matchedDistances, hy], rfl⟩

/-- The last frame adds its distance to the tally, if it has one. -/
theorem Tally.vote {fs : List IrFrame} {l l' : List (Event F)} {ds : List F} {d : Option F}
    (h : Tally K detector enrolled fs l ds)
    (hf : FrameRun K enrolled frame detector (.ok d) l') :
    Tally K detector enrolled (fs ++ [frame]) (l ++ l') (ds ++ d.toList) := by
  obtain ⟨hd, votes, hfst, hsnd, hv⟩ := h
  refine ⟨by rw [matchedDistances_append, hd, hf.matched.1],
    votes ++ d.toList.map (frame, ·), ?_, by simp [hsnd, Function.comp_def], fun v hmem => ?_⟩
  · rw [List.map_append]
    refine hfst.append ?_
    cases d <;> simp
  · obtain hmem | hmem := List.mem_append.1 hmem
    · exact (hv v hmem).append l'
    · obtain ⟨a, ha, rfl⟩ := List.mem_map.1 hmem
      obtain rfl : d = some a := by simpa using ha
      exact ⟨l', (List.suffix_append l l').isInfix, hf⟩

variable (K) (detector) (enrolled) in
/-- After a frame with the emitter off, all frames that were delivered have been tallied. -/
def Collected (off : IrFrame) (l : List (Event F)) (ds : List F) : Prop :=
  ∃ fs, frames l = off :: fs ∧ Tally K detector enrolled fs l ds

theorem Collected.pass {off : IrFrame} {l m : List (Event F)} {ds : List F}
    (h : Collected K detector enrolled off l ds) (hm : matchedDistances K enrolled m = []) :
    Collected K detector enrolled off (l ++ m) ds := by
  obtain ⟨fs, hfs, ht⟩ := h
  exact ⟨fs ++ frames m, by rw [frames_append, hfs, List.cons_append], ht.append _ hm⟩

/-- **A round keeps the tally**, whether it goes on or not. -/
theorem Collected.round {off : IrFrame} {l l' : List (Event F)} {ds ds' : List F}
    (h : Collected K detector enrolled off l ds) {r : Except (Stop (MugError F)) (List F ⊕ List F)}
    (hm : MatchRound K detector enrolled deadline ds r l')
    (hr : r = .ok (.inl ds') ∨ r = .ok (.inr ds')) :
    Collected K detector enrolled off (l ++ l') ds' := by
  cases hm with
  | enough =>
    obtain ⟨⟨⟩⟩ | ⟨⟨⟩⟩ := hr
    exact h.pass rfl
  | late =>
    obtain ⟨⟨⟩⟩ | ⟨⟨⟩⟩ := hr
    exact h.pass rfl
  | missed =>
    obtain ⟨⟨⟩⟩ | ⟨⟨⟩⟩ := hr
    exact h.pass rfl
  | refused => obtain ⟨⟨⟩⟩ | ⟨⟨⟩⟩ := hr
  | @delivered t hd ht frame r l'' hf =>
    cases r with
    | error e => obtain ⟨⟨⟩⟩ | ⟨⟨⟩⟩ := hr
    | ok d =>
      obtain ⟨⟨⟩⟩ | ⟨⟨⟩⟩ := hr
      obtain ⟨fs, hfs, ht⟩ := h
      refine ⟨fs ++ [frame], ?_, ?_⟩
      · have hnone : frames l'' = [] := by rw [frames, hf.matched.2]; rfl
        rw [frames_append, hfs, ← List.singleton_append (l := l''),
          ← List.singleton_append (l := [_] ++ l''), frames_append, frames_append, hnone]
        rfl
      · have hpass : ∀ ms, Tally K detector enrolled fs
            (l ++ [⟨.now, t⟩, ⟨.capture ms, .ok frame⟩]) ds := fun ms => by
          simpa using ht.append [] (m := [⟨.now, t⟩, ⟨.capture ms, .ok frame⟩]) rfl
        simpa using (hpass _).vote hf

/-- The tally starts with the frame of the pair that has the emitter on. -/
theorem PairRun.collected {pair : FramePair} {l l' : List (Event F)} {d : Option F}
    (hp : PairRun deadlineMs (.ok pair) l)
    (hf : FrameRun K enrolled pair.emitterOn detector (.ok d) l') (t : ℕ) :
    frames (⟨.now, t⟩ :: l) = [pair.emitterOff, pair.emitterOn] ∧
      Collected K detector enrolled pair.emitterOff (⟨.now, t⟩ :: l ++ l') d.toList := by
  obtain ⟨t₀, t₁, x, rfl⟩ := hp.ok
  have hstart : Tally K detector enrolled []
      (⟨.now, t⟩ :: pairEvents deadlineMs t₀ t₁ pair x) [] := ⟨rfl, [], by simp⟩
  refine ⟨rfl, [pair.emitterOn], ?_, hstart.vote hf⟩
  have hnone : frames l' = [] := by rw [frames, hf.matched.2]; rfl
  rw [frames_append, hnone]
  rfl

/-! ## The decision -/

theorem ne_nil_of_le {distances : List F} {minFrames : ℕ+} (h : minFrames ≤ distances.length) :
    distances ≠ [] := List.ne_nil_of_length_pos (minFrames.pos.trans_le h)

variable [LinearOrder F]

theorem decideMatch_few {distances : List F} {minFrames : ℕ+} (threshold : F)
    (h : distances.length < minFrames) : decideMatch distances threshold minFrames =
      .error (.insufficientFrames distances.length minFrames) := dif_pos h

theorem decideMatch_many {distances : List F} {minFrames : ℕ+} (threshold : F)
    (h : minFrames ≤ distances.length) (hnil : distances ≠ []) :
    decideMatch distances threshold minFrames =
      if Lists.median distances hnil ≤ threshold then .ok ()
      else .error (.noMatch (Lists.median distances hnil) threshold) := dif_neg (not_lt.2 h)

theorem decideMatch_ok_iff {distances : List F} {threshold : F} {minFrames : ℕ+} :
    decideMatch distances threshold minFrames = .ok () ↔ minFrames ≤ distances.length ∧
      distances.length < 2 * distances.countP (· ≤ threshold) := by
  obtain hlt | hle := Nat.lt_or_ge distances.length minFrames
  · rw [decideMatch_few threshold hlt]
    exact iff_of_false nofun fun hm => absurd hm.1 (not_le.2 hlt)
  · rw [decideMatch_many threshold hle (ne_nil_of_le hle), ← Lists.median_le_iff (ne_nil_of_le hle)]
    split
    next h => exact iff_of_true rfl ⟨hle, h⟩
    next h => exact iff_of_false nofun fun hm => h hm.2

/-- The decision does not depend on the order. -/
theorem decideMatch_perm {distances distances' : List F} (hp : distances.Perm distances')
    (threshold : F) (minFrames : ℕ+) : decideMatch distances threshold minFrames =
      decideMatch distances' threshold minFrames := by
  have hlen := hp.length_eq
  obtain hlt | hle := Nat.lt_or_ge distances.length minFrames
  · rw [decideMatch_few threshold hlt, decideMatch_few threshold (hlen ▸ hlt), hlen]
  · have hle' : minFrames ≤ distances'.length := hlen ▸ hle
    rw [decideMatch_many threshold hle (ne_nil_of_le hle),
      decideMatch_many threshold hle' (ne_nil_of_le hle'),
      Lists.median_perm hp (ne_nil_of_le hle) (ne_nil_of_le hle')]

theorem countP_le_mono {l l' : List F} (h : List.Forall₂ (· ≤ ·) l' l) {t t' : F} (ht : t ≤ t') :
    l.countP (· ≤ t) ≤ l'.countP (· ≤ t') := by
  induction h with
  | nil => rfl
  | @cons a b l' l hab _ ih =>
    by_cases hb : b ≤ t
    · simpa [hb, (hab.trans hb).trans ht] using ih
    · rw [List.countP_cons_of_neg (by simpa using hb)]
      exact ih.trans (List.sublist_cons_self a l').countP_le

/-- Frames that are no further away are let in as well, and so they are under a higher threshold. -/
theorem decideMatch_mono {distances distances' : List F}
    (hd : List.Forall₂ (· ≤ ·) distances' distances) {threshold threshold' : F}
    (ht : threshold ≤ threshold') {minFrames : ℕ+}
    (h : decideMatch distances threshold minFrames = .ok ()) :
    decideMatch distances' threshold' minFrames = .ok () := by
  obtain ⟨hlen, hmaj⟩ := decideMatch_ok_iff.1 h
  have hcount := countP_le_mono hd ht
  have heq : distances'.length = distances.length := hd.length_eq
  exact decideMatch_ok_iff.2 ⟨heq ▸ hlen, by omega⟩

/-! ## The vote -/

/-- **The face is let in by a vote** over all frames since the one with the emitter on. -/
theorem matchFace_collected {off : IrFrame} {l l' : List (Event F)} {ds : List F}
    (h : Collected K detector enrolled off l ds)
    (hm : Ends (matchFace K detector enrolled deadline rounds ds) (.ok ()) l') :
    ∃ ds', Collected K detector enrolled off (l ++ l') ds' ∧
      decideMatch ds' enrolled.matchThreshold minMatchFrames = .ok () := by
  obtain ⟨e, ⟨⟩, -⟩ | ⟨ds', l₁, l₂, rfl, hl, hd⟩ := ends_bind_iff.1 hm
  obtain ⟨hdec, rfl⟩ := ends_ofResult_iff.1 hd
  refine ⟨ds', ?_, mapError_eq_ok.1 hdec.symm⟩
  rw [List.append_nil]
  refine ends_loop (I := fun ds l => Collected K detector enrolled off l ds)
    (Q := fun r l => ∀ ds', r = .ok ds' → Collected K detector enrolled off l ds')
    ?_ ?_ ?_ ?_ h hl ds' rfl
  · exact fun _ _ _ _ => nofun
  · exact fun ds l ds' l' hc hround => hc.round (matchRound_run hround) (.inl rfl)
  · rintro ds l ds' l' hc hround _ ⟨⟩
    exact hc.round (matchRound_run hround) (.inr rfl)
  · exact fun _ _ _ _ _ _ _ => nofun

variable (K) (detector) (enrolled) in
/-- What lets a face in: a live pair, and a majority of at least three frames that were matched, the
one with the emitter on and those after it. -/
structure LetIn (cfg : LivenessConfig F) (l : List (Event F)) : Prop where
  live : ∃ (pair : FramePair) (fs : List IrFrame) (report : LivenessReport F),
    frames l = pair.emitterOff :: pair.emitterOn :: fs ∧
      K.analyze pair (effectiveConfig enrolled cfg) = .ok report ∧ report.passed = true
  tally : Tally K detector enrolled (frames l).tail l (matchedDistances K enrolled l)
  enough : 3 ≤ (matchedDistances K enrolled l).length
  majority : (matchedDistances K enrolled l).length <
    2 * (matchedDistances K enrolled l).countP (· ≤ enrolled.matchThreshold)

/-- **The gate lets in by a majority.** -/
theorem verify_letIn {l : List (Event F)}
    (h : Ends (verify K detector enrolled cfg deadlineMs rounds) (.ok ()) l) :
    LetIn K detector enrolled cfg l := by
  have hrun := verify_run h
  generalize hr : Except.ok () = r at hrun
  cases hrun with
  | notCaptured | notLive | notMatched | notLit | cut => cases hr
  | @decided t pair l hp f hj d l' hf r l'' hm x =>
    rw [← hr] at hm
    obtain ⟨hpair, hc⟩ := hp.collected hf t
    obtain ⟨ds, hc, hdec⟩ := matchFace_collected (hc.pass (m := [⟨.setEnabled true, .ok ()⟩]) rfl) hm
    obtain ⟨fs, hfs, ht⟩ := hc.pass (m := [⟨.setEnabled false, x⟩]) rfl
    obtain ⟨report, ha, hreport⟩ := bind_eq_ok.1 hj
    obtain ⟨hlen, hmaj⟩ := decideMatch_ok_iff.1 hdec
    have hl : ⟨.now, t⟩ :: l ++ l' ++ ⟨.setEnabled true, .ok ()⟩ :: l'' ++ [⟨.setEnabled false, x⟩] =
        ⟨.now, t⟩ :: l ++ l' ++ [⟨.setEnabled true, .ok ()⟩] ++ l'' ++ [⟨.setEnabled false, x⟩] := by
      simp
    have hlive : ∀ m, frames (⟨.now, t⟩ :: l ++ m) =
        pair.emitterOff :: pair.emitterOn :: frames m := fun m => by
      rw [frames_append, hpair]
      rfl
    refine ⟨⟨pair, frames (l' ++ (⟨.setEnabled true, .ok ()⟩ :: l'' ++ [⟨.setEnabled false, x⟩])),
      report, ?_, ha, (LivenessReport.intoResult_ok_iff.1 hreport).1⟩, ?_, ?_, ?_⟩
    · rw [List.append_assoc, List.append_assoc]
      exact hlive _
    all_goals rw [hl]
    · rw [hfs, ht.1]
      exact ht
    · rw [ht.1]
      exact hlen
    · rw [ht.1]
      exact hmaj

/-- **A strict majority decides**: of a list of distances, whatever its order, and the more so the
nearer they are; and so of the frames of every run of the gate that lets in. -/
theorem verify_majority (K : Kernels F) (detector : Bool) (enrolled : FaceEnrollment F)
    (cfg : LivenessConfig F) (deadlineMs rounds : ℕ) :
    (∀ (distances : List F) (threshold : F) (minFrames : ℕ+),
      decideMatch distances threshold minFrames = .ok () ↔ minFrames ≤ distances.length ∧
        distances.length < 2 * distances.countP (· ≤ threshold)) ∧
    (∀ (distances distances' : List F) (threshold : F) (minFrames : ℕ+),
      distances.Perm distances' → decideMatch distances threshold minFrames =
        decideMatch distances' threshold minFrames) ∧
    (∀ (distances distances' : List F) (threshold threshold' : F) (minFrames : ℕ+),
      List.Forall₂ (· ≤ ·) distances' distances → threshold ≤ threshold' →
      decideMatch distances threshold minFrames = .ok () →
        decideMatch distances' threshold' minFrames = .ok ()) ∧
    ∀ l, Ends (verify K detector enrolled cfg deadlineMs rounds) (.ok ()) l →
      LetIn K detector enrolled cfg l :=
  ⟨fun _ _ _ => decideMatch_ok_iff, fun _ _ threshold minFrames hp =>
    decideMatch_perm hp threshold minFrames, fun _ _ _ _ _ hd ht h => decideMatch_mono hd ht h,
    fun _ h => verify_letIn h⟩

/-- Two frames match after the pair, and the third one is not waited for. -/
def matchedRun : List (Event ℤ) :=
  [⟨.now, 0⟩, ⟨.now, 0⟩, ⟨.setEnabled false, .ok ()⟩, ⟨.capture 1000, .ok sampleFrame⟩,
    ⟨.setEnabled true, .ok ()⟩, ⟨.now, 0⟩, ⟨.capture 2000, .ok sampleFrame⟩,
    ⟨.setEnabled false, .ok ()⟩, ⟨.extract sampleFrame, .ok [1]⟩, ⟨.setEnabled true, .ok ()⟩,
    ⟨.now, 0⟩, ⟨.capture 150, .ok sampleFrame⟩, ⟨.extract sampleFrame, .ok [1]⟩,
    ⟨.now, 0⟩, ⟨.capture 150, .error (.timeout 150)⟩,
    ⟨.now, 0⟩, ⟨.capture 150, .ok sampleFrame⟩, ⟨.extract sampleFrame, .ok [2]⟩,
    ⟨.now, 2000000000⟩, ⟨.setEnabled false, .ok ()⟩]

theorem matchedRun_ends : Ends (verify sampleKernels false sampleEnrollment sampleConfig 2000 9)
    (.ok ()) matchedRun :=
  .op _ (.op _ (.op _ (.op _ (.op _ (.op _ (.op _ (.op _ (.op _ (.op _ (.op _ (.op _ (.op _ (.op _
    (.op _ (.op _ (.op _ (.op _ (.op _ (.op _ (.pure _))))))))))))))))))))

theorem verify_majority_matched :
    LetIn sampleKernels false sampleEnrollment sampleConfig matchedRun :=
  (verify_majority sampleKernels false sampleEnrollment sampleConfig 2000 9).2.2.2 _ matchedRun_ends

end Mug

end Tess

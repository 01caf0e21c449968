import Tess.Mug.Emitter
import Tess.Mug.Template
import Tess.Mug.Vote

/-!
# Enrolling and verifying agree

A source that keeps serving one frame with the emitter off and one with it on, to models that keep
answering the same, is recognized by the template that was captured from it: nothing but frames that
do not come before the deadline keeps the gate from letting it in.
-/

namespace Tess

namespace Mug

open Effects

/-! ## The source -/

section Served

variable {F : Type} (det : IrFrame → Except (MugError F) (Detection F))
  (ext : IrFrame → Except (MugError F) (List F)) (off on : IrFrame)

/-- From a state of the emitter on, the source serves two frames by the state of the emitter, or
nothing in time; the emitter obeys; and the models answer the same at all times. -/
def Served : Bool → List (Event F) → Prop
  | _, [] => True
  | lit, ⟨.capture _, x⟩ :: l =>
    (x = .ok (if lit then on else off) ∨ ∃ ms, x = .error (.timeout ms)) ∧ Served lit l
  | _, ⟨.setEnabled b, x⟩ :: l => x = .ok () ∧ Served b l
  | lit, ⟨.detect frame, x⟩ :: l => x = det frame ∧ Served lit l
  | lit, ⟨.extract frame, x⟩ :: l => x = ext frame ∧ Served lit l
  | lit, ⟨.now, _⟩ :: l | lit, ⟨.unixTime, _⟩ :: l => Served lit l

/-- The state of the emitter after the calls. -/
def litAfter (lit : Bool) (l : List (Event F)) : Bool := (commands l).getLastD lit

variable {det ext off on}

theorem litAfter_cons (lit : Bool) (o : Op) (x : Op.Res F o) (l : List (Event F)) :
    litAfter lit (⟨o, x⟩ :: l) = litAfter (litAfter lit [⟨o, x⟩]) l := by
  cases o with
  | setEnabled b => exact List.getLastD_cons ..
  | _ => rfl

theorem served_append {lit : Bool} {l l' : List (Event F)} :
    Served det ext off on lit (l ++ l') ↔
      Served det ext off on lit l ∧ Served det ext off on (litAfter lit l) l' := by
  induction l generalizing lit with
  | nil => simp [Served, litAfter, commands]
  | cons e l ih =>
    obtain ⟨o, x⟩ := e
    rw [litAfter_cons, List.cons_append]
    cases o <;> simp only [Served, ih, and_assoc] <;> rfl

/-- A pair that was captured from the source has its two frames. -/
theorem Served.pair {lit : Bool} {deadlineMs : ℕ} {pair : FramePair} {l : List (Event F)}
    (hs : Served det ext off on lit l) (hp : PairRun deadlineMs (.ok pair) l) :
    pair.emitterOff = off ∧ pair.emitterOn = on := by
  obtain ⟨t₀, t, x, rfl⟩ := hp.ok
  obtain ⟨-, hoff | ⟨_, ⟨⟩⟩, -, hon | ⟨_, ⟨⟩⟩, -⟩ := hs
  exact ⟨Except.ok.inj hoff, Except.ok.inj hon⟩

end Served

/-! ## Recognizing the source -/

section Recognizes

variable {F : Type} [LinearOrder F] (K : Kernels F) (detector : Bool)
  (enrolled : FaceEnrollment F) (cfg : LivenessConfig F)
  (det : IrFrame → Except (MugError F) (Detection F))
  (ext : IrFrame → Except (MugError F) (List F)) (off on : IrFrame)

/-- The two frames are a live pair, and the second one is always at a distance within the
threshold. -/
structure Recognizes (d : F) : Prop where
  paired : off.dimensions = on.dimensions
  live : ∀ pair : FramePair, pair.emitterOff = off → pair.emitterOn = on →
    ∃ f, judge K enrolled cfg pair = .ok f
  matched : ∀ lit r l, FrameRun K enrolled on detector r l → Served det ext off on lit l →
    r = .ok (some d)
  near : d ≤ enrolled.matchThreshold

/-- A capture that has delivered nothing in time. -/
def isTimeout : Except (MugError F) IrFrame → Bool
  | .error (.timeout _) => true
  | _ => false

def timeouts (l : List (Event F)) : ℕ := (captures l).countP isTimeout

/-- Fewer frames with the emitter on have come than are needed: the pair was not delivered in time,
or the clock was seen at the deadline. -/
def Starved (deadlineMs : ℕ) (r : Except (Stop (MugError F)) Unit) (l : List (Event F)) : Prop :=
  (frames l).tail.length < minMatchFrames ∧
    ((∃ ms, r = .error (.failed (.timeout ms)) ∧ .error (.timeout ms) ∈ captures l) ∨
      r = .error (.failed (.insufficientFrames (frames l).tail.length minMatchFrames)) ∧
        ∃ t₀ t, l.head? = some ⟨.now, t₀⟩ ∧ ⟨.now, t⟩ ∈ l ∧
          remainingMs (t₀ + deadlineMs * 1000000) t = 0)

variable {K} {detector} {enrolled} {cfg} {det} {ext} {off} {on} {d : F} {deadline : ℕ}

omit [LinearOrder F] in
theorem timeouts_append (l l' : List (Event F)) :
    timeouts (l ++ l') = timeouts l + timeouts l' := by
  rw [timeouts, captures_append, List.countP_append]
  rfl

/-- **A round** with the emitter on breaks, misses a frame, or adds its distance. -/
theorem Recognizes.round (hrec : Recognizes K detector enrolled cfg det ext off on d)
    {distances : List F} {r : Except (Stop (MugError F)) (List F ⊕ List F)} {l : List (Event F)}
    (h : MatchRound K detector enrolled deadline distances r l)
    (hs : Served det ext off on true l) :
    (r = .ok (.inr distances) ∧ captures l = [] ∧ (matchFrames ≤ distances.length ∨
      ∃ t, ⟨.now, t⟩ ∈ l ∧ remainingMs deadline t = 0)) ∨
    distances.length < matchFrames ∧ ((∃ ms, r = .ok (.inl distances) ∧
        captures l = [.error (.timeout ms)]) ∨
      r = .ok (.inl (distances ++ [d])) ∧ captures l = [.ok on]) := by
  cases h with
  | enough hd => exact .inl ⟨rfl, rfl, .inl hd⟩
  | late hd ht => exact .inl ⟨rfl, rfl, .inr ⟨_, by simp, ht⟩⟩
  | missed hd ht ms => exact .inr ⟨hd, .inl ⟨ms, rfl, rfl⟩⟩
  | refused hd ht he =>
    obtain ⟨⟨⟩⟩ | ⟨ms, ⟨⟩⟩ := hs.1
    exact absurd rfl (he ms)
  | @delivered t hd ht frame r l hf =>
    obtain ⟨hframe | ⟨ms, ⟨⟩⟩, hs⟩ := hs
    obtain rfl : frame = on := Except.ok.inj hframe
    obtain rfl := hrec.matched _ _ _ hf hs
    refine .inr ⟨hd, .inr ⟨rfl, ?_⟩⟩
    simp [captures, show l.filterMap _ = [] from hf.matched.2]

/-- What has come of the frames so far: each with the emitter on has added its distance. -/
structure Counted (lit : Bool) (d : F) (distances : List F) (l : List (Event F)) : Prop where
  lit_eq : litAfter lit l = true
  frames_ne : frames l ≠ []
  distances_eq : distances = List.replicate (frames l).tail.length d

omit [LinearOrder F] in
theorem quiet_litAfter {lit : Bool} {l l' : List (Event F)} (hl' : ∀ e ∈ l', Quiet e) :
    litAfter lit (l ++ l') = litAfter lit l := by
  rw [litAfter, commands_append, commands_quiet hl', List.append_nil]
  rfl

omit [LinearOrder F] in
/-- Calls that deliver no frame keep the count. -/
theorem Counted.pass {lit : Bool} {distances : List F} {l l' : List (Event F)}
    (h : Counted lit d distances l) (hl' : ∀ e ∈ l', Quiet e) (hframes : frames l' = []) :
    Counted lit d distances (l ++ l') := by
  have heq : frames (l ++ l') = frames l := by rw [frames_append, hframes, List.append_nil]
  exact ⟨by rw [quiet_litAfter hl', h.lit_eq], heq ▸ h.frames_ne, heq ▸ h.distances_eq⟩

omit [LinearOrder F] in
theorem Counted.add {lit : Bool} {distances : List F} {l l' : List (Event F)}
    (h : Counted lit d distances l) (hl' : ∀ e ∈ l', Quiet e) (hframes : frames l' = [on]) :
    Counted lit d (distances ++ [d]) (l ++ l') := by
  have heq : (frames (l ++ l')).tail = (frames l).tail ++ [on] := by
    rw [frames_append, hframes, List.tail_append_of_ne_nil h.frames_ne]
  refine ⟨by rw [quiet_litAfter hl', h.lit_eq], ?_, ?_⟩
  · rw [frames_append]
    exact List.append_ne_nil_of_left_ne_nil h.frames_ne _
  · rw [heq, List.length_append, List.replicate_add, ← h.distances_eq]
    rfl

/-- **The loop** with the emitter on: it collects the same distance for each frame, and goes on for
no more rounds than there are frames to collect and captures that time out. -/
theorem Recognizes.loop (hrec : Recognizes K detector enrolled cfg det ext off on d) {lit : Bool}
    {distances : List F} {rounds : ℕ} {l l' : List (Event F)}
    (hc : Counted lit d distances l) (hlen : 1 ≤ distances.length)
    (hmax : distances.length ≤ matchFrames)
    {r : Except (Stop (MugError F)) (List F)}
    (h : Ends (Effects.loop (matchRound K detector enrolled deadline) rounds distances) r l')
    (hs : Served det ext off on lit (l ++ l')) :
    (r = .error .running ∧ rounds < timeouts (l ++ l') + matchFrames) ∨
      ∃ ds, r = .ok ds ∧ Counted lit d ds (l ++ l') ∧ 1 ≤ ds.length ∧
        (matchFrames ≤ ds.length ∨ ∃ t, ⟨.now, t⟩ ∈ l ++ l' ∧ remainingMs deadline t = 0) := by
  refine ends_loop_rounds
    (I := fun n ds l => Served det ext off on lit l → Counted lit d ds l ∧ 1 ≤ ds.length ∧
      ds.length ≤ matchFrames ∧ rounds + 1 ≤ n + timeouts l + ds.length)
    (Q := fun r l => Served det ext off on lit l →
      (r = .error .running ∧ rounds < timeouts l + matchFrames) ∨
        ∃ ds, r = .ok ds ∧ Counted lit d ds l ∧ 1 ≤ ds.length ∧
          (matchFrames ≤ ds.length ∨ ∃ t, ⟨.now, t⟩ ∈ l ∧ remainingMs deadline t = 0))
    ?_ ?_ ?_ ?_ (fun _ => ⟨hc, hlen, hmax, by omega⟩) h hs
  · intro ds l hI hs
    obtain ⟨-, -, hmax, hcount⟩ := hI hs
    exact .inl ⟨rfl, by omega⟩
  · intro n ds l ds' l' hI hround hs
    obtain ⟨hs, hs'⟩ := served_append.1 hs
    obtain ⟨hc, hlen, hmax, hcount⟩ := hI hs
    have hm := matchRound_run hround
    rw [hc.lit_eq] at hs'
    obtain ⟨⟨⟩, -⟩ | ⟨hlt, ⟨ms, hr, hcap⟩ | ⟨hr, hcap⟩⟩ := hrec.round hm hs'
    · obtain rfl : ds' = ds := by simpa using hr
      have htime : timeouts l' = 1 := by rw [timeouts, hcap]; rfl
      refine ⟨hc.pass hm.quiet (by rw [frames, hcap]; rfl), hlen, hmax, ?_⟩
      rw [timeouts_append]
      omega
    · obtain rfl : ds' = ds ++ [d] := by simpa using hr
      have hnone : timeouts l' = 0 := by rw [timeouts, hcap]; rfl
      refine ⟨hc.add hm.quiet (by rw [frames, hcap]; rfl), ?_, ?_, ?_⟩
      · simp
      · simpa using hlt
      · rw [timeouts_append, List.length_append, List.length_singleton]
        omega
  · intro n ds l ds' l' hI hround hs
    obtain ⟨hs, hs'⟩ := served_append.1 hs
    obtain ⟨hc, hlen, hmax, hcount⟩ := hI hs
    have hm := matchRound_run hround
    rw [hc.lit_eq] at hs'
    obtain ⟨hr, hcap, hend⟩ | ⟨hlt, ⟨ms, ⟨⟩, -⟩ | ⟨⟨⟩, -⟩⟩ := hrec.round hm hs'
    obtain rfl : ds' = ds := by simpa using hr
    refine .inr ⟨ds', rfl, hc.pass hm.quiet (by rw [frames, hcap]; rfl), hlen, ?_⟩
    refine hend.imp_right fun htime => ?_
    obtain ⟨t, ht, hzero⟩ := htime
    exact ⟨t, List.mem_append_right _ ht, hzero⟩
  · intro n ds l e l' hI hround hs
    obtain ⟨hs, hs'⟩ := served_append.1 hs
    obtain ⟨hc, -⟩ := hI hs
    rw [hc.lit_eq] at hs'
    obtain ⟨⟨⟩, -⟩ | ⟨hlt, ⟨ms, ⟨⟩, -⟩ | ⟨⟨⟩, -⟩⟩ := hrec.round (matchRound_run hround) hs'

theorem decideMatch_replicate {threshold : F} (hd : d ≤ threshold) (k : ℕ) (minFrames : ℕ+) :
    decideMatch (List.replicate k d) threshold minFrames =
      if k < minFrames then .error (.insufficientFrames k minFrames) else .ok () := by
  split
  next h =>
    rw [decideMatch_few threshold (by simpa using h), List.length_replicate]
  next h =>
    refine decideMatch_ok_iff.2 ⟨by simpa using h, ?_⟩
    have hpos : 0 < k := minFrames.pos.trans_le (not_lt.1 h)
    simp [List.countP_replicate, hd, hpos]

/-- **The pair** is that of the two frames, or one of them has not come in time. -/
theorem Recognizes.pair (hrec : Recognizes K detector enrolled cfg det ext off on d) {lit : Bool}
    {deadlineMs : ℕ} {r : Except (Stop (MugError F)) FramePair} {l : List (Event F)}
    (h : PairRun deadlineMs r l) (hs : Served det ext off on lit l) :
    (∃ pair, r = .ok pair ∧ pair.emitterOff = off ∧ pair.emitterOn = on) ∨
      ∃ ms, r = .error (.failed (.timeout ms)) ∧ .error (.timeout ms) ∈ captures l ∧
        (frames l).length ≤ 1 := by
  cases h with
  | offRefused t₀ e => obtain ⟨⟨⟩, -⟩ := hs
  | offMissed t₀ e =>
    obtain ⟨-, ⟨⟨⟩⟩ | ⟨ms, ⟨⟩⟩, -⟩ := hs
    exact .inr ⟨ms, rfl, by simp [captures], Nat.zero_le 1⟩
  | onRefused t₀ off' e => obtain ⟨-, -, ⟨⟩, -⟩ := hs
  | onMissed t₀ off' t e =>
    obtain ⟨-, -, -, ⟨⟨⟩⟩ | ⟨ms, ⟨⟩⟩, -⟩ := hs
    exact .inr ⟨ms, rfl, by simp [captures], Nat.le_refl 1⟩
  | captured t₀ off' t on' x =>
    obtain ⟨-, hoff | ⟨_, ⟨⟩⟩, -, hon | ⟨_, ⟨⟩⟩, -⟩ := hs
    obtain rfl : off' = off := Except.ok.inj hoff
    obtain rfl : on' = on := Except.ok.inj hon
    exact .inl ⟨⟨off', on', hrec.paired⟩, by rw [FramePair.new, dif_pos hrec.paired]; rfl, rfl, rfl⟩

/-- What is decided on the distances, of which there are as many as frames. -/
theorem Recognizes.matchFace (hrec : Recognizes K detector enrolled cfg det ext off on d)
    {lit : Bool} {rounds : ℕ} {l l' : List (Event F)} (hc : Counted lit d [d] l)
    {r : Except (Stop (MugError F)) Unit}
    (h : Ends (matchFace K detector enrolled deadline rounds [d]) r l')
    (hs : Served det ext off on lit (l ++ l')) :
    r = .ok () ∨ (r = .error .running ∧ rounds < timeouts (l ++ l') + matchFrames) ∨
      (frames (l ++ l')).tail.length < minMatchFrames ∧
        r = .error (.failed (.insufficientFrames (frames (l ++ l')).tail.length minMatchFrames)) ∧
        ∃ t, ⟨.now, t⟩ ∈ l ++ l' ∧ remainingMs deadline t = 0 := by
  obtain ⟨e, rfl, hl⟩ | ⟨ds, l₁, l₂, rfl, hl, hd⟩ := ends_bind_iff.1 h
  · obtain ⟨hr, hlt⟩ | ⟨_, ⟨⟩, -⟩ := hrec.loop hc le_rfl (Nat.le_add_left 1 4) hl hs
    obtain rfl := Except.error.inj hr
    exact .inr (.inl ⟨rfl, hlt⟩)
  · obtain ⟨hr, rfl⟩ := ends_ofResult_iff.1 hd
    rw [List.append_nil] at hs ⊢
    obtain ⟨⟨⟩, -⟩ | ⟨_, ⟨⟩, hc', -, hend⟩ := hrec.loop hc le_rfl (Nat.le_add_left 1 4) hl hs
    generalize hk : (frames (l ++ l₁)).tail.length = k
    have hds : ds = List.replicate k d := hk ▸ hc'.distances_eq
    rw [hds, decideMatch_replicate hrec.near] at hr
    split_ifs at hr with hlt
    · obtain hfull | ht := hend
      · rw [hds, List.length_replicate] at hfull
        exact absurd (hfull.trans_lt hlt) (by decide)
      · exact .inr (.inr ⟨hlt, hr, ht⟩)
    · exact .inl hr

omit [LinearOrder F] in
/-- Once the emitter is on again, the frame of the pair has been counted. -/
theorem PairRun.counted {pair : FramePair} {deadlineMs : ℕ} {l l' : List (Event F)}
    (hp : PairRun deadlineMs (.ok pair) l)
    (hf : FrameRun K enrolled pair.emitterOn detector (.ok (some d)) l') (lit : Bool) (t : ℕ) :
    Counted lit d [d] (⟨.now, t⟩ :: l ++ l' ++ [⟨.setEnabled true, .ok ()⟩]) := by
  have hframes : frames (⟨.now, t⟩ :: l ++ l' ++ [⟨.setEnabled true, .ok ()⟩]) =
      [pair.emitterOff, pair.emitterOn] := by
    rw [frames_append, frames_append, (hp.collected hf t).1, frames, frames, hf.matched.2]
    rfl
  refine ⟨?_, by rw [hframes]; simp, by rw [hframes]; rfl⟩
  rw [litAfter, commands_append, List.getLastD_eq_getLast?]
  simp [commands]

/-- **The gate** lets in, unless frames do not come in time. -/
theorem Recognizes.verify (hrec : Recognizes K detector enrolled cfg det ext off on d) {lit : Bool}
    {deadlineMs rounds : ℕ} {r : Except (Stop (MugError F)) Unit} {l : List (Event F)}
    (h : Ends (verify K detector enrolled cfg deadlineMs rounds) r l)
    (hs : Served det ext off on lit l) : r = .ok () ∨ Starved deadlineMs r l ∨
      r = .error .running ∧ rounds < timeouts l + matchFrames := by
  have hpair : ∀ {t pair l l'}, PairRun deadlineMs (.ok pair) l →
      Served det ext off on lit (⟨.now, t⟩ :: l ++ l') →
      pair.emitterOff = off ∧ pair.emitterOn = on := fun {t pair l l'} hp hs =>
    Served.pair (F := F) (l := l) (served_append.1 hs).1 hp
  cases verify_run h with
  | notCaptured t hp =>
    obtain ⟨_, ⟨⟩, -⟩ | ⟨ms, hr, hms, hlen⟩ := hrec.pair hp hs
    obtain rfl := Except.error.inj hr
    refine .inr (.inl ⟨?_, .inl ⟨ms, rfl, hms⟩⟩)
    have hlt : (frames _).length - 1 < 3 := (Nat.sub_le_sub_right hlen 1).trans_lt (by decide)
    rw [List.length_tail]
    exact hlt
  | @notLive t pair l hp e hj =>
    rw [← List.append_nil (⟨.now, t⟩ :: l)] at hs
    obtain ⟨hoff, hon⟩ := hpair hp hs
    obtain ⟨f, hf⟩ := hrec.live pair hoff hon
    cases hj.symm.trans hf
  | @notMatched t pair l hp f hj e l' hf =>
    obtain ⟨hoff, hon⟩ := hpair hp hs
    cases hrec.matched _ _ _ (hon ▸ hf) (served_append.1 hs).2
  | @notLit t pair l hp f hj d l' hf e =>
    obtain ⟨⟨⟩, -⟩ := (served_append.1 hs).2
  | @cut t pair l hp f hj d' l' hf l'' hm =>
    obtain ⟨hoff, hon⟩ := hpair hp (served_append.1 hs).1
    have hs' := served_append.1 (served_append.1 hs).1
    obtain rfl : d' = some d := Except.ok.inj (hrec.matched _ _ _ (hon ▸ hf) hs'.2)
    rw [List.append_cons (⟨.now, t⟩ :: l ++ l') ⟨.setEnabled true, .ok ()⟩ l''] at hs ⊢
    obtain ⟨⟨⟩⟩ | ⟨-, hlt⟩ | ⟨-, ⟨⟩, -⟩ := hrec.matchFace (hp.counted hf lit t) hm hs
    exact .inr (.inr ⟨rfl, hlt⟩)
  | @decided t pair l hp f hj d' l' hf r l'' hm x =>
    obtain ⟨hs, -⟩ := served_append.1 hs
    obtain ⟨hoff, hon⟩ := hpair hp (served_append.1 hs).1
    have hs' := served_append.1 (served_append.1 hs).1
    obtain rfl : d' = some d := Except.ok.inj (hrec.matched _ _ _ (hon ▸ hf) hs'.2)
    rw [List.append_cons (⟨.now, t⟩ :: l ++ l') ⟨.setEnabled true, .ok ()⟩ l''] at hs ⊢
    have hsame : frames (⟨.now, t⟩ :: l ++ l' ++ [⟨.setEnabled true, .ok ()⟩] ++ l'' ++
        [⟨.setEnabled false, x⟩]) =
        frames (⟨.now, t⟩ :: l ++ l' ++ [⟨.setEnabled true, .ok ()⟩] ++ l'') := by
      rw [frames_append]
      exact List.append_nil _
    obtain hr | ⟨hr, -⟩ | ⟨hlt, hr, t', ht', hzero⟩ :=
      hrec.matchFace (hp.counted hf lit t) hm hs
    · exact .inl hr
    · obtain ⟨_, -, he⟩ | ⟨_, -, he⟩ := mapError_cases hr <;> cases he
    · refine .inr (.inl ⟨by rw [hsame]; exact hlt, .inr ⟨by rw [hsame]; exact hr, t, t', rfl,
        List.mem_append_left _ ht', hzero⟩⟩)

end Recognizes

/-! ## Enrolling and verifying -/

section Exact

variable {det : IrFrame → Except (MugError ℝ) (Detection ℝ)}
  {ext : IrFrame → Except (MugError ℝ) (List ℝ)} {off on : IrFrame}

/-- An embedding is at no distance from itself. -/
theorem cosineDistance_self {e : List ℝ} (h : ∃ x ∈ e, x ≠ 0) : cosineDistance e e = .ok 0 := by
  obtain ⟨x, hx, hne⟩ := h
  have hnonneg : ∀ y ∈ e.map fun x => x * x, (0 : ℝ) ≤ y := by
    intro y hy
    obtain ⟨z, -, rfl⟩ := List.mem_map.1 hy
    exact mul_self_nonneg z
  have hpos : 0 < (e.map fun x => x * x).sum :=
    (mul_self_pos.2 hne).trans_le
      (List.single_le_sum hnonneg _ (List.mem_map.2 ⟨x, hx, rfl⟩))
  have hsqrt : Real.sqrt (e.map fun x => x * x).sum ≠ 0 := (Real.sqrt_pos.2 hpos).ne'
  have hdot : List.zipWith (· * ·) e e = e.map fun x => x * x := List.zipWith_self ..
  simp only [cosineDistance, Elementary.sqrt, ne_eq, not_true_eq_false, if_false, hsqrt, or_self,
    hdot, Real.mul_self_sqrt hpos.le, div_self hpos.ne', sub_self]
  norm_num [clamp]

/-- **A template recognizes the source it was captured from.** -/
theorem captureTemplate_recognizes {fixed : ℕ → ℝ → String} {detector : Bool} {cfg : MugConfig ℝ}
    (hthreshold : 0 ≤ cfg.matchThreshold)
    (hext : ∀ frame e, ext frame = .ok e → ∃ x ∈ e, x ≠ 0) {t : FaceEnrollment ℝ} {lit : Bool}
    {l : List (Event ℝ)}
    (h : Ends (captureTemplate (exact fixed) (mugTemplateSource detector cfg)) (.ok t) l)
    (hs : Served det ext off on lit l) :
    Recognizes (exact fixed) detector t cfg.livenessConfig det ext off on 0 := by
  obtain ⟨pair, l₁, report, face, l₂, created, rfl, hp, ha, hpass, hface, hthr, hlive⟩ :=
    captureTemplate_ok h
  obtain ⟨hs, hembed, -⟩ := served_append.1 hs
  obtain ⟨hs₁, hs₂⟩ := served_append.1 hs
  obtain ⟨rfl, rfl⟩ := hs₁.pair hp
  have hself : distanceOf (exact fixed) t (ext face) = .ok 0 := by
    rw [← hembed]
    exact cosineDistance_self (hext face _ hembed.symm)
  refine ⟨pair.dimensions_eq, ?_, ?_, hthr.symm ▸ hthreshold⟩
  · intro pair' hoff hon
    obtain rfl : pair' = pair := by
      obtain ⟨_, _, _⟩ := pair
      obtain ⟨_, _, _⟩ := pair'
      cases hoff
      cases hon
      rfl
    have hcfg : effectiveConfig t cfg.livenessConfig = cfg.livenessConfig := by
      rw [effectiveConfig, hlive]
      rfl
    refine ⟨report.features, bind_eq_ok.2 ⟨report, ?_, LivenessReport.intoResult_ok_iff.2
      ⟨hpass, rfl⟩⟩⟩
    rw [hcfg]
    exact ha
  · intro lit' r l' hf hs'
    obtain ⟨rfl, rfl, rfl⟩ | ⟨rfl, x, hx, rfl⟩ := enrollmentFrame_ok hface
    · cases hf with
      | whole y =>
        obtain ⟨rfl, -⟩ := hs'
        rw [hself]
        rfl
    · obtain ⟨rfl, -⟩ := hs₂
      cases hf with
      | noFace hx' =>
        obtain ⟨rfl, -⟩ := hs'
        cases hx.symm.trans hx'
      | notAligned hx' =>
        obtain ⟨rfl, -⟩ := hs'
        cases hx.symm.trans hx'
      | aligned hx' y =>
        obtain ⟨rfl, rfl, -⟩ := hs'
        obtain rfl := Except.ok.inj (hx.symm.trans hx')
        rw [hself]
        rfl

/-- **Enroll and verify agree**: with the template that was captured from a source, the gate lets
its face in as soon as three frames with the emitter on are delivered; and it does not reject it but
for frames that do not come before the deadline. A run has returned after as many rounds as frames
that are collected and captures that time out. -/
theorem verify_of_captureTemplate (fixed : ℕ → ℝ → String) (detector : Bool) (cfg : MugConfig ℝ)
    (hthreshold : 0 ≤ cfg.matchThreshold)
    (hext : ∀ frame e, ext frame = .ok e → ∃ x ∈ e, x ≠ 0) {t : FaceEnrollment ℝ} {lit : Bool}
    {l : List (Event ℝ)}
    (henroll : Ends (captureTemplate (exact fixed) (mugTemplateSource detector cfg)) (.ok t) l)
    (hserved : Served det ext off on lit l) {rounds : ℕ} {r : Except (Stop (MugError ℝ)) Unit}
    {lit' : Bool} {l' : List (Event ℝ)}
    (hverify : Ends (runVerify (exact fixed) detector t cfg rounds) r l')
    (hserved' : Served det ext off on lit' l')
    (hreturned : r ≠ .error .running ∨ timeouts l' + matchFrames ≤ rounds) :
    (minMatchFrames ≤ (frames l').tail.length → r = .ok ()) ∧
      (r = .ok () ∨ Starved cfg.captureDeadlineMs r l') := by
  have hrec := captureTemplate_recognizes hthreshold hext henroll hserved
  have hor : r = .ok () ∨ Starved cfg.captureDeadlineMs r l' := by
    obtain hr | hr | ⟨hr, hlt⟩ := hrec.verify hverify hserved'
    · exact .inl hr
    · exact .inr hr
    · obtain hne | hle := hreturned
      · exact absurd hr hne
      · omega
  exact ⟨fun hlen => hor.resolve_right fun hstarved => absurd hstarved.1 (not_lt.2 hlen), hor⟩

/-- The configuration where none is given. -/
noncomputable def sampleMug : MugConfig ℝ := .default

def dimFrame : IrFrame := ⟨4, 3, [10, 10, 10, 10, 10, 10, 10, 10, 10, 10, 10, 10], rfl⟩

/-- Every other pixel is lit by the emitter. -/
def litFrame : IrFrame := ⟨4, 3, [10, 90, 10, 90, 90, 10, 90, 10, 10, 90, 10, 90], rfl⟩

def samplePair : FramePair := ⟨dimFrame, litFrame, rfl⟩

def sampleFeatures {F : Type} [Field F] : LivenessFeatures F where
  meanDelta := ((40 : ℕ) : F)
  deltaStd := ((40 : ℕ) : F)
  gradientEnergy := ((160 : ℕ) : F)
  specularFraction := 0
  saturatedFraction := 0
  baselineMean := ((10 : ℕ) : F)
  score := ((23 : ℕ) : F) / ((30 : ℕ) : F)

noncomputable def sampleTemplate : FaceEnrollment ℝ where
  version := enrollmentVersion
  createdUnix := 0
  embedding := [1]
  matchThreshold := sampleMug.matchThreshold
  liveness := ⟨sampleFeatures.score, sampleMug.livenessConfig.scoreThreshold⟩

noncomputable def sampleExact : Kernels ℝ := exact fun _ _ => ""

theorem gray_ten : gray 10 = (10 : ℝ) := by norm_num [gray, show (10 : UInt8).toNat = 10 from rfl]

theorem samplePair_difference : difference 10 10 = (0 : ℝ) ∧ difference 10 90 = (80 : ℝ) := by
  have hninety : gray 90 = (90 : ℝ) := by norm_num [gray, show (90 : UInt8).toNat = 90 from rfl]
  constructor
  · norm_num [difference, gray_ten]
  · norm_num [difference, gray_ten, hninety]

theorem samplePair_features :
    liveFeatures samplePair = (sampleFeatures : LivenessFeatures ℝ) := by
  have hsqrt : Real.sqrt 1600 = 40 := by
    rw [show (1600 : ℝ) = 40 ^ 2 by norm_num, Real.sqrt_sq (by norm_num)]
  have hspecular : ¬ specularLevel ≤ 10 ∧ ¬ specularLevel ≤ 90 := by decide
  have hsaturated : ¬ saturationLevel ≤ 10 ∧ ¬ saturationLevel ≤ 90 := by decide
  norm_num [liveFeatures, samplePair, dimFrame, litFrame, sampleFeatures, samplePair_difference,
    gray_ten, meanGradient, List.range_succ, FramePair.dimensions, IrFrame.dimensions,
    Elementary.sqrt, compositeScore, clamp, hspecular, hsaturated, hsqrt, meanRef, stdRef, gradRef,
    specRef]

theorem samplePair_live : sampleExact.analyze samplePair sampleMug.livenessConfig =
    .ok ⟨sampleFeatures, true, none⟩ := by
  have hgate : firstFailingGate (fun _ _ => "") sampleFeatures sampleMug.livenessConfig = none := by
    norm_num [firstFailingGate, sampleFeatures, sampleMug, MugConfig.default,
      LivenessThresholds.default, MugConfig.livenessConfig]
  have hsize : ¬ (samplePair.dimensions.1 < 3 ∨ samplePair.dimensions.2 < 3) := by decide
  simp only [sampleExact, exact, analyze, samplePair_features, hgate, if_neg hsize]
  rfl

theorem samplePair_ends : Ends (captureLivenessPair (F := ℝ) 2500) (.ok samplePair)
    (pairEvents 2500 0 0 samplePair (.ok ())) :=
  .op _ (.op _ (.op _ (.op _ (.op _ (.op _ (.op _ (.pure _)))))))

theorem sampleDistance_ends : Ends (frameDistance sampleExact false litFrame sampleTemplate)
    (.ok (some 0)) [⟨.extract litFrame, .ok [1]⟩] := by
  have hself : cosineDistance [(1 : ℝ)] [1] = .ok 0 := cosineDistance_self ⟨1, by simp⟩
  replace hself : sampleExact.cosineDistance [1] sampleTemplate.embedding = .ok 0 := hself
  refine ends_bind_iff.2 (.inr ⟨0, [⟨.extract litFrame, .ok [1]⟩], [], rfl, ?_,
    ends_pure_iff.2 ⟨rfl, rfl⟩⟩)
  exact ends_ask_bind_iff.2 ⟨.ok [1], [], rfl, .inr ⟨[1], rfl,
    ends_ofResult_iff.2 ⟨by rw [hself]; rfl, rfl⟩⟩⟩

/-- Two frames after that of the pair, and then the deadline. -/
def sampleLoop : List (Event ℝ) :=
  [⟨.now, 0⟩, ⟨.capture 150, .ok litFrame⟩, ⟨.extract litFrame, .ok [1]⟩,
    ⟨.now, 0⟩, ⟨.capture 150, .ok litFrame⟩, ⟨.extract litFrame, .ok [1]⟩,
    ⟨.now, 2500000000⟩]

theorem sampleRound_ends {distances : List ℝ} (h : distances.length < matchFrames) :
    Ends (matchRound sampleExact false sampleTemplate 2500000000 distances)
      (.ok (.inl (distances ++ [0])))
      [⟨.now, 0⟩, ⟨.capture 150, .ok litFrame⟩, ⟨.extract litFrame, .ok [1]⟩] := by
  unfold matchRound
  rw [if_neg (not_le.2 h)]
  refine ends_ask_bind_iff.2 ⟨0, _, rfl, .inr ⟨0, rfl, ?_⟩⟩
  refine ends_settle_bind_iff.2 (.inr ⟨.ok litFrame, [⟨.capture 150, .ok litFrame⟩], _, rfl,
    ends_ask_iff.2 ⟨.ok litFrame, rfl, rfl⟩, ?_⟩)
  exact ends_bind_iff.2 (.inr ⟨some 0, _, [], rfl, sampleDistance_ends, ends_pure_iff.2 ⟨rfl, rfl⟩⟩)

theorem sampleLoop_ends : Ends (loop (matchRound sampleExact false sampleTemplate 2500000000) 9 [0])
    (.ok [0, 0, 0]) sampleLoop := by
  have hdeadline : Ends (matchRound sampleExact false sampleTemplate 2500000000 [0, 0, 0])
      (.ok (.inr [0, 0, 0])) [⟨.now, 2500000000⟩] := .op _ (.pure _)
  exact ends_loop_next (sampleRound_ends (by simp [matchFrames]))
    (ends_loop_next (sampleRound_ends (by simp [matchFrames])) (ends_loop_break hdeadline))

/-- The template is captured, and the gate lets in. -/
theorem sampleEnroll_ends : Ends (captureTemplate sampleExact (mugTemplateSource false sampleMug))
    (.ok sampleTemplate) (pairEvents 2500 0 0 samplePair (.ok ()) ++
      [⟨.extract litFrame, .ok [1]⟩, ⟨.unixTime, some 0⟩]) := by
  refine ends_bind_iff.2 (.inr ⟨samplePair, _, _, rfl, ends_context_ok_iff.2 samplePair_ends, ?_⟩)
  have hlive : sampleExact.analyze samplePair (mugTemplateSource false sampleMug).livenessCfg =
      .ok ⟨sampleFeatures, true, none⟩ := samplePair_live
  refine ends_bind_iff.2 (.inr ⟨_, [], _, rfl, ends_context_ok_iff.2
    (ends_ofResult_iff.2 ⟨by rw [hlive]; rfl, rfl⟩), ?_⟩)
  exact ends_bind_iff.2 (.inr ⟨_, [], _, rfl, ends_context_ok_iff.2
    (ends_ofResult_iff.2 ⟨rfl, rfl⟩), .op _ (.op _ (.pure _))⟩)

/-- The calls of the gate. -/
def sampleVerify : List (Event ℝ) :=
  ⟨.now, 0⟩ :: pairEvents 2500 0 0 samplePair (.ok ()) ++ [⟨.extract litFrame, .ok [1]⟩,
    ⟨.setEnabled true, .ok ()⟩] ++ sampleLoop ++ [⟨.setEnabled false, .ok ()⟩]

theorem sampleVerify_ends : Ends (runVerify sampleExact false sampleTemplate sampleMug 9) (.ok ())
    sampleVerify := by
  have hlive : sampleExact.analyze samplePair
      (effectiveConfig sampleTemplate sampleMug.livenessConfig) =
      .ok ⟨sampleFeatures, true, none⟩ := samplePair_live
  have hdecide : decideMatch [(0 : ℝ), 0, 0] sampleTemplate.matchThreshold minMatchFrames =
      .ok () := decideMatch_replicate MugConfig.default_matchThreshold 3 minMatchFrames
  unfold runVerify verify
  refine ends_ask_bind_iff.2 ⟨0, _, rfl, .inr ⟨0, rfl, ?_⟩⟩
  refine ends_bind_iff.2 (.inr ⟨samplePair, pairEvents 2500 0 0 samplePair (.ok ()), _, rfl,
    samplePair_ends, ?_⟩)
  refine ends_lift_bind_iff.2 (.inr ⟨_, hlive, ?_⟩)
  refine ends_lift_bind_iff.2 (.inr ⟨sampleFeatures, rfl, ?_⟩)
  refine ends_bind_iff.2 (.inr ⟨some 0, _, _, rfl, sampleDistance_ends, ?_⟩)
  refine ends_ask_bind_iff.2 ⟨.ok (), _, rfl, .inr ⟨(), rfl, ?_⟩⟩
  refine ends_settle_bind_iff.2 (.inr ⟨.ok (), sampleLoop, [⟨.setEnabled false, .ok ()⟩], rfl,
    ?_, ?_⟩)
  · exact ends_bind_iff.2 (.inr ⟨[0, 0, 0], sampleLoop, [], rfl, sampleLoop_ends,
      ends_ofResult_iff.2 ⟨by rw [hdecide], rfl⟩⟩)
  · exact .op _ (.pure _)

theorem verify_of_captureTemplate_sample :
    (minMatchFrames ≤ (frames sampleVerify).tail.length →
      (Except.ok () : Except (Stop (MugError ℝ)) Unit) = .ok ()) ∧
      ((Except.ok () : Except (Stop (MugError ℝ)) Unit) = .ok () ∨
        Starved 2500 (.ok ()) sampleVerify) := by
  have hext : ∀ (frame : IrFrame) (e : List ℝ),
      (Except.ok [1] : Except (MugError ℝ) (List ℝ)) = .ok e → ∃ x ∈ e, x ≠ 0 := by
    intro frame e he
    exact ⟨1, by simp [← Except.ok.inj he], one_ne_zero⟩
  have henroll : Served (fun _ => .error .noFace) (fun _ => .ok [1]) dimFrame litFrame false
      (pairEvents 2500 0 0 samplePair (.ok ()) ++
        [⟨.extract litFrame, .ok [(1 : ℝ)]⟩, ⟨.unixTime, some 0⟩]) := by
    simp [Served, pairEvents, samplePair]
  have hverify : Served (fun _ => .error .noFace) (fun _ => .ok [1]) dimFrame litFrame false
      sampleVerify := by
    simp [Served, sampleVerify, sampleLoop, pairEvents, samplePair]
  exact verify_of_captureTemplate (fun _ _ => "") false sampleMug MugConfig.default_matchThreshold
    hext sampleEnroll_ends henroll sampleVerify_ends hverify (.inl (by simp))

end Exact

end Mug

end Tess

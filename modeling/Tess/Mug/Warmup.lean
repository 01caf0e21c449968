import Mathlib.Algebra.Order.Field.Basic
import Tess.Lists.Selection
import Tess.Mug.Camera

/-!
# Warming up

Some emitters light up only after the camera has streamed for a while. The camera is then wrapped:
a capture with the emitter off is the cold frame that later ones are measured against, and one with
the emitter on streams until a frame is warm. This module follows the warm-up device of
`mug/src/camera/hw.rs`, over any numbers that are linearly ordered, however they are rounded.
-/

namespace Tess

namespace Mug

open Effects

variable {F : Type} [LinearOrder F] [Add F] [Div F] [NatCast F]

def IrFrame.mean (frame : IrFrame) : F :=
  if frame.data.isEmpty then ((0 : ℕ) : F)
  else ((frame.data.map UInt8.toNat).sum : F) / (frame.data.length : F)

structure WarmupConfig (F : Type) where
  minMean : F
  minDelta : F
  pollMs : ℕ

def WarmupConfig.default : WarmupConfig F where
  minMean := ((24 : ℕ) : F)
  minDelta := ((14 : ℕ) : F)
  pollMs := 200

inductive Phase where
  | cold
  | warm
  deriving DecidableEq

/-- What the two halves share, besides the camera. There is an inner emitter or there is none. -/
structure WarmingShared (F : Type) where
  emitter : Bool
  phase : Phase
  coldMean : F
  warmup : WarmupConfig F

def WarmingDevice.splitWithConfig (emitter : Bool) (warmup : WarmupConfig F) : WarmingShared F where
  emitter := emitter
  phase := .cold
  coldMean := ((0 : ℕ) : F)
  warmup := warmup

/-- There may be no frame in a slice of the stream. -/
def sliceResult : Except (MugError F) IrFrame → Except (Stop (MugError F)) (Option IrFrame)
  | .ok frame => .ok (some frame)
  | .error (.timeout _) => .ok none
  | .error e => .error (.failed e)

def captureSlice (ms : ℕ) : Io F (Option IrFrame) := ask (.capture ms) sliceResult

/-- The emitter has lit the frame. -/
def WarmupConfig.Warm (warmup : WarmupConfig F) (baseline : F) (frame : IrFrame) : Prop :=
  warmup.minMean ≤ frame.mean ∧ baseline + warmup.minDelta ≤ frame.mean

instance (warmup : WarmupConfig F) (baseline : F) (frame : IrFrame) :
    Decidable (warmup.Warm baseline frame) := inferInstanceAs (Decidable (_ ∧ _))

/-- The frame takes the place of one that is not as bright. -/
def brighter (frame : IrFrame) (brightest : Option IrFrame) : Option IrFrame :=
  if brightest.all fun b => (b.mean : F) < frame.mean then some frame else brightest

/-- A round of the stream, with the brightest frame so far. -/
def warmRound (deadline : ℕ) (warmup : WarmupConfig F) (baseline : F) (brightest : Option IrFrame) :
    Io F (Option IrFrame ⊕ Option IrFrame) := do
  let t ← now
  let remaining := remainingMs deadline t
  if remaining = 0 then pure (.inr brightest)
  else
    match ← captureSlice (min remaining (max warmup.pollMs 1)) with
    | none => pure (.inl brightest)
    | some frame =>
      if warmup.Warm baseline frame then pure (.inr (some frame))
      else pure (.inl (brighter (F := F) frame brightest))

/-- `Option::ok_or`, with the timeout of the whole capture. -/
def okOrTimeout (deadlineMs : ℕ) : Option IrFrame → Except (MugError F) IrFrame
  | some frame => .ok frame
  | none => .error (.timeout deadlineMs)

def captureWarm (rounds : ℕ) (warmup : WarmupConfig F) (baseline : F) (deadlineMs : ℕ) :
    Io F IrFrame := do
  let start ← now
  let brightest ← loop (warmRound (start + deadlineMs * 1000000) warmup baseline) rounds none
  lift (okOrTimeout deadlineMs brightest)

/-- What the capture returns, and what is shared after it. -/
def WarmingSource.capture (rounds : ℕ) (s : WarmingShared F) (deadlineMs : ℕ) :
    Io F (Except (MugError F) IrFrame × WarmingShared F) :=
  match s.phase with
  | .cold => do
    match ← settle (Mug.capture deadlineMs) with
    | .error e => pure (.error e, s)
    | .ok frame => pure (.ok frame, { s with coldMean := frame.mean })
  | .warm => do
    let x ← settle (captureWarm rounds s.warmup s.coldMean deadlineMs)
    pure (x, s)

def WarmingShared.select (s : WarmingShared F) (on : Bool) : WarmingShared F :=
  { s with phase := if on then .warm else .cold }

/-- The inner emitter may refuse. -/
def WarmingEmitter.setEnabled (s : WarmingShared F) (on : Bool) : Io F (WarmingShared F) :=
  if s.emitter then ask (.setEnabled on) fun _ => .ok (s.select on) else pure (s.select on)

/-! ## The runs of a warm capture -/

/-- A slice that was asked for after a look at the clock, and what it returned. -/
structure Poll (F : Type) where
  t : ℕ
  ms : ℕ
  result : Except (MugError F) IrFrame

/-- The slice is not empty, and no longer than what is left of the budget. -/
def Poll.Fits (deadline : ℕ) (p : Poll F) : Prop := 0 < p.ms ∧ p.ms ≤ remainingMs deadline p.t

/-- The stream goes on after a slice without a frame, and after a frame that is not warm. -/
def Poll.Passed (warmup : WarmupConfig F) (baseline : F) (p : Poll F) : Prop :=
  (∃ ms, p.result = .error (.timeout ms)) ∨
    ∃ frame, p.result = .ok frame ∧ ¬ warmup.Warm baseline frame

def pollEvents (polls : List (Poll F)) : List (Event F) :=
  polls.flatMap fun p => [⟨.now, p.t⟩, ⟨.capture p.ms, p.result⟩]

/-- The frames that arrived. -/
def streamed (polls : List (Poll F)) : List IrFrame := polls.filterMap fun p => p.result.toOption

/-- The ends of a round of the stream. -/
inductive WarmRound (deadline : ℕ) (warmup : WarmupConfig F) (baseline : F)
    (brightest : Option IrFrame) :
    Except (Stop (MugError F)) (Option IrFrame ⊕ Option IrFrame) → List (Event F) → Prop
  | expired (t : ℕ) (ht : remainingMs deadline t = 0) :
      WarmRound deadline warmup baseline brightest (.ok (.inr brightest)) [⟨.now, t⟩]
  | empty (p : Poll F) (hp : p.Fits deadline) (ms : ℕ) (h : p.result = .error (.timeout ms)) :
      WarmRound deadline warmup baseline brightest (.ok (.inl brightest)) (pollEvents [p])
  | failed (p : Poll F) (hp : p.Fits deadline) (e : MugError F) (h : p.result = .error e)
      (he : ∀ ms, e ≠ .timeout ms) :
      WarmRound deadline warmup baseline brightest (.error (.failed e)) (pollEvents [p])
  | warm (p : Poll F) (hp : p.Fits deadline) (frame : IrFrame) (h : p.result = .ok frame)
      (hwarm : warmup.Warm baseline frame) :
      WarmRound deadline warmup baseline brightest (.ok (.inr (some frame))) (pollEvents [p])
  | dark (p : Poll F) (hp : p.Fits deadline) (frame : IrFrame) (h : p.result = .ok frame)
      (hwarm : ¬ warmup.Warm baseline frame) :
      WarmRound deadline warmup baseline brightest
        (.ok (.inl (brighter (F := F) frame brightest))) (pollEvents [p])

variable {rounds deadline deadlineMs : ℕ} {warmup : WarmupConfig F} {baseline : F}

omit [LinearOrder F] [Add F] [Div F] [NatCast F] in
theorem sliceResult_cases (x : Except (MugError F) IrFrame) :
    (∃ ms, x = .error (.timeout ms) ∧ sliceResult x = .ok none) ∨
      (∃ e, x = .error e ∧ (∀ ms, e ≠ .timeout ms) ∧ sliceResult x = .error (.failed e)) ∨
      ∃ frame, x = .ok frame ∧ sliceResult x = .ok (some frame) := by
  unfold sliceResult
  split
  next frame => exact .inr (.inr ⟨frame, rfl, rfl⟩)
  next ms => exact .inl ⟨ms, rfl, rfl⟩
  next e he => exact .inr (.inl ⟨e, rfl, fun ms hms => he ms hms, rfl⟩)

theorem warmRound_run {brightest : Option IrFrame}
    {r : Except (Stop (MugError F)) (Option IrFrame ⊕ Option IrFrame)} {l : List (Event F)}
    (h : Ends (warmRound deadline warmup baseline brightest) r l) :
    WarmRound deadline warmup baseline brightest r l := by
  unfold warmRound now captureSlice at h
  obtain ⟨t, l, rfl, ⟨_, ⟨⟩, -⟩ | ⟨_, ⟨⟩, h⟩⟩ := ends_ask_bind_iff.1 h
  by_cases ht : remainingMs deadline t = 0
  · rw [if_pos ht] at h
    obtain ⟨rfl, rfl⟩ := ends_pure_iff.1 h
    exact .expired t ht
  rw [if_neg ht] at h
  obtain ⟨x, l, rfl, hgo⟩ := ends_ask_bind_iff.1 h
  let p : Poll F := ⟨t, min (remainingMs deadline t) (max warmup.pollMs 1), x⟩
  have hp : p.Fits deadline := by
    constructor
    · change 0 < min (remainingMs deadline t) (max warmup.pollMs 1)
      omega
    · exact min_le_left _ _
  obtain ⟨ms, hx, hres⟩ | ⟨e, hx, he, hres⟩ | ⟨frame, hx, hres⟩ := sliceResult_cases x
  · obtain ⟨e, hfail, -⟩ | ⟨_, hok, hret⟩ := hgo
    · rw [hres] at hfail
      cases hfail
    · obtain rfl := Except.ok.inj (hres.symm.trans hok)
      obtain ⟨rfl, rfl⟩ := ends_pure_iff.1 hret
      exact .empty p hp ms hx
  · obtain ⟨e', hfail, rfl, rfl⟩ | ⟨_, hok, -⟩ := hgo
    · obtain rfl := Except.error.inj (hres.symm.trans hfail)
      exact .failed p hp e hx he
    · rw [hres] at hok
      cases hok
  · obtain ⟨e, hfail, -⟩ | ⟨_, hok, hret⟩ := hgo
    · rw [hres] at hfail
      cases hfail
    obtain rfl := Except.ok.inj (hres.symm.trans hok)
    by_cases hwarm : warmup.Warm baseline frame
    · simp only [if_pos hwarm] at hret
      obtain ⟨rfl, rfl⟩ := ends_pure_iff.1 hret
      exact .warm p hp frame hx hwarm
    · simp only [if_neg hwarm] at hret
      obtain ⟨rfl, rfl⟩ := ends_pure_iff.1 hret
      exact .dark p hp frame hx hwarm

/-- The ends of a warm capture whose slices are `polls`, and what is left of its calls after them:
the last look at the clock, where the time was over. -/
inductive WarmRun (rounds deadline deadlineMs : ℕ) (warmup : WarmupConfig F) (baseline : F) :
    List (Poll F) → Except (Stop (MugError F)) IrFrame → List (Event F) → Prop
  | warm (polls : List (Poll F)) (hpolls : ∀ p ∈ polls, p.Passed warmup baseline) (p : Poll F)
      (frame : IrFrame) (h : p.result = .ok frame) (hwarm : warmup.Warm baseline frame) :
      WarmRun rounds deadline deadlineMs warmup baseline (polls ++ [p]) (.ok frame) []
  | failed (polls : List (Poll F)) (hpolls : ∀ p ∈ polls, p.Passed warmup baseline) (p : Poll F)
      (e : MugError F) (h : p.result = .error e) (he : ∀ ms, e ≠ .timeout ms) :
      WarmRun rounds deadline deadlineMs warmup baseline (polls ++ [p]) (.error (.failed e)) []
  | brightest (polls : List (Poll F)) (hpolls : ∀ p ∈ polls, p.Passed warmup baseline) (t : ℕ)
      (ht : remainingMs deadline t = 0) (frame : IrFrame)
      (hmax : Lists.FirstMax (IrFrame.mean (F := F)) (streamed polls) (some frame)) :
      WarmRun rounds deadline deadlineMs warmup baseline polls (.ok frame) [⟨.now, t⟩]
  | timeout (polls : List (Poll F)) (hpolls : ∀ p ∈ polls, p.Passed warmup baseline) (t : ℕ)
      (ht : remainingMs deadline t = 0) (hnone : streamed polls = []) :
      WarmRun rounds deadline deadlineMs warmup baseline polls
        (.error (.failed (.timeout deadlineMs))) [⟨.now, t⟩]
  | running (polls : List (Poll F)) (hpolls : ∀ p ∈ polls, p.Passed warmup baseline)
      (hrounds : polls.length = rounds) :
      WarmRun rounds deadline deadlineMs warmup baseline polls (.error .running) []

/-- The slices of a stream that goes on, and the brightest of their frames. -/
structure Streaming (deadline : ℕ) (warmup : WarmupConfig F) (baseline : F)
    (brightest : Option IrFrame) (polls : List (Poll F)) : Prop where
  fits : ∀ p ∈ polls, p.Fits deadline
  passed : ∀ p ∈ polls, p.Passed warmup baseline
  firstMax : Lists.FirstMax (IrFrame.mean (F := F)) (streamed polls) brightest

theorem Streaming.empty {brightest : Option IrFrame} {polls : List (Poll F)}
    (h : Streaming deadline warmup baseline brightest polls) {p : Poll F} (hp : p.Fits deadline)
    {ms : ℕ} (hms : p.result = .error (.timeout ms)) :
    Streaming deadline warmup baseline brightest (polls ++ [p]) where
  fits := by simpa [or_imp, forall_and] using ⟨h.fits, hp⟩
  passed := by simpa [or_imp, forall_and] using ⟨h.passed, .inl ⟨ms, hms⟩⟩
  firstMax := by simpa [streamed, hms, Except.toOption] using h.firstMax

theorem Streaming.dark {brightest : Option IrFrame} {polls : List (Poll F)}
    (h : Streaming deadline warmup baseline brightest polls) {p : Poll F} (hp : p.Fits deadline)
    {frame : IrFrame} (hframe : p.result = .ok frame) (hdark : ¬ warmup.Warm baseline frame) :
    Streaming deadline warmup baseline (brighter (F := F) frame brightest) (polls ++ [p]) where
  fits := by simpa [or_imp, forall_and] using ⟨h.fits, hp⟩
  passed := by simpa [or_imp, forall_and] using ⟨h.passed, .inr ⟨frame, hframe, hdark⟩⟩
  firstMax := by
    have hstreamed : streamed (polls ++ [p]) = streamed polls ++ [frame] := by
      simp [streamed, hframe, Except.toOption]
    rw [hstreamed]
    exact h.firstMax.snoc frame

omit [LinearOrder F] [Add F] [Div F] [NatCast F] in
theorem pollEvents_append (polls polls' : List (Poll F)) :
    pollEvents (polls ++ polls') = pollEvents polls ++ pollEvents polls' := List.flatMap_append

/-- What the capture returns for the brightest frame. -/
def finish (deadlineMs : ℕ) (brightest : Option IrFrame) : Except (Stop (MugError F)) IrFrame :=
  (okOrTimeout deadlineMs brightest).mapError .failed

variable (deadlineMs) in
theorem warmLoop_run {r : Except (Stop (MugError F)) (Option IrFrame)} {l : List (Event F)}
    (h : Ends (loop (warmRound deadline warmup baseline) rounds none) r l) :
    ∃ polls l', l = pollEvents polls ++ l' ∧ (∀ p ∈ polls, p.Fits deadline) ∧
      WarmRun rounds deadline deadlineMs warmup baseline polls (r.bind (finish deadlineMs)) l' := by
  refine ends_loop_rounds (l := [])
    (I := fun n brightest l => ∃ polls, n + polls.length = rounds ∧ l = pollEvents polls ∧
      Streaming deadline warmup baseline brightest polls)
    (Q := fun r l => ∃ polls l', l = pollEvents polls ++ l' ∧ (∀ p ∈ polls, p.Fits deadline) ∧
      WarmRun rounds deadline deadlineMs warmup baseline polls (r.bind (finish deadlineMs)) l')
    ?_ ?_ ?_ ?_ ?_ h
  · intro brightest l ⟨polls, hrounds, hl, hs⟩
    rw [Nat.zero_add] at hrounds
    exact ⟨polls, [], by rw [hl, List.append_nil], hs.fits, .running polls hs.passed hrounds⟩
  · intro n brightest l brightest' l' ⟨polls, hrounds, hl, hs⟩ hround
    generalize hr : Except.ok (Sum.inl brightest') = r' at hround
    cases warmRound_run hround with
    | empty p hp ms hms =>
      cases hr
      exact ⟨polls ++ [p], by simp; omega, by rw [hl, pollEvents_append], hs.empty hp hms⟩
    | dark p hp frame hframe hdark =>
      cases hr
      exact ⟨polls ++ [p], by simp; omega, by rw [hl, pollEvents_append], hs.dark hp hframe hdark⟩
    | _ => cases hr
  · intro n brightest l last l' ⟨polls, hrounds, hl, hs⟩ hround
    generalize hr : Except.ok (Sum.inr last) = r' at hround
    cases warmRound_run hround with
    | expired t ht =>
      cases hr
      refine ⟨polls, [⟨.now, t⟩], by rw [hl], hs.fits, ?_⟩
      cases brightest with
      | none =>
        have hnone : streamed polls = [] := hs.firstMax
        exact .timeout polls hs.passed t ht hnone
      | some frame => exact .brightest polls hs.passed t ht frame hs.firstMax
    | warm p hp frame hframe hwarm =>
      cases hr
      refine ⟨polls ++ [p], [], by rw [hl, pollEvents_append, List.append_nil], ?_,
        .warm polls hs.passed p frame hframe hwarm⟩
      simpa [or_imp, forall_and] using ⟨hs.fits, hp⟩
    | _ => cases hr
  · intro n brightest l e l' ⟨polls, hrounds, hl, hs⟩ hround
    generalize hr : Except.error e = r' at hround
    cases warmRound_run hround with
    | failed p hp e' he' hne =>
      cases hr
      refine ⟨polls ++ [p], [], by rw [hl, pollEvents_append, List.append_nil], ?_,
        .failed polls hs.passed p e' he' hne⟩
      simpa [or_imp, forall_and] using ⟨hs.fits, hp⟩
    | _ => cases hr
  · exact ⟨[], by simp, rfl, by simp, by simp, Lists.FirstMax.nil⟩

/-- **A warm capture** is a look at the clock, slices that are no longer than what is left, and an
end. -/
theorem captureWarm_run {r : Except (Stop (MugError F)) IrFrame} {l : List (Event F)}
    (h : Ends (captureWarm rounds warmup baseline deadlineMs) r l) :
    ∃ t₀ polls l', l = ⟨.now, t₀⟩ :: (pollEvents polls ++ l') ∧
      (∀ p ∈ polls, p.Fits (t₀ + deadlineMs * 1000000)) ∧
      WarmRun rounds (t₀ + deadlineMs * 1000000) deadlineMs warmup baseline polls r l' := by
  unfold captureWarm now at h
  obtain ⟨t₀, l, rfl, ⟨_, ⟨⟩, -⟩ | ⟨_, ⟨⟩, hgo⟩⟩ := ends_ask_bind_iff.1 h
  obtain ⟨e, rfl, hloop⟩ | ⟨brightest, l₁, l₂, rfl, hloop, hret⟩ := ends_bind_iff.1 hgo
  · obtain ⟨polls, l', rfl, hfits, hrun⟩ := warmLoop_run deadlineMs hloop
    exact ⟨t₀, polls, l', rfl, hfits, hrun⟩
  · obtain ⟨rfl, rfl⟩ := ends_ofResult_iff.1 hret
    obtain ⟨polls, l', rfl, hfits, hrun⟩ := warmLoop_run deadlineMs hloop
    exact ⟨t₀, polls, l', by rw [List.append_nil], hfits, hrun⟩

/-! ## Sessions -/

/-- A call of the wrapped device, with what a capture returned. -/
inductive Step (F : Type) where
  | setEnabled (on : Bool)
  | capture (result : Except (MugError F) IrFrame)

/-- The states of the device after calls that have returned. -/
inductive Session (warmup : WarmupConfig F) : List (Step F) → WarmingShared F → Prop
  | split (emitter : Bool) : Session warmup [] (WarmingDevice.splitWithConfig emitter warmup)
  | setEnabled {steps : List (Step F)} {s s' : WarmingShared F} {on : Bool} {l : List (Event F)}
      (hs : Session warmup steps s) (h : Ends (WarmingEmitter.setEnabled s on) (.ok s') l) :
      Session warmup (steps ++ [.setEnabled on]) s'
  | capture {steps : List (Step F)} {s s' : WarmingShared F} {rounds deadlineMs : ℕ}
      {x : Except (MugError F) IrFrame} {l : List (Event F)} (hs : Session warmup steps s)
      (h : Ends (WarmingSource.capture rounds s deadlineMs) (.ok (x, s')) l) :
      Session warmup (steps ++ [.capture x]) s'

/-- The emitter was turned on last, and the last frame that was captured while it was not. -/
structure Seen where
  lit : Bool
  cold : Option IrFrame

def Seen.after (seen : Seen) : Step F → Seen
  | .setEnabled on => { seen with lit := on }
  | .capture (.ok frame) => if seen.lit then seen else { seen with cold := some frame }
  | .capture (.error _) => seen

def seen (steps : List (Step F)) : Seen := steps.foldl Seen.after ⟨false, none⟩

/-- The brightness of the last cold frame, and black if there is none. -/
def baselineOf (steps : List (Step F)) : F :=
  (seen steps).cold.elim ((0 : ℕ) : F) IrFrame.mean

omit [LinearOrder F] [Add F] [Div F] [NatCast F] in
theorem setEnabled_ok {s s' : WarmingShared F} {on : Bool} {l : List (Event F)}
    (h : Ends (WarmingEmitter.setEnabled s on) (.ok s') l) : s' = s.select on := by
  unfold WarmingEmitter.setEnabled at h
  split at h
  · obtain ⟨x, hx, -⟩ := ends_ask_iff.1 h
    exact Except.ok.inj hx
  · exact Except.ok.inj (ends_pure_iff.1 h).1

theorem capture_cold {s s' : WarmingShared F} {x : Except (MugError F) IrFrame}
    {l : List (Event F)} (hphase : s.phase = .cold)
    (h : Ends (WarmingSource.capture rounds s deadlineMs) (.ok (x, s')) l) :
    (∃ e, x = .error e ∧ s' = s) ∨ ∃ frame, x = .ok frame ∧ s' = { s with coldMean := frame.mean } := by
  obtain ⟨emitter, _, coldMean, warmup⟩ := s
  obtain rfl : _ = Phase.cold := hphase
  obtain ⟨-, ⟨⟩⟩ | ⟨o, l₁, l₂, rfl, -, hret⟩ := ends_settle_bind_iff.1 h
  cases o with
  | error e =>
    obtain ⟨rfl, rfl⟩ := Prod.mk.inj (Except.ok.inj (ends_pure_iff.1 hret).1)
    exact .inl ⟨e, rfl, rfl⟩
  | ok frame =>
    obtain ⟨rfl, rfl⟩ := Prod.mk.inj (Except.ok.inj (ends_pure_iff.1 hret).1)
    exact .inr ⟨frame, rfl, rfl⟩

/-- The state is the same after a warm capture. -/
theorem capture_warm {s : WarmingShared F}
    {r : Except (Stop (MugError F)) (Except (MugError F) IrFrame × WarmingShared F)}
    {l : List (Event F)} (hphase : s.phase = .warm)
    (h : Ends (WarmingSource.capture rounds s deadlineMs) r l) :
    ∃ r₀, Ends (captureWarm rounds s.warmup s.coldMean deadlineMs) r₀ l ∧
      r = (settled r₀).map fun x => (x, s) := by
  simp only [WarmingSource.capture, hphase] at h
  obtain ⟨hrun, rfl⟩ | ⟨x, l₁, l₂, rfl, hrun, hret⟩ := ends_settle_bind_iff.1 h
  · exact ⟨_, hrun, rfl⟩
  · obtain ⟨rfl, rfl⟩ := ends_pure_iff.1 hret
    refine ⟨_, by rwa [List.append_nil], ?_⟩
    cases x <;> rfl

/-- **The state says what was seen.** -/
structure WarmingShared.Tracks (s : WarmingShared F) (warmup : WarmupConfig F)
    (steps : List (Step F)) : Prop where
  warmup_eq : s.warmup = warmup
  phase_eq : s.phase = if (seen steps).lit then .warm else .cold
  coldMean_eq : s.coldMean = baselineOf steps

theorem Session.tracks {steps : List (Step F)} {s : WarmingShared F} (h : Session warmup steps s) :
    s.Tracks warmup steps := by
  induction h with
  | split emitter => exact ⟨rfl, rfl, rfl⟩
  | @setEnabled steps s s' on l hs h ih =>
    obtain rfl := setEnabled_ok h
    exact ⟨ih.warmup_eq, by simp [WarmingShared.select, seen, Seen.after], by
      simpa [WarmingShared.select, baselineOf, seen, Seen.after] using ih.coldMean_eq⟩
  | @capture steps s s' rounds deadlineMs x l hs h ih =>
    have hseen : seen (steps ++ [.capture x]) = (seen steps).after (.capture x) := by
      simp [seen]
    by_cases hlit : (seen steps).lit = true
    · have hphase : s.phase = .warm := by rw [ih.phase_eq, if_pos hlit]
      have hsame : (seen steps).after (.capture x) = seen steps := by
        cases x <;> simp [Seen.after, hlit]
      obtain ⟨r₀, -, hr⟩ := capture_warm hphase h
      obtain rfl : s' = s := by
        obtain (e | _) | frame := r₀ <;> cases hr <;> rfl
      exact ⟨ih.warmup_eq, by rw [hseen, hsame, ih.phase_eq], by
        rw [baselineOf, hseen, hsame]
        exact ih.coldMean_eq⟩
    · have hphase : s.phase = .cold := by rw [ih.phase_eq, if_neg hlit]
      obtain ⟨e, rfl, rfl⟩ | ⟨frame, rfl, rfl⟩ := capture_cold hphase h
      · exact ⟨ih.warmup_eq, by rw [hseen]; exact ih.phase_eq, by
          rw [baselineOf, hseen]
          exact ih.coldMean_eq⟩
      · have hcold : seen (steps ++ [.capture (.ok frame)]) =
            { seen steps with cold := some frame } := by
          rw [hseen]
          simp [Seen.after, hlit]
        exact ⟨ih.warmup_eq, by rw [hcold]; exact ih.phase_eq, by
          rw [baselineOf, hcold]
          rfl⟩

theorem Poll.Passed.timeout_iff {p : Poll F} (h : p.Passed warmup baseline) :
    (∃ ms, p.result = .error (.timeout ms)) ↔ p.result.toOption = none := by
  obtain ⟨ms, hms⟩ | ⟨frame, hframe, -⟩ := h
  · simp [hms, Except.toOption]
  · simp [hframe, Except.toOption]

/-- A capture that has returned timed out if all of its slices did. -/
theorem WarmRun.timeout_iff {polls : List (Poll F)} {r : Except (Stop (MugError F)) IrFrame}
    {l : List (Event F)} (h : WarmRun rounds deadline deadlineMs warmup baseline polls r l)
    (hr : r ≠ .error .running) :
    (∃ ms, r = .error (.failed (.timeout ms))) ↔
      ∀ p ∈ polls, ∃ ms, p.result = .error (.timeout ms) := by
  cases h with
  | warm polls hpolls p frame hframe hwarm =>
    refine ⟨nofun, fun hall => ?_⟩
    obtain ⟨ms, hms⟩ := hall p (by simp)
    rw [hframe] at hms
    cases hms
  | failed polls hpolls p e he hne =>
    constructor
    · rintro ⟨ms, ⟨⟩⟩
      exact absurd rfl (hne ms)
    · intro hall
      obtain ⟨ms, hms⟩ := hall p (by simp)
      rw [he] at hms
      exact absurd (Except.error.inj hms) (hne ms)
  | brightest polls hpolls t ht frame hmax =>
    refine ⟨nofun, fun hall => ?_⟩
    obtain ⟨l₁, l₂, hstreamed, -⟩ := hmax
    have hnil : streamed polls = [] := List.filterMap_eq_nil_iff.2 fun p hp =>
      (hpolls p hp).timeout_iff.1 (hall p hp)
    simp [hnil] at hstreamed
  | timeout polls hpolls t ht hnone =>
    refine ⟨fun _ p hp => ?_, fun _ => ⟨deadlineMs, rfl⟩⟩
    exact (hpolls p hp).timeout_iff.2 (List.filterMap_eq_nil_iff.1 hnone p hp)
  | running => exact absurd rfl hr

/-- **A capture with the emitter on**: the first warm frame, measured against the last cold one; an
error, as soon as there is one; at the deadline, the first of the brightest frames; or a timeout,
where no frame has arrived. -/
theorem session_capture_warm {steps : List (Step F)} {s : WarmingShared F}
    {r : Except (Stop (MugError F)) (Except (MugError F) IrFrame × WarmingShared F)}
    {l : List (Event F)} (hs : Session warmup steps s) (hlit : (seen steps).lit = true)
    (h : Ends (WarmingSource.capture rounds s deadlineMs) r l) :
    ∃ r₀ t₀ polls l', r = (settled r₀).map (fun x => (x, s)) ∧
      l = ⟨.now, t₀⟩ :: (pollEvents polls ++ l') ∧
      (∀ p ∈ polls, p.Fits (t₀ + deadlineMs * 1000000)) ∧
      WarmRun rounds (t₀ + deadlineMs * 1000000) deadlineMs warmup (baselineOf steps) polls r₀ l' ∧
      (r₀ ≠ .error .running → ((∃ ms, r₀ = .error (.failed (.timeout ms))) ↔
        ∀ p ∈ polls, ∃ ms, p.result = .error (.timeout ms))) := by
  have htracks := hs.tracks
  have hphase : s.phase = .warm := by rw [htracks.phase_eq, if_pos hlit]
  obtain ⟨r₀, hwarm, rfl⟩ := capture_warm hphase h
  rw [htracks.warmup_eq, htracks.coldMean_eq] at hwarm
  obtain ⟨t₀, polls, l', rfl, hfits, hrun⟩ := captureWarm_run hwarm
  exact ⟨r₀, t₀, polls, l', rfl, rfl, hfits, hrun, hrun.timeout_iff⟩

def samplePixel (b : UInt8) : IrFrame := ⟨1, 1, [b], rfl⟩

def sampleWarmup : WarmupConfig ℤ := { WarmupConfig.default with pollMs := 50 }

/-- A cold frame was captured, and the emitter was turned on. -/
def sampleSteps : List (Step ℤ) := [.capture (.ok (samplePixel 2)), .setEnabled true]

def sampleShared : WarmingShared ℤ :=
  { emitter := false, phase := .warm, coldMean := 2, warmup := sampleWarmup }

@[simp] theorem samplePixel_mean (b : UInt8) : (samplePixel b).mean = (b.toNat : ℤ) := by
  simp [IrFrame.mean, samplePixel]

theorem sampleShared_session : Session sampleWarmup sampleSteps sampleShared := by
  have hcold : Ends (WarmingSource.capture 0 (WarmingDevice.splitWithConfig false sampleWarmup) 100)
      (.ok (.ok (samplePixel 2), { sampleShared with phase := .cold }))
      [⟨.capture 100, .ok (samplePixel 2)⟩] := by
    refine ends_settle_bind_iff.2 (.inr ⟨.ok (samplePixel 2), [⟨.capture 100, .ok (samplePixel 2)⟩],
      [], rfl, ends_ask_iff.2 ⟨.ok (samplePixel 2), rfl, rfl⟩, ends_pure_iff.2 ⟨?_, rfl⟩⟩)
    simp [sampleShared, WarmingDevice.splitWithConfig]
  have hlit : Ends (WarmingEmitter.setEnabled { sampleShared with phase := .cold } true)
      (.ok sampleShared) [] := .pure _
  exact .setEnabled (.capture (.split false) hcold) hlit

/-- The first slice times out, and the second one has a warm frame. -/
def sampleWarmEvents : List (Event ℤ) :=
  [⟨.now, (0 : ℕ)⟩, ⟨.now, (0 : ℕ)⟩, ⟨.capture 50, .error (.timeout 50)⟩, ⟨.now, (50000000 : ℕ)⟩,
    ⟨.capture 50, .ok (samplePixel 60)⟩]

theorem sampleWarmEvents_ends : Ends (WarmingSource.capture 2 sampleShared 100)
    (.ok (.ok (samplePixel 60), sampleShared)) sampleWarmEvents := by
  have hwarm : sampleWarmup.Warm 2 (samplePixel 60) := by
    constructor <;> simp [sampleWarmup, WarmupConfig.default]
  have hempty : Ends (warmRound 100000000 sampleWarmup 2 none) (.ok (.inl none))
      [⟨.now, (0 : ℕ)⟩, ⟨.capture 50, .error (.timeout 50)⟩] :=
    ends_ask_bind_iff.2 ⟨(0 : ℕ), _, rfl, .inr ⟨0, rfl, ends_ask_bind_iff.2
      ⟨.error (.timeout 50), [], rfl, .inr ⟨none, rfl, ends_pure_iff.2 ⟨rfl, rfl⟩⟩⟩⟩⟩
  have hlast : Ends (warmRound 100000000 sampleWarmup 2 none) (.ok (.inr (some (samplePixel 60))))
      [⟨.now, (50000000 : ℕ)⟩, ⟨.capture 50, .ok (samplePixel 60)⟩] := by
    refine ends_ask_bind_iff.2 ⟨(50000000 : ℕ), _, rfl, .inr ⟨50000000, rfl, ends_ask_bind_iff.2
      ⟨.ok (samplePixel 60), [], rfl, .inr ⟨some (samplePixel 60), rfl, ?_⟩⟩⟩⟩
    simp only [if_pos hwarm]
    exact ends_pure_iff.2 ⟨rfl, rfl⟩
  have hloop : Ends (loop (warmRound 100000000 sampleWarmup 2) 2 none)
      (.ok (some (samplePixel 60))) sampleWarmEvents.tail :=
    ends_loop_next hempty (ends_loop_break hlast)
  have hcapture : Ends (captureWarm 2 sampleWarmup 2 100) (.ok (samplePixel 60))
      sampleWarmEvents :=
    ends_ask_bind_iff.2 ⟨(0 : ℕ), _, rfl, .inr ⟨0, rfl, ends_bind_iff.2
      (.inr ⟨some (samplePixel 60), _, [], by simp [sampleWarmEvents], hloop,
        ends_ofResult_iff.2 ⟨rfl, rfl⟩⟩)⟩⟩
  exact ends_settle_bind_iff.2 (.inr ⟨.ok (samplePixel 60), sampleWarmEvents, [], by simp, hcapture,
    ends_pure_iff.2 ⟨rfl, rfl⟩⟩)

theorem session_capture_warm_sample :
    ∃ r₀ t₀ polls l', (Except.ok (.ok (samplePixel 60), sampleShared) :
        Except (Stop (MugError ℤ)) (Except (MugError ℤ) IrFrame × WarmingShared ℤ)) =
        (settled r₀).map (fun x => (x, sampleShared)) ∧
      sampleWarmEvents = ⟨.now, t₀⟩ :: (pollEvents polls ++ l') ∧
      (∀ p ∈ polls, p.Fits (t₀ + 100 * 1000000)) ∧
      WarmRun 2 (t₀ + 100 * 1000000) 100 sampleWarmup (baselineOf sampleSteps) polls r₀ l' ∧
      (r₀ ≠ .error .running → ((∃ ms, r₀ = .error (.failed (.timeout ms))) ↔
        ∀ p ∈ polls, ∃ ms, p.result = .error (.timeout ms))) :=
  session_capture_warm sampleShared_session rfl sampleWarmEvents_ends

end Mug

end Tess

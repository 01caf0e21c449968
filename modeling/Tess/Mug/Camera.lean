import Mathlib.Data.List.Basic
import Tess.Effects.Traces

/-!
# Infrared frames

The camera delivers grey frames, and an emitter lights the scene. A liveness pair is a frame with
the emitter off and one with it on. The camera, the emitter, the clock and the two models are the
environment: they answer every call in any way. Times are in nanoseconds. This module follows
`mug/src/camera/mod.rs` and `mug/src/error.rs`; what it computes with numbers of a type `F` is in
the modules about liveness, alignment and matching.
-/

namespace Tess

namespace Mug

open Effects

variable {F : Type}

inductive MugError (F : Type) where
  | camera (what : String)
  | noIrNode
  | emitter (what : String)
  | timeout (ms : ℕ)
  | livenessRejected (reason : String)
  | matcherUnavailable (what : String)
  | noMatch (distance threshold : F)
  | insufficientFrames (captured required : ℕ)
  | notEnrolled
  | noFace
  | store (what : String)
  /-- An error of the store, with a text that shows the name as `{:?}` does. -/
  | invalidUsername (name : String)
  | invalidFrame (what : String)
  | io (what : String)

/-! ## Frames -/

/-- One byte a pixel, row after row. -/
structure IrFrame where
  width : ℕ
  height : ℕ
  data : List UInt8
  length_data : data.length = width * height
  deriving DecidableEq

def IrFrame.new (width height : ℕ) (data : List UInt8) : Except (MugError F) IrFrame :=
  if h : data.length = width * height then .ok ⟨width, height, data, h⟩
  else .error (.invalidFrame ("expected " ++ toString (width * height) ++ " bytes for " ++
    toString width ++ "x" ++ toString height ++ ", got " ++ toString data.length))

def IrFrame.dimensions (frame : IrFrame) : ℕ × ℕ := (frame.width, frame.height)

structure FramePair where
  emitterOff : IrFrame
  emitterOn : IrFrame
  dimensions_eq : emitterOff.dimensions = emitterOn.dimensions
  deriving DecidableEq

def FramePair.dimensions (pair : FramePair) : ℕ × ℕ := pair.emitterOff.dimensions

def showDimensions (d : ℕ × ℕ) : String :=
  "(" ++ toString d.1 ++ ", " ++ toString d.2 ++ ")"

def FramePair.new (off on : IrFrame) : Except (MugError F) FramePair :=
  if h : off.dimensions = on.dimensions then .ok ⟨off, on, h⟩
  else .error (.invalidFrame ("frame pair dimension mismatch: off " ++
    showDimensions off.dimensions ++ " vs on " ++ showDimensions on.dimensions))

theorem FramePair.new_ok_iff {off on : IrFrame} {pair : FramePair} :
    (FramePair.new off on : Except (MugError F) FramePair) = .ok pair ↔
      pair.emitterOff = off ∧ pair.emitterOn = on := by
  unfold FramePair.new
  split
  next h =>
    obtain ⟨off', on', h'⟩ := pair
    simp [eq_comm]
  next h =>
    refine ⟨nofun, ?_⟩
    rintro ⟨rfl, rfl⟩
    exact absurd pair.dimensions_eq h

/-! ## Detections -/

/-- The eyes, the nose and the corners of the mouth, from the left to the right of the image. -/
structure FaceLandmarks (F : Type) where
  points : Fin 5 → F × F

structure Detection (F : Type) where
  bbox : F × F × F × F
  landmarks : FaceLandmarks F
  score : F

/-! ## Calls -/

inductive Op where
  | capture (deadlineMs : ℕ)
  | setEnabled (on : Bool)
  | now
  | unixTime
  | detect (frame : IrFrame)
  | extract (frame : IrFrame)

/-- What the calls return. The time of day is in seconds, and there is none before 1970. -/
@[reducible] def Op.Res (F : Type) : Op → Type
  | .capture _ => Except (MugError F) IrFrame
  | .setEnabled _ => Except (MugError F) Unit
  | .now => ℕ
  | .unixTime => Option ℕ
  | .detect _ => Except (MugError F) (Detection F)
  | .extract _ => Except (MugError F) (List F)

abbrev Event (F : Type) := Answer (Op.Res F)

abbrev Io (F : Type) := ExceptT (Stop (MugError F)) (Prog (Op.Res F))

def capture (deadlineMs : ℕ) : Io F IrFrame := ask (.capture deadlineMs) (·.mapError .failed)

def setEnabled (on : Bool) : Io F Unit := ask (.setEnabled on) (·.mapError .failed)

def now : Io F ℕ := ask .now .ok

/-- Turn the emitter off, if that can be done. -/
def restoreOff : Io F Unit := ask (.setEnabled false) fun _ => .ok ()

def lift {α : Type} (x : Except (MugError F) α) : Io F α := ofResult (x.mapError .failed)

/-- What is left until the deadline, in milliseconds. -/
def remainingMs (deadline t : ℕ) : ℕ := (deadline - t) / 1000000

/-- A frame with the emitter off within half of the time, one with it on within the rest, and then
the emitter off again. -/
def captureLivenessPair (deadlineMs : ℕ) : Io F FramePair := do
  let start ← now
  let deadline := start + deadlineMs * 1000000
  setEnabled false
  let off ← capture (deadlineMs / 2)
  setEnabled true
  let t ← now
  let on ← capture (remainingMs deadline t)
  restoreOff
  lift (FramePair.new off on)

/-! ## What a run is judged by -/

/-- The commands to the emitter. -/
def commands (l : List (Event F)) : List Bool :=
  l.filterMap fun
    | ⟨.setEnabled on, _⟩ => some on
    | _ => none

/-- What the captures returned. -/
def captures (l : List (Event F)) : List (Except (MugError F) IrFrame) :=
  l.filterMap fun
    | ⟨.capture _, x⟩ => some x
    | _ => none

/-- The last command to the emitter was to turn off. -/
def LeftOff (l : List (Event F)) : Prop := (commands l).getLast? = some false

@[simp] theorem commands_append (l l' : List (Event F)) :
    commands (l ++ l') = commands l ++ commands l' := List.filterMap_append ..

@[simp] theorem captures_append (l l' : List (Event F)) :
    captures (l ++ l') = captures l ++ captures l' := List.filterMap_append ..

/-! ## The liveness pair -/

/-- The ends of `capture_liveness_pair`, by the call that was made last. -/
inductive PairRun (deadlineMs : ℕ) :
    Except (Stop (MugError F)) FramePair → List (Event F) → Prop
  | offRefused (t₀ : ℕ) (e : MugError F) :
      PairRun deadlineMs (.error (.failed e)) [⟨.now, t₀⟩, ⟨.setEnabled false, .error e⟩]
  | offMissed (t₀ : ℕ) (e : MugError F) :
      PairRun deadlineMs (.error (.failed e))
        [⟨.now, t₀⟩, ⟨.setEnabled false, .ok ()⟩, ⟨.capture (deadlineMs / 2), .error e⟩]
  | onRefused (t₀ : ℕ) (off : IrFrame) (e : MugError F) :
      PairRun deadlineMs (.error (.failed e))
        [⟨.now, t₀⟩, ⟨.setEnabled false, .ok ()⟩, ⟨.capture (deadlineMs / 2), .ok off⟩,
          ⟨.setEnabled true, .error e⟩]
  | onMissed (t₀ : ℕ) (off : IrFrame) (t : ℕ) (e : MugError F) :
      PairRun deadlineMs (.error (.failed e))
        [⟨.now, t₀⟩, ⟨.setEnabled false, .ok ()⟩, ⟨.capture (deadlineMs / 2), .ok off⟩,
          ⟨.setEnabled true, .ok ()⟩, ⟨.now, t⟩,
          ⟨.capture (remainingMs (t₀ + deadlineMs * 1000000) t), .error e⟩]
  | captured (t₀ : ℕ) (off : IrFrame) (t : ℕ) (on : IrFrame) (x : Except (MugError F) Unit) :
      PairRun deadlineMs ((FramePair.new off on).mapError .failed)
        [⟨.now, t₀⟩, ⟨.setEnabled false, .ok ()⟩, ⟨.capture (deadlineMs / 2), .ok off⟩,
          ⟨.setEnabled true, .ok ()⟩, ⟨.now, t⟩,
          ⟨.capture (remainingMs (t₀ + deadlineMs * 1000000) t), .ok on⟩, ⟨.setEnabled false, x⟩]

theorem mapError_cases {α : Type} {x : Except (MugError F) α} {r : Except (Stop (MugError F)) α}
    (h : x.mapError .failed = r) :
    (∃ e, x = .error e ∧ r = .error (.failed e)) ∨ ∃ a, x = .ok a ∧ r = .ok a := by
  subst h
  cases x with
  | error e => exact .inl ⟨e, rfl, rfl⟩
  | ok a => exact .inr ⟨a, rfl, rfl⟩

theorem mapError_failed_inj {α : Type} {x y : Except (MugError F) α}
    (h : x.mapError Stop.failed = y.mapError .failed) : x = y := by
  cases x <;> cases y <;> cases h <;> rfl

theorem ends_lift_bind_iff {α β : Type} {x : Except (MugError F) α} {g : α → Io F β}
    {r : Except (Stop (MugError F)) β} {l : List (Event F)} :
    Ends (lift x >>= g) r l ↔ (∃ e, x = .error e ∧ r = .error (.failed e) ∧ l = []) ∨
      ∃ a, x = .ok a ∧ Ends (g a) r l := by
  unfold lift
  rw [ends_ofResult_bind_iff]
  cases x <;> simp [Except.mapError]

theorem captureLivenessPair_run {deadlineMs : ℕ} {r : Except (Stop (MugError F)) FramePair}
    {l : List (Event F)} (h : Ends (captureLivenessPair deadlineMs) r l) :
    PairRun deadlineMs r l := by
  unfold captureLivenessPair now setEnabled capture restoreOff lift at h
  obtain ⟨t₀, l, rfl, ⟨_, ⟨⟩, -⟩ | ⟨_, ⟨⟩, h⟩⟩ := ends_ask_bind_iff.1 h
  obtain ⟨e | _, l, rfl, ⟨_, ⟨⟩, rfl, rfl⟩ | ⟨_, ⟨⟩, h⟩⟩ := ends_ask_bind_iff.1 h
  · exact .offRefused t₀ e
  obtain ⟨e | off, l, rfl, ⟨_, ⟨⟩, rfl, rfl⟩ | ⟨_, ⟨⟩, h⟩⟩ := ends_ask_bind_iff.1 h
  · exact .offMissed t₀ e
  obtain ⟨e | _, l, rfl, ⟨_, ⟨⟩, rfl, rfl⟩ | ⟨_, ⟨⟩, h⟩⟩ := ends_ask_bind_iff.1 h
  · exact .onRefused t₀ off e
  obtain ⟨t, l, rfl, ⟨_, ⟨⟩, -⟩ | ⟨_, ⟨⟩, h⟩⟩ := ends_ask_bind_iff.1 h
  obtain ⟨e | on, l, rfl, ⟨_, ⟨⟩, rfl, rfl⟩ | ⟨_, ⟨⟩, h⟩⟩ := ends_ask_bind_iff.1 h
  · exact .onMissed t₀ off t e
  obtain ⟨x, l, rfl, ⟨_, ⟨⟩, -⟩ | ⟨_, ⟨⟩, h⟩⟩ := ends_ask_bind_iff.1 h
  obtain ⟨rfl, rfl⟩ := ends_ofResult_iff.1 h
  exact .captured t₀ off t on x

/-- The calls of a pair that is captured. -/
def pairEvents (deadlineMs t₀ t : ℕ) (pair : FramePair) (x : Except (MugError F) Unit) :
    List (Event F) :=
  [⟨.now, t₀⟩, ⟨.setEnabled false, .ok ()⟩, ⟨.capture (deadlineMs / 2), .ok pair.emitterOff⟩,
    ⟨.setEnabled true, .ok ()⟩, ⟨.now, t⟩,
    ⟨.capture (remainingMs (t₀ + deadlineMs * 1000000) t), .ok pair.emitterOn⟩,
    ⟨.setEnabled false, x⟩]

theorem PairRun.ok {deadlineMs : ℕ} {pair : FramePair} {l : List (Event F)}
    (h : PairRun deadlineMs (.ok pair) l) : ∃ t₀ t x, l = pairEvents deadlineMs t₀ t pair x := by
  generalize hr : Except.ok pair = r at h
  cases h with
  | captured t₀ off t on x =>
    obtain ⟨rfl, rfl⟩ := FramePair.new_ok_iff.1 (mapError_eq_ok.1 hr.symm)
    exact ⟨t₀, t, x, rfl⟩
  | _ => cases hr

end Mug

end Tess

import Mathlib.Data.List.ReduceOption
import Mathlib.Tactic.Ring
import Tess.Lists.Selection
import Tess.Mug.Liveness

/-!
# Detection

The face detector puts a frame through a model, whose outputs hold for each cell of three grids two
scores, a box and the landmarks of a face. The boxes that overlap with one of a higher score are left
out, and the one with the highest score is the face. This module follows `mug/src/detect.rs`.

The definitions are over any numbers with the operations of `f32`, so that what does not depend on
how they round is proved without. A call that would read past the end of a slice has no result.
-/

namespace Tess

namespace Mug

/-- The operations of `f32`. The product commutes, and that is all that is asked of them. -/
class Scalar (F : Type) extends Add F, Sub F, Mul F, Div F, Max F, Min F, LE F, LT F where
  ofNat : ℕ → F
  sqrt : F → F
  exp : F → F
  isFinite : F → Bool
  mul_comm : ∀ x y : F, x * y = y * x

namespace Scalar

/-- Exact arithmetic, where every number is finite. -/
scoped instance exact {F : Type} [Field F] [LinearOrder F] [Elementary F] : Scalar F where
  ofNat n := n
  sqrt := Elementary.sqrt
  exp := Elementary.exp
  isFinite _ := true
  mul_comm := fun x y => by ring

end Scalar

variable {F : Type}

/-! ## Decoding -/

structure RawDet (F : Type) where
  x1 : F
  y1 : F
  w : F
  h : F
  lm : Fin 5 → F × F
  score : F

section Decode

variable [Scalar F] [DecidableLE F] [DecidableLT F]

open Scalar

def clampUnit (x : F) : F :=
  if x < ofNat 0 then ofNat 0 else if ofNat 1 < x then ofNat 1 else x

/-- The score of a cell, where it is not skipped for it. -/
def cellScore (scoreThresh a b : F) : Option F :=
  if !isFinite a || !isFinite b then none
  else
    let score := sqrt (clampUnit a * clampUnit b)
    if !isFinite score || score < scoreThresh then none else some score

omit [DecidableLE F] in
theorem cellScore_comm (scoreThresh a b : F) :
    cellScore scoreThresh a b = cellScore scoreThresh b a := by
  unfold cellScore
  rw [Bool.or_comm, Scalar.mul_comm]

/-- The landmarks of the cell, up to the first one that is not finite. -/
def decodeLandmarks (kps : List F) (idx r c : ℕ) (s : F) :
    List (Fin 5) → (Fin 5 → F × F) → Option (Option (Fin 5 → F × F))
  | [], lm => some (some lm)
  | n :: rest, lm => do
    let kx ← kps[idx * 10 + 2 * n.val]?
    let ky ← kps[idx * 10 + 2 * n.val + 1]?
    let lx := (ofNat c + kx) * s
    let ly := (ofNat r + ky) * s
    if !isFinite lx || !isFinite ly then return none
    decodeLandmarks kps idx r c s rest (Function.update lm n (lx, ly))

/-- The face of a cell with a score, where its box and its landmarks are finite. -/
def decodeFace (bbox kps : List F) (idx r c stride : ℕ) (score : F) :
    Option (Option (RawDet F)) := do
  let s := ofNat stride
  let bx ← bbox[idx * 4]?
  let bY ← bbox[idx * 4 + 1]?
  let bw ← bbox[idx * 4 + 2]?
  let bh ← bbox[idx * 4 + 3]?
  let cx := (ofNat c + bx) * s
  let cy := (ofNat r + bY) * s
  let w := exp bw * s
  let h := exp bh * s
  if !(isFinite cx && isFinite cy && isFinite w && isFinite h) || w ≤ ofNat 0 || h ≤ ofNat 0 then
    return none
  let lm? ← decodeLandmarks kps idx r c s (List.finRange 5) fun _ => (ofNat 0, ofNat 0)
  return lm?.map fun lm =>
    { x1 := cx - w / ofNat 2, y1 := cy - h / ofNat 2, w := w, h := h, lm := lm, score := score }

def decodeCell (scoreA scoreB bbox kps : List F) (cols stride : ℕ) (scoreThresh : F) (r c : ℕ) :
    Option (Option (RawDet F)) := do
  let idx := r * cols + c
  let a ← scoreA[idx]?
  let b ← scoreB[idx]?
  match cellScore scoreThresh a b with
  | none => return none
  | some score => decodeFace bbox kps idx r c stride score

/-- The cells of a grid, row after row. -/
def cells (cols rows : ℕ) : List (ℕ × ℕ) :=
  (List.range rows).flatMap fun r => (List.range cols).map fun c => (r, c)

/-- What a stride adds to the detections. -/
def decodeStride (scoreA scoreB bbox kps : List F) (cols rows stride : ℕ) (scoreThresh : F) :
    Option (List (RawDet F)) := do
  let found ← (cells cols rows).mapM fun p =>
    decodeCell scoreA scoreB bbox kps cols stride scoreThresh p.1 p.2
  return found.reduceOption

/-! ## Suppression -/

def iou (a b : RawDet F) : F :=
  let ax2 := a.x1 + a.w
  let ay2 := a.y1 + a.h
  let bx2 := b.x1 + b.w
  let by2 := b.y1 + b.h
  let ix1 := max a.x1 b.x1
  let iy1 := max a.y1 b.y1
  let ix2 := min ax2 bx2
  let iy2 := min ay2 by2
  let iw := max (ix2 - ix1) (ofNat 0)
  let ih := max (iy2 - iy1) (ofNat 0)
  let inter := iw * ih
  let union := a.w * a.h + b.w * b.h - inter
  if union ≤ ofNat 0 then ofNat 0 else inter / union

/-- Highest score first, in the order of the list where there are several. -/
def sortByScore (dets : List (RawDet F)) : List (RawDet F) :=
  dets.insertionSort fun a b => ¬ a.score < b.score

def nms (dets : List (RawDet F)) (iouThresh : F) : List (RawDet F) :=
  Lists.greedy (fun d k => iouThresh < iou d k) (sortByScore dets)

/-- The detection with the highest score of those that are kept. -/
def bestOf (raw : List (RawDet F)) (nmsIou : F) : Option (RawDet F) :=
  Lists.maxBy (fun a b => b.score < a.score) (nms raw nmsIou)

end Decode

/-! ## The model -/

/-- An output of the model. It has no data where it is not a plain tensor of `f32`. -/
structure Tensor (F : Type) where
  shape : List ℕ
  plain : Option (List F)

def Tensor.total (tensor : Tensor F) : ℕ := tensor.shape.prod

def Tensor.width (tensor : Tensor F) : ℕ := tensor.shape.getLastD 0

def Tensor.cells (tensor : Tensor F) : ℕ := tensor.total / tensor.width

/-- A model that was loaded, and what the engine makes of it. -/
structure OnnxModel (F : Type) where
  intoOptimized : Except String Unit
  inputFact : Except String (Option (List ℕ))
  intoRunnable : Except String Unit
  run : List F → Except String (List (Tensor F))

def strides : List ℕ := [8, 16, 32]

def maxInputElems : ℕ := 16 * 1024 * 1024

/-- An input that every stride tiles. -/
structure Geometry where
  channels : ℕ
  height : ℕ
  width : ℕ
  pos : 0 < channels * height * width
  le_cap : channels * height * width ≤ maxInputElems
  tiled : ∀ s ∈ strides, s ∣ height ∧ s ∣ width

structure YuNetDetector (F : Type) extends Geometry where
  run : List F → Except String (List (Tensor F))
  scoreThreshold : F
  nmsIou : F

/-- The geometry of an input shape, where the detector accepts it. -/
def Geometry.new : List ℕ → Except (MugError F) Geometry
  | [1, channels, height, width] =>
    if hpos : 0 < channels * height * width ∧ channels * height * width ≤ maxInputElems then
      match hs : strides.find? fun s => ¬ (s ∣ height ∧ s ∣ width) with
      | none => .ok ⟨channels, height, width, hpos.1, hpos.2, by simpa using hs⟩
      | some s => .error (.matcherUnavailable ("detector input " ++ toString height ++ "x" ++
          toString width ++ " is not divisible by stride " ++ toString s))
    else .error (.matcherUnavailable ("detector input [1, " ++ toString channels ++ ", " ++
      toString height ++ ", " ++ toString width ++ "] is zero-sized or exceeds the " ++
      toString maxInputElems ++ "-element cap"))
  | shape => .error (.matcherUnavailable
      ("expected detector NCHW input [1, C, H, W], got " ++ toString shape))

section Detector

variable [Scalar F]

open Scalar

def defaultScoreThreshold : F := ofNat 6 / ofNat 10

def defaultNmsIou : F := ofNat 3 / ofNat 10

def unavailable {α : Type} (what : String) (x : Except String α) : Except (MugError F) α :=
  x.mapError fun e => .matcherUnavailable (what ++ ": " ++ e)

def YuNetDetector.fromPath (modelForPath : String → Except String (OnnxModel F)) (path : String) :
    Except (MugError F) (YuNetDetector F) := do
  let model ← unavailable ("load detector model " ++ path) (modelForPath path)
  unavailable ("optimize detector model " ++ path) model.intoOptimized
  let fact ← unavailable "read detector input fact" model.inputFact
  let shape ← match fact with
    | some shape => .ok shape
    | none => .error (.matcherUnavailable
        "detector input shape is not concrete; supply a fixed-shape model")
  let geometry ← Geometry.new shape
  unavailable "make detector runnable" model.intoRunnable
  return {
    geometry with
    run := model.run
    scoreThreshold := defaultScoreThreshold
    nmsIou := defaultNmsIou }

def YuNetDetector.withScoreThreshold (d : YuNetDetector F) (t : F) : YuNetDetector F :=
  { d with scoreThreshold := t }

/-- The pixel of the frame that is nearest to a pixel of the input. -/
def Geometry.inputPixel (d : Geometry) (frame : IrFrame) (y x : ℕ) : Option F :=
  let sy := min (y * frame.height / d.height) (frame.height - 1)
  let sx := min (x * frame.width / d.width) (frame.width - 1)
  (frame.data[sy * frame.width + sx]?).map fun pixel => ofNat pixel.toNat

def Geometry.inputPlane (d : Geometry) (frame : IrFrame) : Option (List F) :=
  (cells d.width d.height).mapM fun p => d.inputPixel frame p.1 p.2

/-! ## Grouping -/

inductive Role where
  | score
  | box
  | kps
  deriving DecidableEq

/-- The role of a tensor, from its width for each cell. -/
def role : ℕ → Option Role
  | 1 => some .score
  | 4 => some .box
  | 10 => some .kps
  | _ => none

/-- The stride has this number of cells. -/
def Geometry.tiles (d : Geometry) (n s : ℕ) : Bool :=
  s ∣ d.height ∧ s ∣ d.width ∧ d.height / s * (d.width / s) = n

/-- The stride and the role of a tensor, where it has both. -/
def Geometry.place (d : Geometry) (tensor : Tensor F) : Option ((ℕ × Role) × List F) :=
  if tensor.width = 0 ∨ ¬ tensor.width ∣ tensor.total then none
  else do
    let s ← strides.find? (d.tiles tensor.cells)
    let data ← tensor.plain
    let role ← role tensor.width
    return ((s, role), data)

def Geometry.push (d : Geometry) (groups : ℕ × Role → List (List F)) (tensor : Tensor F) :
    ℕ × Role → List (List F) :=
  match d.place tensor with
  | none => groups
  | some (key, data) => Function.update groups key (groups key ++ [data])

/-- The data for each stride and role. -/
def Geometry.group (d : Geometry) (outputs : List (Tensor F)) : ℕ × Role → List (List F) :=
  outputs.foldl d.push fun _ => []

/-- The tensors of a stride of `n` cells. -/
structure StrideTensors (F : Type) (n : ℕ) where
  scoreA : List F
  scoreB : List F
  bbox : List F
  kps : List F
  length_scoreA : scoreA.length = n
  length_scoreB : scoreB.length = n
  length_bbox : bbox.length = n * 4
  length_kps : kps.length = n * 10

def single : List (List F) → Option (List F)
  | [a] => some a
  | _ => none

def pair : List (List F) → Option (List F × List F)
  | [a, b] => some (a, b)
  | _ => none

/-- The tensors of a stride, where there are exactly two scores, one box and one list of landmarks,
of the right lengths. -/
def strideTensors (groups : ℕ × Role → List (List F)) (n s : ℕ) : Option (StrideTensors F n) := do
  let scores ← pair (groups (s, .score))
  let bbox ← single (groups (s, .box))
  let kps ← single (groups (s, .kps))
  if h : scores.1.length = n ∧ scores.2.length = n ∧ bbox.length = n * 4 ∧ kps.length = n * 10 then
    some ⟨scores.1, scores.2, bbox, kps, h.1, h.2.1, h.2.2.1, h.2.2.2⟩
  else none

variable [DecidableLE F] [DecidableLT F]

def Geometry.decodeTensors (d : Geometry) (scoreThresh : F) (s : ℕ) {n : ℕ} (t : StrideTensors F n) :
    Option (List (RawDet F)) :=
  decodeStride t.scoreA t.scoreB t.bbox t.kps (d.width / s) (d.height / s) s scoreThresh

/-- The detections of a stride, and none where it is not complete. -/
def Geometry.decodeGroup (d : Geometry) (scoreThresh : F) (groups : ℕ × Role → List (List F)) (s : ℕ) :
    Option (Option (List (RawDet F))) :=
  match strideTensors groups (d.width / s * (d.height / s)) s with
  | none => some none
  | some t => (d.decodeTensors scoreThresh s t).map some

/-- The detections of all strides that are complete, of which there has to be one. -/
def Geometry.decode (d : Geometry) (scoreThresh : F) (outputs : List (Tensor F)) :
    Option (Except (MugError F) (List (RawDet F))) := do
  let found ← strides.mapM (d.decodeGroup scoreThresh (d.group outputs))
  if found.reduceOption = [] then
    return .error (.matcherUnavailable ("detector outputs do not match the expected YuNet tensor " ++
      "set (scores+bbox+landmarks per stride)"))
  return .ok found.reduceOption.flatten

def Geometry.decodeRun (d : Geometry) (scoreThresh : F) (result : Except String (List (Tensor F))) :
    Option (Except (MugError F) (List (RawDet F))) :=
  match unavailable "run detector" result with
  | .error e => some (.error e)
  | .ok outputs => d.decode scoreThresh outputs

/-- What the model finds in a frame. -/
def YuNetDetector.decodeFrame (d : YuNetDetector F) (frame : IrFrame) :
    Option (Except (MugError F) (List (RawDet F))) := do
  if frame.width = 0 ∨ frame.height = 0 then return .error (.invalidFrame "empty frame")
  let plane ← d.inputPlane frame
  d.decodeRun d.scoreThreshold (d.run (List.replicate d.channels plane).flatten)

/-- The detection in the coordinates of the frame. -/
def YuNetDetector.toSource (d : YuNetDetector F) (frame : IrFrame) (best : RawDet F) :
    Detection F :=
  let kx := ofNat frame.width / ofNat d.width
  let ky := ofNat frame.height / ofNat d.height
  { bbox := (best.x1 * kx, best.y1 * ky, best.w * kx, best.h * ky)
    landmarks := ⟨fun i => ((best.lm i).1 * kx, (best.lm i).2 * ky)⟩
    score := best.score }

def YuNetDetector.pick (d : YuNetDetector F) (frame : IrFrame) (raw : List (RawDet F)) :
    Except (MugError F) (Detection F) :=
  match bestOf raw d.nmsIou with
  | none => .error .noFace
  | some best => .ok (d.toSource frame best)

def YuNetDetector.detect (d : YuNetDetector F) (frame : IrFrame) :
    Option (Except (MugError F) (Detection F)) :=
  (d.decodeFrame frame).map fun raw => raw.bind (d.pick frame)

end Detector

end Mug

end Tess

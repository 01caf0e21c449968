import Mathlib.Data.List.Permutation
import Mathlib.Data.Multiset.Defs
import Tess.Mug.Align
import Tess.Mug.Detect
import Tess.Mug.Gate

/-!
# The face of a frame

No slice is read past its end, the order of the outputs of the model does not matter, and in exact
arithmetic the face has the highest score of all that were decoded.
-/

namespace Tess

namespace Mug

variable {F : Type}

/-! ## No read is out of range -/

theorem mapM_some {α β : Type} {f : α → Option β} {l : List α} (h : ∀ a ∈ l, ∃ b, f a = some b) :
    ∃ bs, l.mapM f = some bs := by
  induction l with
  | nil => exact ⟨[], rfl⟩
  | cons a l ih =>
    obtain ⟨b, hb⟩ := h a List.mem_cons_self
    obtain ⟨bs, hbs⟩ := ih fun x hx => h x (List.mem_cons_of_mem a hx)
    exact ⟨b :: bs, by simp [List.mapM_cons, hb, hbs]⟩

theorem mem_cells {cols rows r c : ℕ} : (r, c) ∈ cells cols rows ↔ r < rows ∧ c < cols := by
  simp [cells]

theorem cell_lt {cols rows r c : ℕ} (hr : r < rows) (hc : c < cols) :
    r * cols + c < cols * rows := by
  calc r * cols + c < r * cols + cols := Nat.add_lt_add_left hc _
    _ = (r + 1) * cols := (Nat.succ_mul r cols).symm
    _ ≤ rows * cols := Nat.mul_le_mul_right cols hr
    _ = cols * rows := Nat.mul_comm rows cols

section Range

variable [Scalar F]

theorem decodeLandmarks_some {kps : List F} {idx : ℕ} (h : idx * 10 + 10 ≤ kps.length) (r c : ℕ)
    (s : F) (l : List (Fin 5)) (lm : Fin 5 → F × F) :
    ∃ x, decodeLandmarks kps idx r c s l lm = some x := by
  induction l generalizing lm with
  | nil => exact ⟨some lm, rfl⟩
  | cons n rest ih =>
    have hx : idx * 10 + 2 * n.val < kps.length := by omega
    have hy : idx * 10 + 2 * n.val + 1 < kps.length := by omega
    simp only [decodeLandmarks, List.getElem?_eq_getElem hx, List.getElem?_eq_getElem hy,
      Option.bind_eq_bind, Option.bind_some]
    split
    · exact ⟨none, rfl⟩
    · exact ih _

/-- The pixels that the input is read from are pixels of the frame. -/
theorem Geometry.inputPlane_some (d : Geometry) {frame : IrFrame} (hw : frame.width ≠ 0)
    (hh : frame.height ≠ 0) : ∃ plane : List F, d.inputPlane frame = some plane := by
  apply mapM_some
  intro p _
  have hrow : min (p.1 * frame.height / d.height) (frame.height - 1) < frame.height := by omega
  have hcol : min (p.2 * frame.width / d.width) (frame.width - 1) < frame.width := by omega
  have hread := cell_lt hrow hcol
  rw [← frame.length_data] at hread
  simp only [inputPixel, List.getElem?_eq_getElem hread, Option.map_some]
  exact ⟨_, rfl⟩

variable [DecidableLE F] [DecidableLT F]

omit [DecidableLT F] in
theorem decodeFace_some {bbox kps : List F} {idx : ℕ} (hbox : idx * 4 + 4 ≤ bbox.length)
    (hkps : idx * 10 + 10 ≤ kps.length) (r c stride : ℕ) (score : F) :
    ∃ x, decodeFace bbox kps idx r c stride score = some x := by
  have h0 : idx * 4 < bbox.length := by omega
  have h1 : idx * 4 + 1 < bbox.length := by omega
  have h2 : idx * 4 + 2 < bbox.length := by omega
  have h3 : idx * 4 + 3 < bbox.length := by omega
  simp only [decodeFace, List.getElem?_eq_getElem h0, List.getElem?_eq_getElem h1,
    List.getElem?_eq_getElem h2, List.getElem?_eq_getElem h3, Option.bind_eq_bind, Option.bind_some]
  split
  · exact ⟨none, rfl⟩
  · obtain ⟨lm, hlm⟩ := decodeLandmarks_some hkps r c (Scalar.ofNat stride) (List.finRange 5)
      fun _ => (Scalar.ofNat 0, Scalar.ofNat 0)
    exact ⟨_, by rw [hlm]; rfl⟩

variable {scoreA scoreB bbox kps : List F} {cols rows : ℕ}

/-- **Every index of a stride is in range** of slices of the lengths that are checked. -/
theorem decodeStride_some (ha : scoreA.length = cols * rows) (hb : scoreB.length = cols * rows)
    (hbox : bbox.length = cols * rows * 4) (hkps : kps.length = cols * rows * 10) (stride : ℕ)
    (scoreThresh : F) :
    ∃ dets, decodeStride scoreA scoreB bbox kps cols rows stride scoreThresh = some dets := by
  have hcells : ∃ found, (cells cols rows).mapM (fun p =>
      decodeCell scoreA scoreB bbox kps cols stride scoreThresh p.1 p.2) = some found := by
    apply mapM_some
    intro ⟨r, c⟩ hp
    obtain ⟨hr, hc⟩ := mem_cells.1 hp
    have hidx : r * cols + c < cols * rows := cell_lt hr hc
    have hreadA : r * cols + c < scoreA.length := by omega
    have hreadB : r * cols + c < scoreB.length := by omega
    simp only [decodeCell, List.getElem?_eq_getElem hreadA, List.getElem?_eq_getElem hreadB,
      Option.bind_eq_bind, Option.bind_some]
    split
    · exact ⟨none, rfl⟩
    · exact decodeFace_some (by omega) (by omega) r c stride _
  obtain ⟨found, hfound⟩ := hcells
  exact ⟨found.reduceOption, by simp [decodeStride, hfound]⟩

theorem Geometry.decodeGroup_some (d : Geometry) (scoreThresh : F) (groups : ℕ × Role → List (List F))
    (s : ℕ) : ∃ x, d.decodeGroup scoreThresh groups s = some x := by
  unfold decodeGroup
  cases strideTensors groups (d.width / s * (d.height / s)) s with
  | none => exact ⟨none, rfl⟩
  | some t =>
    obtain ⟨dets, hdets⟩ := decodeStride_some t.length_scoreA t.length_scoreB t.length_bbox
      t.length_kps s scoreThresh
    exact ⟨some dets, by simp only [decodeTensors, hdets, Option.map_some]⟩

theorem Geometry.decode_some (d : Geometry) (scoreThresh : F) (outputs : List (Tensor F)) :
    ∃ x, d.decode scoreThresh outputs = some x := by
  obtain ⟨found, hfound⟩ : ∃ found, strides.mapM (d.decodeGroup scoreThresh (d.group outputs)) = some found :=
    mapM_some fun s _ => d.decodeGroup_some scoreThresh _ s
  unfold decode
  simp only [hfound, Option.bind_eq_bind, Option.bind_some]
  split
  · exact ⟨_, rfl⟩
  · exact ⟨_, rfl⟩

theorem Geometry.decodeRun_some (d : Geometry) (scoreThresh : F)
    (result : Except String (List (Tensor F))) : ∃ x, d.decodeRun scoreThresh result = some x := by
  cases result with
  | error e => exact ⟨_, rfl⟩
  | ok outputs => exact d.decode_some scoreThresh outputs

/-- **No read is out of range**, whatever the model returns. -/
theorem YuNetDetector.decodeFrame_some (d : YuNetDetector F) (frame : IrFrame) :
    ∃ x, d.decodeFrame frame = some x := by
  unfold decodeFrame
  by_cases hempty : frame.width = 0 ∨ frame.height = 0
  · exact ⟨.error (.invalidFrame "empty frame"), if_pos hempty⟩
  obtain ⟨hw, hh⟩ := not_or.1 hempty
  obtain ⟨plane, hplane⟩ := d.inputPlane_some (F := F) hw hh
  rw [if_neg hempty, hplane]
  exact d.decodeRun_some d.scoreThreshold _

end Range

/-! ## The order of the outputs -/

/-- **A stride is the only one with its number of cells.** -/
theorem Geometry.tiles_inj (d : Geometry) {n s t : ℕ} (hs : d.tiles n s = true)
    (ht : d.tiles n t = true) : s = t := by
  have hcells : ∀ s, d.tiles n s = true → n * (s * s) = d.height * d.width := by
    intro s hs
    obtain ⟨hheight, hwidth, rfl⟩ := of_decide_eq_true hs
    rw [Nat.mul_mul_mul_comm, Nat.div_mul_cancel hheight, Nat.div_mul_cancel hwidth]
  have hpos : 0 < n := by
    refine Nat.pos_of_ne_zero fun hzero => ?_
    have harea : d.height * d.width = 0 := by rw [← hcells s hs, hzero, Nat.zero_mul]
    have hpos := d.pos
    rw [Nat.mul_assoc, harea] at hpos
    exact absurd hpos (lt_irrefl _)
  exact Nat.mul_self_inj.1 (Nat.eq_of_mul_eq_mul_left hpos ((hcells s hs).trans (hcells t ht).symm))

section Order

theorem single_perm {l l' : List (List F)} (h : l.Perm l') : single l = single l' := by
  unfold single
  split
  next a => rw [List.perm_singleton.1 h.symm]
  next hl =>
    split
    next a => exact absurd (List.perm_singleton.1 h) (hl a)
    next => rfl

theorem length_of_pair {l : List (List F)} {p : List F × List F} (h : pair l = some p) :
    l = [p.1, p.2] := by
  unfold pair at h
  split at h
  · obtain rfl := Option.some.inj h
    rfl
  · cases h

/-- The two scores of a stride are swapped, or they are not. -/
theorem pair_perm {l l' : List (List F)} (h : l.Perm l') :
    pair l = pair l' ∨ ∃ a b, pair l = some (a, b) ∧ pair l' = some (b, a) := by
  cases hpair : pair l with
  | some p =>
    obtain rfl := length_of_pair hpair
    obtain rfl | rfl := List.pair_perm.1 h
    · exact .inl rfl
    · exact .inr ⟨p.1, p.2, rfl, rfl⟩
  | none =>
    cases hpair' : pair l' with
    | none => exact .inl rfl
    | some p =>
      obtain rfl := length_of_pair hpair'
      obtain rfl | rfl := List.perm_pair.1 h
      · cases hpair
      · cases hpair

def StrideTensors.swap {n : ℕ} (t : StrideTensors F n) : StrideTensors F n where
  scoreA := t.scoreB
  scoreB := t.scoreA
  bbox := t.bbox
  kps := t.kps
  length_scoreA := t.length_scoreB
  length_scoreB := t.length_scoreA
  length_bbox := t.length_bbox
  length_kps := t.length_kps

theorem strideTensors_perm {groups groups' : ℕ × Role → List (List F)}
    (h : ∀ key, (groups key).Perm (groups' key)) (n s : ℕ) :
    strideTensors groups n s = strideTensors groups' n s ∨
      strideTensors groups' n s = (strideTensors groups n s).map .swap := by
  unfold strideTensors
  rw [single_perm (h (s, .box)), single_perm (h (s, .kps))]
  obtain hpair | ⟨a, b, hpair, hpair'⟩ := pair_perm (h (s, .score))
  · exact .inl (by rw [hpair])
  · refine .inr ?_
    rw [hpair, hpair']
    cases single (groups' (s, .box)) with
    | none => rfl
    | some bbox =>
      cases single (groups' (s, .kps)) with
      | none => rfl
      | some kps =>
        by_cases hlen : a.length = n ∧ b.length = n ∧ bbox.length = n * 4 ∧ kps.length = n * 10
        · simp [hlen, StrideTensors.swap]
        · have hlen' : ¬ (b.length = n ∧ a.length = n ∧ bbox.length = n * 4 ∧
              kps.length = n * 10) := fun h => hlen ⟨h.2.1, h.1, h.2.2⟩
          simp [hlen, hlen']

/-- What a tensor adds to the data for a stride and a role. -/
def Geometry.entry (d : Geometry) (key : ℕ × Role) (tensor : Tensor F) : Option (List F) :=
  (d.place tensor).bind fun p => if p.1 = key then some p.2 else none

theorem Geometry.push_apply (d : Geometry) (groups : ℕ × Role → List (List F)) (tensor : Tensor F)
    (key : ℕ × Role) : d.push groups tensor key = groups key ++ (d.entry key tensor).toList := by
  unfold push entry
  cases d.place tensor with
  | none => simp
  | some p =>
    by_cases hkey : p.1 = key
    · subst hkey
      simp
    · simp [hkey, Function.update_of_ne (Ne.symm hkey)]

/-- **The data for a stride and a role**, in the order of the outputs. -/
theorem Geometry.group_apply (d : Geometry) (outputs : List (Tensor F)) (key : ℕ × Role) :
    d.group outputs key = outputs.filterMap (d.entry key) := by
  have hfrom : ∀ groups, outputs.foldl d.push groups key =
      groups key ++ outputs.filterMap (d.entry key) := by
    induction outputs with
    | nil => simp
    | cons tensor outputs ih =>
      intro groups
      rw [List.foldl_cons, ih, d.push_apply]
      cases h : d.entry key tensor <;> simp [h]
  exact hfrom fun _ => []

theorem Geometry.place_tiles {d : Geometry} {tensor : Tensor F} {key : ℕ × Role} {data : List F}
    (h : d.place tensor = some (key, data)) : d.tiles tensor.cells key.1 = true := by
  unfold place at h
  split at h
  · cases h
  · obtain ⟨s, hs, h⟩ := Option.bind_eq_some_iff.1 h
    obtain ⟨_, _, h⟩ := Option.bind_eq_some_iff.1 h
    obtain ⟨role, _, h⟩ := Option.bind_eq_some_iff.1 h
    obtain ⟨rfl, -⟩ := Prod.mk.inj (Option.some.inj h)
    exact List.find?_some hs

variable [Scalar F] [DecidableLE F] [DecidableLT F]

theorem decodeCell_comm (scoreA scoreB bbox kps : List F) (cols stride : ℕ) (scoreThresh : F)
    (r c : ℕ) : decodeCell scoreA scoreB bbox kps cols stride scoreThresh r c =
      decodeCell scoreB scoreA bbox kps cols stride scoreThresh r c := by
  simp only [decodeCell, Option.bind_eq_bind]
  rw [Option.bind_comm]
  refine congrArg _ (funext fun b => congrArg _ (funext fun a => ?_))
  rw [cellScore_comm]

theorem Geometry.decodeTensors_swap (d : Geometry) (scoreThresh : F) (s : ℕ) {n : ℕ}
    (t : StrideTensors F n) : d.decodeTensors scoreThresh s t.swap = d.decodeTensors scoreThresh s t := by
  unfold decodeTensors decodeStride
  simp only [StrideTensors.swap, decodeCell_comm t.scoreB t.scoreA]

theorem Geometry.decodeGroup_perm (d : Geometry) (scoreThresh : F)
    {groups groups' : ℕ × Role → List (List F)} (h : ∀ key, (groups key).Perm (groups' key))
    (s : ℕ) : d.decodeGroup scoreThresh groups s = d.decodeGroup scoreThresh groups' s := by
  unfold decodeGroup
  obtain heq | hswap := strideTensors_perm h (d.width / s * (d.height / s)) s
  · rw [heq]
  · rw [hswap]
    cases strideTensors groups (d.width / s * (d.height / s)) s with
    | none => rfl
    | some t => simp only [Option.map_some, d.decodeTensors_swap scoreThresh]

theorem Geometry.decode_perm (d : Geometry) (scoreThresh : F) {outputs outputs' : List (Tensor F)}
    (h : outputs.Perm outputs') : d.decode scoreThresh outputs = d.decode scoreThresh outputs' := by
  have hgroup : ∀ key, (d.group outputs key).Perm (d.group outputs' key) := by
    intro key
    rw [d.group_apply, d.group_apply]
    exact h.filterMap _
  unfold decode
  rw [funext (d.decodeGroup_perm scoreThresh hgroup)]

theorem Geometry.decodeRun_perm (d : Geometry) (scoreThresh : F)
    {result result' : Except String (List (Tensor F))}
    (h : result.map Multiset.ofList = result'.map Multiset.ofList) :
    d.decodeRun scoreThresh result = d.decodeRun scoreThresh result' := by
  cases result with
  | error e =>
    cases result' with
    | error e' => rw [Except.error.inj h]
    | ok outputs' => cases h
  | ok outputs =>
    cases result' with
    | error e' => cases h
    | ok outputs' => exact d.decode_perm scoreThresh (Multiset.coe_eq_coe.1 (Except.ok.inj h))

/-- **The order of the outputs does not matter**, no read is out of range, and no tensor could be of
two strides. -/
theorem YuNetDetector.detect_reordered (d : YuNetDetector F)
    {run' : List F → Except String (List (Tensor F))}
    (h : ∀ input, (run' input).map Multiset.ofList = (d.run input).map Multiset.ofList)
    (frame : IrFrame) :
    { d with run := run' }.detect frame = d.detect frame ∧ (∃ x, d.detect frame = some x) ∧
      ∀ (tensor : Tensor F) key data, d.place tensor = some (key, data) →
        ∀ s, d.tiles tensor.cells s = true ↔ s = key.1 := by
  refine ⟨?_, ?_, ?_⟩
  · have hframe : { d with run := run' }.decodeFrame frame = d.decodeFrame frame := by
      unfold decodeFrame
      simp only [d.decodeRun_perm d.scoreThreshold (h _)]
    unfold detect
    rw [hframe]
    rfl
  · obtain ⟨x, hx⟩ := d.decodeFrame_some frame
    exact ⟨_, by rw [detect, hx, Option.map_some]⟩
  · intro tensor key data hplace s
    have hkey := Geometry.place_tiles hplace
    constructor
    · intro hs
      exact d.tiles_inj hs hkey
    · rintro rfl
      exact hkey

end Order

open scoped Scalar

def sampleScore (x : ℝ) : Tensor ℝ := ⟨[1, 1, 1], some [x]⟩

def sampleBox : Tensor ℝ := ⟨[1, 1, 4], some [0, 0, 0, 0]⟩

def sampleKps : Tensor ℝ := ⟨[1, 1, 10], some [0, 0, 0, 0, 0, 0, 0, 0, 0, 0]⟩

def sampleOutputs : List (Tensor ℝ) := [sampleScore 1, sampleScore 0, sampleBox, sampleKps]

/-- The model has one cell, at the stride of 32. -/
noncomputable def sampleDetector : YuNetDetector ℝ where
  channels := 3
  height := 32
  width := 32
  pos := by decide
  le_cap := by decide
  tiled := by decide
  run _ := .ok sampleOutputs
  scoreThreshold := defaultScoreThreshold
  nmsIou := defaultNmsIou

theorem YuNetDetector.detect_reordered_sample :
    { sampleDetector with run := fun _ => .ok sampleOutputs.reverse }.detect sampleFrame =
        sampleDetector.detect sampleFrame ∧
      (∃ x, sampleDetector.detect sampleFrame = some x) ∧
      ∀ (tensor : Tensor ℝ) key data, sampleDetector.place tensor = some (key, data) →
        ∀ s, sampleDetector.tiles tensor.cells s = true ↔ s = key.1 := by
  have hreverse : sampleOutputs.reverse.Perm sampleOutputs := List.reverse_perm sampleOutputs
  have hrun : ∀ input, (Except.ok sampleOutputs.reverse : Except String _).map Multiset.ofList =
      (sampleDetector.run input).map Multiset.ofList :=
    fun input => congrArg Except.ok (Multiset.coe_eq_coe.2 hreverse)
  exact sampleDetector.detect_reordered hrun sampleFrame

/-! ## The face with the highest score -/

section Best

variable [Field F] [LinearOrder F] [Elementary F]

theorem iou_comm (a b : RawDet F) : iou a b = iou b a := by
  unfold iou
  simp only [max_comm a.x1, max_comm a.y1, min_comm (a.x1 + a.w), min_comm (a.y1 + a.h),
    add_comm (a.w * a.h)]

theorem sortByScore_perm (dets : List (RawDet F)) : (sortByScore dets).Perm dets :=
  List.perm_insertionSort _ dets

theorem sortByScore_pairwise (dets : List (RawDet F)) :
    (sortByScore dets).Pairwise fun a b => b.score ≤ a.score := by
  let r : RawDet F → RawDet F → Prop := fun a b => ¬ a.score < b.score
  have htotal : Std.Total r := ⟨fun a b => by
    simp only [r, not_lt]
    exact le_total b.score a.score⟩
  have htrans : IsTrans (RawDet F) r := ⟨fun a b c hab hbc => by
    simp only [r, not_lt] at hab hbc ⊢
    exact hbc.trans hab⟩
  have hsorted := List.pairwise_insertionSort r dets
  exact hsorted.imp fun h => not_lt.1 h

/-- Of the detections, those that are kept have small overlaps, and each one that is not has a large
overlap with one of them that has no lower score. -/
structure Suppressed (dets : List (RawDet F)) (iouThresh : F) (kept : List (RawDet F)) : Prop where
  sublist : List.Sublist kept (sortByScore dets)
  pairwise : kept.Pairwise fun a b => iou a b ≤ iouThresh
  dropped : ∃ dropped, (kept ++ dropped).Perm dets ∧
    ∀ d ∈ dropped, ∃ k ∈ kept, iouThresh < iou d k ∧ d.score ≤ k.score

theorem nms_suppressed (dets : List (RawDet F)) (iouThresh : F) :
    Suppressed dets iouThresh (nms dets iouThresh) where
  sublist := Lists.greedy_sublist _
  pairwise := by
    refine (Lists.greedy_pairwise (sortByScore dets)).imp fun {a b} h => ?_
    rw [iou_comm]
    exact not_lt.1 (of_decide_eq_false h)
  dropped := by
    obtain ⟨dropped, hperm, hdropped⟩ := Lists.greedy_dropped (sortByScore_pairwise dets)
    refine ⟨dropped, hperm.trans (sortByScore_perm dets), ?_⟩
    intro d hd
    obtain ⟨k, hk, hclash, hscore⟩ := hdropped d hd
    exact ⟨k, hk, of_decide_eq_true hclash, hscore⟩

/-- The best of the detections that are kept has the highest score of all. -/
theorem Suppressed.score_le {dets kept : List (RawDet F)} {iouThresh : F}
    (h : Suppressed dets iouThresh kept) {best : RawDet F} (hbest : ∀ k ∈ kept, k.score ≤ best.score)
    {x : RawDet F} (hx : x ∈ dets) : x.score ≤ best.score := by
  obtain ⟨dropped, hperm, hdropped⟩ := h.dropped
  obtain hkept | hx := List.mem_append.1 (hperm.mem_iff.2 hx)
  · exact hbest x hkept
  · obtain ⟨k, hk, -, hscore⟩ := hdropped x hx
    exact hscore.trans (hbest k hk)

theorem Suppressed.subset {dets kept : List (RawDet F)} {iouThresh : F}
    (h : Suppressed dets iouThresh kept) : kept ⊆ dets := by
  obtain ⟨dropped, hperm, -⟩ := h.dropped
  intro k hk
  exact hperm.mem_iff.1 (List.mem_append_left dropped hk)

theorem bestOf_eq_none_iff {raw : List (RawDet F)} (nmsIou : F) :
    bestOf raw nmsIou = none ↔ raw = [] := by
  unfold bestOf
  rw [Lists.maxBy_eq_none_iff]
  constructor
  · intro hnil
    obtain ⟨dropped, hperm, hdropped⟩ := (nms_suppressed raw nmsIou).dropped
    rw [hnil] at hperm hdropped
    cases dropped with
    | nil => exact hperm.nil_eq.symm
    | cons d dropped =>
      obtain ⟨k, hk, -⟩ := hdropped d List.mem_cons_self
      cases hk
  · rintro rfl
    rfl

theorem bestOf_eq_some {raw : List (RawDet F)} {nmsIou : F} {best : RawDet F}
    (h : bestOf raw nmsIou = some best) : best ∈ raw ∧ ∀ x ∈ raw, x.score ≤ best.score := by
  have hkey : ∀ x y : RawDet F, decide (y.score < x.score) = true ↔ y.score < x.score :=
    fun _ _ => decide_eq_true_iff
  obtain ⟨hmem, hmax⟩ := Lists.maxBy_eq_some hkey h
  have hkept := nms_suppressed raw nmsIou
  exact ⟨hkept.subset hmem, fun x hx => hkept.score_le hmax hx⟩

theorem decodeRun_ne_noFace (d : Geometry) (scoreThresh : F)
    (result : Except String (List (Tensor F))) :
    d.decodeRun scoreThresh result ≠ some (.error .noFace) := by
  cases result with
  | error e => nofun
  | ok outputs =>
    change d.decode scoreThresh outputs ≠ some (.error .noFace)
    intro h
    unfold Geometry.decode at h
    obtain ⟨found, -, h⟩ := Option.bind_eq_some_iff.1 h
    split at h
    · cases h
    · cases h

/-- Where there is no face, the model found none. -/
theorem decodeFrame_ne_noFace (d : YuNetDetector F) (frame : IrFrame) :
    d.decodeFrame frame ≠ some (.error .noFace) := by
  intro h
  unfold YuNetDetector.decodeFrame at h
  split at h
  · cases h
  · obtain ⟨plane, -, h⟩ := Option.bind_eq_some_iff.1 h
    exact decodeRun_ne_noFace d.toGeometry d.scoreThreshold _ h

theorem pick_eq_noFace_iff (d : YuNetDetector F) (frame : IrFrame) {raw : List (RawDet F)} :
    d.pick frame raw = .error .noFace ↔ raw = [] := by
  rw [← bestOf_eq_none_iff d.nmsIou]
  unfold YuNetDetector.pick
  cases bestOf raw d.nmsIou <;> simp

theorem pick_eq_ok_iff {d : YuNetDetector F} {frame : IrFrame} {raw : List (RawDet F)}
    {det : Detection F} : d.pick frame raw = .ok det ↔
      ∃ best, bestOf raw d.nmsIou = some best ∧ det = d.toSource frame best := by
  unfold YuNetDetector.pick
  cases bestOf raw d.nmsIou <;> simp [eq_comm]

theorem detect_eq_noFace_iff (d : YuNetDetector F) (frame : IrFrame) :
    d.detect frame = some (.error .noFace) ↔ d.decodeFrame frame = some (.ok []) := by
  unfold YuNetDetector.detect
  rw [Option.map_eq_some_iff]
  constructor
  · intro ⟨result, hresult, hpick⟩
    cases result with
    | error e =>
      obtain rfl := Except.error.inj hpick
      exact absurd hresult (decodeFrame_ne_noFace d frame)
    | ok raw => rw [hresult, (pick_eq_noFace_iff d frame).1 hpick]
  · intro hresult
    exact ⟨.ok [], hresult, (pick_eq_noFace_iff d frame).2 rfl⟩

theorem detect_eq_ok_iff (d : YuNetDetector F) (frame : IrFrame) (det : Detection F) :
    d.detect frame = some (.ok det) ↔ ∃ raw best, d.decodeFrame frame = some (.ok raw) ∧
      bestOf raw d.nmsIou = some best ∧ det = d.toSource frame best := by
  unfold YuNetDetector.detect
  rw [Option.map_eq_some_iff]
  constructor
  · intro ⟨result, hresult, hpick⟩
    cases result with
    | error e => cases hpick
    | ok raw =>
      obtain ⟨best, hbest, hdet⟩ := pick_eq_ok_iff.1 hpick
      exact ⟨raw, best, hresult, hbest, hdet⟩
  · intro ⟨raw, best, hresult, hbest, hdet⟩
    exact ⟨.ok raw, hresult, pick_eq_ok_iff.2 ⟨best, hbest, hdet⟩⟩

/-- **The face is the detection with the highest score**: suppression keeps one for each that it
drops, and there is no face only where nothing was decoded. -/
theorem nms_detect_best :
    (∀ (dets : List (RawDet F)) (iouThresh : F), Suppressed dets iouThresh (nms dets iouThresh)) ∧
      ∀ (d : YuNetDetector F) (frame : IrFrame),
        (d.detect frame = some (.error .noFace) ↔ d.decodeFrame frame = some (.ok [])) ∧
        ∀ det, d.detect frame = some (.ok det) → ∃ raw best,
          d.decodeFrame frame = some (.ok raw) ∧ best ∈ raw ∧ (∀ x ∈ raw, x.score ≤ best.score) ∧
          det = d.toSource frame best := by
  refine ⟨nms_suppressed, fun d frame => ⟨detect_eq_noFace_iff d frame, ?_⟩⟩
  intro det hdet
  obtain ⟨raw, best, hraw, hbest, rfl⟩ := (detect_eq_ok_iff d frame det).1 hdet
  obtain ⟨hmem, hmax⟩ := bestOf_eq_some hbest
  exact ⟨raw, best, hraw, hmem, hmax, rfl⟩

end Best

end Mug

end Tess

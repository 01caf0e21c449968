import Mathlib.Geometry.Euclidean.Angle.Unoriented.Basic
import Mathlib.Analysis.InnerProductSpace.PiL2
import Tess.Effects.Related
import Tess.Mug.Agreement

/-!
# Distances as angles

In exact arithmetic the distance of two embeddings is `1 - cos θ`, where `θ` is the angle between
them: the clamp does nothing. It does not depend on how long they are as vectors, so that raw
embeddings and normalized ones are the same to the gate.
-/

namespace Tess

namespace Mug

open Effects InnerProductGeometry

/-! ## Embeddings as vectors -/

/-- The first entries of an embedding as a vector. -/
noncomputable def vec (n : ℕ) (e : List ℝ) : EuclideanSpace ℝ (Fin n) :=
  WithLp.toLp _ fun i => e.getD i 0

section Vectors

variable {n : ℕ} {a b : List ℝ}

theorem sum_getD_mul_getD (hab : a.length = b.length) :
    ∑ i : Fin a.length, a.getD i 0 * b.getD i 0 = (List.zipWith (· * ·) a b).sum := by
  induction a generalizing b with
  | nil => rfl
  | cons x a ih =>
    cases b with
    | nil => cases hab
    | cons y b =>
      have hrest := ih (Nat.succ.inj hab)
      rw [List.zipWith_cons_cons, List.sum_cons, ← hrest]
      exact Fin.sum_univ_succ _

theorem inner_vec (ha : a.length = n) (hb : b.length = n) :
    inner ℝ (vec n a) (vec n b) = (List.zipWith (· * ·) a b).sum := by
  subst ha
  rw [← sum_getD_mul_getD hb.symm, PiLp.inner_apply]
  exact Finset.sum_congr rfl fun i _ => mul_comm _ _

theorem norm_vec (ha : a.length = n) : ‖vec n a‖ = Real.sqrt (a.map fun x => x * x).sum := by
  rw [norm_eq_sqrt_real_inner, inner_vec ha ha, List.zipWith_self]

theorem vec_map_mul (e : List ℝ) (r : ℝ) : vec n (e.map (r * ·)) = r • vec n e := by
  ext i
  change (e.map (r * ·)).getD i 0 = r * e.getD i 0
  rw [List.getD_eq_getElem?_getD, List.getD_eq_getElem?_getD, List.getElem?_map]
  cases e[(i : ℕ)]? with
  | none => exact (mul_zero r).symm
  | some x => rfl

/-- Embeddings of one length are vectors. -/
theorem vec_injOn (ha : a.length = n) (hb : b.length = n) (h : vec n a = vec n b) : a = b := by
  refine List.ext_getElem (ha.trans hb.symm) fun i hi hi' => ?_
  have hat : a.getD i 0 = b.getD i 0 := congrArg (fun v => v ⟨i, ha ▸ hi⟩) h
  rwa [List.getD_eq_getElem?_getD, List.getD_eq_getElem?_getD, List.getElem?_eq_getElem hi,
    List.getElem?_eq_getElem hi'] at hat

end Vectors

/-! ## The distance -/

section Distance

variable {a b : List ℝ}

/-- The cosine of the angle between two embeddings, the second one of the length of the first. -/
noncomputable def cosine (a b : List ℝ) : ℝ :=
  Real.cos (angle (vec a.length a) (vec a.length b))

theorem cosineDistance_length (h : a.length ≠ b.length) : cosineDistance a b =
    .error (.invalidFrame ("embedding length mismatch: " ++ toString a.length ++ " vs " ++
      toString b.length)) := if_pos h

/-- **The distance is one minus the cosine**, and the clamp does nothing. -/
theorem cosineDistance_eq (h : a.length = b.length) : cosineDistance a b =
    if vec a.length a = 0 ∨ vec a.length b = 0 then .error (.invalidFrame "zero-magnitude embedding")
    else .ok (1 - cosine a b) := by
  have hclamp : ∀ c : ℝ, -1 ≤ c → c ≤ 1 → clamp (1 - c) 0 ((2 : ℕ) : ℝ) = 1 - c := by
    intro c hlo hhi
    unfold clamp
    rw [if_neg (by linarith), if_neg (by norm_num; linarith)]
  rw [cosineDistance, if_neg (not_not.2 h)]
  change (if Real.sqrt _ = 0 ∨ Real.sqrt _ = 0 then _ else Except.ok
    (clamp (1 - _ / (Real.sqrt _ * Real.sqrt _)) 0 _)) = _
  rw [← norm_vec rfl, ← norm_vec h.symm, ← inner_vec rfl h.symm, ← cos_angle,
    hclamp _ (Real.neg_one_le_cos _) (Real.cos_le_one _)]
  simp only [norm_eq_zero]
  rfl

theorem cosineDistance_ok_iff {d : ℝ} : cosineDistance a b = .ok d ↔ a.length = b.length ∧
    vec a.length a ≠ 0 ∧ vec a.length b ≠ 0 ∧ d = 1 - cosine a b := by
  by_cases h : a.length = b.length
  · rw [cosineDistance_eq h]
    split_ifs with hzero
    · refine iff_of_false nofun fun ⟨_, ha, hb, _⟩ => ?_
      exact hzero.elim ha hb
    · obtain ⟨ha, hb⟩ := not_or.1 hzero
      refine ⟨fun hd => ⟨h, ha, hb, (Except.ok.inj hd).symm⟩, fun hd => ?_⟩
      rw [hd.2.2.2]
  · rw [cosineDistance_length h]
    exact iff_of_false nofun fun hd => h hd.1

theorem cosine_comm (h : a.length = b.length) : cosine a b = cosine b a := by
  rw [cosine, cosine, angle_comm, h]

/-- The distance does not depend on the lengths of the vectors. -/
theorem cosineDistance_scale {r s : ℝ} (hr : 0 < r) (hs : 0 < s) (a b : List ℝ) :
    cosineDistance (a.map (r * ·)) (b.map (s * ·)) = cosineDistance a b := by
  by_cases h : a.length = b.length
  · have hmap : (a.map (r * ·)).length = (b.map (s * ·)).length := by
      rw [List.length_map, List.length_map, h]
    rw [cosineDistance_eq hmap, cosineDistance_eq h, cosine, cosine, List.length_map, vec_map_mul,
      vec_map_mul, angle_smul_left_of_pos _ _ hr, angle_smul_right_of_pos _ _ hs]
    simp only [smul_eq_zero, hr.ne', hs.ne', false_or]
  · have hmap : (a.map (r * ·)).length ≠ (b.map (s * ·)).length := by
      rwa [List.length_map, List.length_map]
    rw [cosineDistance_length hmap, cosineDistance_length h, List.length_map, List.length_map]

/-- **The distance of two embeddings**: from `0` for the same direction to `2` for the opposite one,
and the same from either side. -/
theorem cosineDistance_bounds {d : ℝ} (h : cosineDistance a b = .ok d) :
    (0 ≤ d ∧ d ≤ 2) ∧ cosineDistance b a = .ok d ∧
      (d = 0 ↔ ∃ r > 0, b = a.map (r * ·)) ∧ (d = 2 ↔ ∃ r < 0, b = a.map (r * ·)) := by
  obtain ⟨hlen, ha, hb, rfl⟩ := cosineDistance_ok_iff.1 h
  have hle : cosine a b ≤ 1 := Real.cos_le_one _
  have hge : -1 ≤ cosine a b := Real.neg_one_le_cos _
  have hvec : ∀ r : ℝ, b = a.map (r * ·) ↔ vec a.length b = r • vec a.length a := by
    intro r
    rw [← vec_map_mul]
    exact ⟨congrArg _, vec_injOn hlen.symm (List.length_map _)⟩
  refine ⟨⟨by linarith, by linarith⟩, ?_, ?_, ?_⟩
  · rw [cosineDistance_ok_iff, ← hlen, cosine_comm hlen]
    exact ⟨rfl, hb, ha, rfl⟩
  · simp only [hvec, gt_iff_lt, sub_eq_zero, eq_comm (a := (1 : ℝ))]
    rw [cosine, cos_angle, real_inner_div_norm_mul_norm_eq_one_iff]
    exact and_iff_right ha
  · have hneg : (1 - cosine a b = 2) ↔ cosine a b = -1 := by constructor <;> intro <;> linarith
    simp only [hvec]
    rw [hneg, cosine, cos_angle, real_inner_div_norm_mul_norm_eq_neg_one_iff]
    exact and_iff_right ha

theorem cosineDistance_bounds_orthogonal :
    cosineDistance [0, 1] [1, 0] = .ok (1 - cosine [1, 0] [0, 1]) := by
  have hne : ∀ a : List ℝ, a.getD 0 0 ≠ 0 ∨ a.getD 1 0 ≠ 0 → vec 2 a ≠ 0 := by
    rintro a (h | h) hzero
    · exact h (congrArg (fun v => v 0) hzero)
    · exact h (congrArg (fun v => v 1) hzero)
  have hok : cosineDistance [1, 0] [0, 1] = .ok (1 - cosine [1, 0] [0, 1]) :=
    cosineDistance_ok_iff.2 ⟨rfl, hne [1, 0] (by simp), hne [0, 1] (by simp), rfl⟩
  exact (cosineDistance_bounds hok).2.1

end Distance

/-! ## Runs of the gate -/

section Runs

variable {detector : Bool} {enrolled : FaceEnrollment ℝ} {fixed : ℕ → ℝ → String} {s : ℝ}

/-- The answers of two extractors, where the embeddings of the second are those of the first at
other lengths. -/
inductive Rescaled : (o : Op) → Op.Res ℝ o → Op.Res ℝ o → Prop
  | same {o : Op} (y : Op.Res ℝ o) : Rescaled o y y
  | embedding {frame : IrFrame} {r : ℝ} (hr : 0 < r) (e : List ℝ) :
      Rescaled (.extract frame) (.ok e) (.ok (e.map (r * ·)))

/-- Calls that have nothing to do with embeddings. -/
def Embeddingless : Op → Prop
  | .extract _ => False
  | _ => True

theorem rescaled_eq {o : Op} (ho : Embeddingless o) {y y' : Op.Res ℝ o} (h : Rescaled o y y') :
    y = y' := by
  cases h with
  | same => rfl
  | embedding => exact ho.elim

theorem related_embeddingless {ε α : Type} {x : ExceptT ε (Prog (Op.Res ℝ)) α}
    (hx : AllOps Embeddingless x) : RelatedT Rescaled x x :=
  Related.refl hx fun _ ho _ _ h => rescaled_eq ho h

theorem embeddingless_lift {α : Type} (x : Except (MugError ℝ) α) :
    AllOps Embeddingless (lift x) := allOps_ofResult _

theorem embeddingless_pair (deadlineMs : ℕ) :
    AllOps Embeddingless (captureLivenessPair (F := ℝ) deadlineMs) :=
  (allOps_ask trivial _).bind fun _ => (allOps_ask trivial _).bind fun _ =>
    (allOps_ask trivial _).bind fun _ => (allOps_ask trivial _).bind fun _ =>
      (allOps_ask trivial _).bind fun _ => (allOps_ask trivial _).bind fun _ =>
        (allOps_ask trivial _).bind fun _ => embeddingless_lift _

/-- The template, at another length. -/
def FaceEnrollment.rescale (enrolled : FaceEnrollment ℝ) (s : ℝ) : FaceEnrollment ℝ :=
  { enrolled with embedding := enrolled.embedding.map (s * ·) }

theorem related_distance (hs : 0 < s) (frame : IrFrame) : RelatedT Rescaled
    (distance (exact fixed) frame enrolled.embedding)
    (distance (exact fixed) frame (enrolled.rescale s).embedding) := by
  refine relatedT_ask_bind fun y y' hy => ?_
  have hdist : ∀ {r : ℝ}, 0 < r → ∀ e : List ℝ,
      cosineDistance (e.map (r * ·)) (enrolled.rescale s).embedding =
        cosineDistance e enrolled.embedding := fun hr e => cosineDistance_scale hr hs _ _
  cases hy with
  | same =>
    cases y with
    | error e => exact .inl ⟨.failed e, rfl, rfl⟩
    | ok e =>
      have hone := hdist one_pos e
      simp only [one_mul, List.map_id'] at hone
      refine .inr ⟨e, e, rfl, rfl, ?_⟩
      change RelatedT Rescaled (lift (cosineDistance e _)) (lift (cosineDistance e _))
      rw [hone]
      exact relatedT_ofResult _
  | embedding hr e =>
    refine .inr ⟨e, _, rfl, rfl, ?_⟩
    change RelatedT Rescaled (lift (cosineDistance e _)) (lift (cosineDistance (e.map _) _))
    rw [hdist hr]
    exact relatedT_ofResult _

theorem related_frameDistance (hs : 0 < s) (frame : IrFrame) : RelatedT Rescaled
    (frameDistance (exact fixed) detector frame enrolled)
    (frameDistance (exact fixed) detector frame (enrolled.rescale s)) := by
  have halign : AllOps Embeddingless (locateAndAlign (exact fixed) frame alignedFaceSize) :=
    (allOps_ask trivial _).bind fun _ => embeddingless_lift _
  unfold frameDistance
  cases detector with
  | false => exact (related_distance hs frame).bind fun _ => .pure _
  | true =>
    refine (related_embeddingless halign).settle.bind fun aligned => ?_
    cases aligned with
    | ok face => exact (related_distance hs face).bind fun _ => .pure _
    | error e => cases e <;> exact .pure _

theorem related_matchRound (hs : 0 < s) (deadline : ℕ) (distances : List ℝ) : RelatedT Rescaled
    (matchRound (exact fixed) detector enrolled deadline distances)
    (matchRound (exact fixed) detector (enrolled.rescale s) deadline distances) := by
  unfold matchRound
  split_ifs
  · exact .pure _
  refine (related_embeddingless (allOps_ask trivial _)).bind fun t => ?_
  dsimp only
  split_ifs
  · exact .pure _
  refine (related_embeddingless (allOps_ask trivial _)).settle.bind fun captured => ?_
  cases captured with
  | ok frame => exact (related_frameDistance hs frame).bind fun _ => .pure _
  | error e => cases e <;> exact .pure _

/-- **Normalization does not matter**: the gate comes to the same outcome when the embeddings and the
template are any positive multiples of what they were. -/
theorem verify_rescaled (fixed : ℕ → ℝ → String) (detector : Bool) (enrolled : FaceEnrollment ℝ)
    (cfg : LivenessConfig ℝ) (deadlineMs rounds : ℕ) (hs : 0 < s)
    {r : Except (Stop (MugError ℝ)) Unit} {l l' : List (Event ℝ)}
    (hl : List.Forall₂ (Corresponds Rescaled) l l') :
    Ends (verify (exact fixed) detector enrolled cfg deadlineMs rounds) r l ↔
      Ends (verify (exact fixed) detector (enrolled.rescale s) cfg deadlineMs rounds) r l' := by
  refine RelatedT.ends_iff ?_ hl
  unfold verify
  refine (related_embeddingless (allOps_ask trivial _)).bind fun start => ?_
  refine (related_embeddingless (embeddingless_pair deadlineMs)).bind fun pair => ?_
  refine (related_embeddingless (embeddingless_lift _)).bind fun report => ?_
  refine (related_embeddingless (embeddingless_lift _)).bind fun _ => ?_
  refine (related_frameDistance hs pair.emitterOn).bind fun d => ?_
  refine (related_embeddingless (allOps_ask trivial _)).bind fun _ => ?_
  have hloop : RelatedT Rescaled
      (loop (matchRound (exact fixed) detector enrolled (start + deadlineMs * 1000000)) rounds
        d.toList)
      (loop (matchRound (exact fixed) detector (enrolled.rescale s)
        (start + deadlineMs * 1000000)) rounds d.toList) :=
    RelatedT.loop (fun distances => related_matchRound hs _ distances) rounds d.toList
  refine (hloop.bind fun _ => .pure _).settle.bind fun outcome => ?_
  exact (related_embeddingless (allOps_ask trivial _)).bind fun _ => .pure _

/-- The embeddings of an extractor, at another length. -/
def lengthened (r : ℝ) : Event ℝ → Event ℝ
  | ⟨.extract frame, .ok e⟩ => ⟨.extract frame, .ok (e.map (r * ·))⟩
  | e => e

theorem corresponds_lengthened {r : ℝ} (hr : 0 < r) (e : Event ℝ) :
    Corresponds Rescaled e (lengthened r e) := by
  unfold lengthened
  split
  · exact .answer (.embedding hr _)
  · exact .answer (.same _)

theorem verify_rescaled_doubled :
    Ends (verify sampleExact false (sampleTemplate.rescale 3) sampleMug.livenessConfig 2500 9)
      (.ok ()) (sampleVerify.map (lengthened 2)) :=
  (verify_rescaled (fun _ _ => "") false sampleTemplate sampleMug.livenessConfig 2500 9
    three_pos (List.forall₂_map_right_iff.2 (List.forall₂_same.2 fun e _ =>
      corresponds_lengthened two_pos e))).1 sampleVerify_ends

end Runs

end Mug

end Tess

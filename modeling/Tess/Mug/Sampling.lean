import Mathlib.Analysis.Convex.Basic
import Tess.Mug.Align

/-!
# Sampling in machine arithmetic

`sample_bilinear` of `mug/src/align.rs` again, with its coordinates and indices as the machine has
them. A coordinate may be infinite or not a number. Its floor is cast to an `i64`, which saturates.
The neighbours are found by additions in `i64`, the offset by a product and a sum in `usize`; what
leaves the type is a panic where the build checks for overflow, and wraps where it does not. An
index outside of the data is a panic in either.

The values stay exact. They are those of the sampling in exact arithmetic, whenever there is one.
-/

namespace Tess

namespace Mug

open Effects

namespace Sampling

/-! ## Machine arithmetic -/

inductive Panic where
  | overflow
  | outOfBounds
  deriving DecidableEq

abbrev I64 := { i : ℤ // -2 ^ 63 ≤ i ∧ i < 2 ^ 63 }

/-- A cast of an integral float. -/
def I64.saturating (i : ℤ) : I64 := ⟨max (-2 ^ 63) (min i (2 ^ 63 - 1)), by omega, by omega⟩

def I64.wrapping (i : ℤ) : I64 := ⟨(i + 2 ^ 63) % 2 ^ 64 - 2 ^ 63, by omega, by omega⟩

def I64.add (checks : Bool) (a : I64) (b : ℤ) : Except Panic I64 :=
  if h : -2 ^ 63 ≤ a.1 + b ∧ a.1 + b < 2 ^ 63 then .ok ⟨a.1 + b, h⟩
  else if checks then .error .overflow
  else .ok (wrapping (a.1 + b))

/-- The value of an expression in `usize`. -/
def usize (checks : Bool) (n : ℕ) : Except Panic ℕ :=
  if n < 2 ^ 64 then .ok n
  else if checks then .error .overflow
  else .ok (n % 2 ^ 64)

inductive Coord (F : Type) where
  | finite (x : F)
  | infinite (negative : Bool)
  | nan

/-! ## The program -/

section Definitions

variable {F : Type} [Field F] [LinearOrder F]

/-- The closure `at`. -/
def pixelAt (checks : Bool) (data : List UInt8) (w h : UInt32) (x y : I64) : Except Panic F :=
  if 0 ≤ x.1 ∧ 0 ≤ y.1 ∧ x.1 < w.toNat ∧ y.1 < h.toNat then do
    let row ← usize checks (y.1.toNat * w.toNat)
    let index ← usize checks (row + x.1.toNat)
    (data[index]?).elim (throw .outOfBounds) fun p => pure (gray p)
  else pure 0

variable [FloorRing F]

def sampleBilinear (checks : Bool) (data : List UInt8) (w h : UInt32) :
    Coord F → Coord F → Except Panic UInt8
  | .finite sx, .finite sy => do
    let fx := sx - ⌊sx⌋
    let fy := sy - ⌊sy⌋
    let x0 := I64.saturating ⌊sx⌋
    let y0 := I64.saturating ⌊sy⌋
    let p00 : F ← pixelAt checks data w h x0 y0
    let p10 : F ← pixelAt checks data w h (← x0.add checks 1) y0
    let p01 : F ← pixelAt checks data w h x0 (← y0.add checks 1)
    let p11 : F ← pixelAt checks data w h (← x0.add checks 1) (← y0.add checks 1)
    let val := p00 * (1 - fx) * (1 - fy) + p10 * fx * (1 - fy) + p01 * (1 - fx) * fy + p11 * fx * fy
    pure (UInt8.ofNat (max 0 (min (roundAway val) 255)).toNat)
  | _, _ => pure 0

end Definitions

/-! ## Places -/

variable {checks : Bool} {data : List UInt8} {w h : UInt32}

/-- Two coordinates stand for the same one: they agree, or the frame has neither. -/
def SamePlace (w : UInt32) (i j : ℤ) : Prop :=
  i = j ∨ ¬ (0 ≤ i ∧ i < w.toNat) ∧ ¬ (0 ≤ j ∧ j < w.toNat)

theorem samePlace_saturating (w : UInt32) (i : ℤ) : SamePlace w (I64.saturating i).1 i := by
  have hw := w.toNat_lt
  simp only [SamePlace, I64.saturating]
  omega

/-- The neighbour of a cast coordinate, if it has one. -/
theorem samePlace_add {i : ℤ} {j : I64} (w : UInt32)
    (hj : (I64.saturating i).add checks 1 = .ok j) : SamePlace w j.1 (i + 1) := by
  have hw := w.toNat_lt
  rw [I64.add] at hj
  split at hj
  · obtain rfl := Except.ok.inj hj
    simp only [SamePlace, I64.saturating]
    omega
  · split at hj
    · cases hj
    · obtain rfl := Except.ok.inj hj
      simp only [SamePlace, I64.saturating, I64.wrapping] at *
      omega

/-- Every cast coordinate has a neighbour but the last one, and that one too where nothing is
checked. -/
theorem add_saturating (checks : Bool) (i : ℤ) :
    ((I64.saturating i).add checks 1 = .error .overflow ∧ checks = true ∧ 2 ^ 63 - 1 ≤ i) ∨
      ∃ j, (I64.saturating i).add checks 1 = .ok j ∧ ¬ (checks = true ∧ 2 ^ 63 - 1 ≤ i) := by
  rw [I64.add]
  by_cases hi : 2 ^ 63 - 1 ≤ i
  · have hout : ¬ (-2 ^ 63 ≤ (I64.saturating i).1 + 1 ∧ (I64.saturating i).1 + 1 < 2 ^ 63) := by
      simp only [I64.saturating]
      omega
    rw [dif_neg hout]
    cases checks with
    | false => exact .inr ⟨_, rfl, by simp⟩
    | true => exact .inl ⟨rfl, rfl, hi⟩
  · have hin : -2 ^ 63 ≤ (I64.saturating i).1 + 1 ∧ (I64.saturating i).1 + 1 < 2 ^ 63 := by
      simp only [I64.saturating]
      omega
    rw [dif_pos hin]
    exact .inr ⟨_, rfl, fun h => hi h.2⟩

theorem usize_ok {n : ℕ} (hn : n < 2 ^ 64) : usize checks n = .ok n := if_pos hn

section Values

variable {F : Type} [Field F]

/-- **No index is out of range**, and none overflows on the way. -/
theorem pixelAt_eq (hlen : data.length = w.toNat * h.toNat) (x y : I64) :
    (pixelAt checks data w h x y : Except Panic F) =
      .ok (Mug.pixelAt data w.toNat h.toNat x.1 y.1) := by
  rw [pixelAt, Mug.pixelAt]
  by_cases hin : 0 ≤ x.1 ∧ 0 ≤ y.1 ∧ x.1 < w.toNat ∧ y.1 < h.toNat
  · rw [if_pos hin, if_pos hin]
    obtain ⟨hx₀, hy₀, hx, hy⟩ := hin
    have hrow : y.1.toNat * w.toNat + w.toNat ≤ data.length := by
      rw [hlen, ← Nat.succ_mul, Nat.mul_comm]
      exact Nat.mul_le_mul_left _ (by omega)
    have hsize : data.length ≤ (2 ^ 32 - 1) * (2 ^ 32 - 1) := by
      rw [hlen]
      exact Nat.mul_le_mul (Nat.le_pred_of_lt w.toNat_lt) (Nat.le_pred_of_lt h.toNat_lt)
    have hindex : y.1.toNat * w.toNat + x.1.toNat < data.length := by omega
    refine bind_eq_ok.2 ⟨_, usize_ok (by omega), bind_eq_ok.2 ⟨_, usize_ok (by omega), ?_⟩⟩
    rw [List.getD_eq_getElem?_getD, List.getElem?_eq_getElem hindex]
    rfl
  · rw [if_neg hin, if_neg hin]
    rfl

/-- Places that are the same show the same pixel. -/
theorem pixelAt_congr {i i' j j' : ℤ} (hi : SamePlace w i i') (hj : SamePlace h j j') :
    (Mug.pixelAt data w.toNat h.toNat i j : F) = Mug.pixelAt data w.toNat h.toNat i' j' := by
  rw [Mug.pixelAt, Mug.pixelAt]
  by_cases hin : 0 ≤ i ∧ 0 ≤ j ∧ i < w.toNat ∧ j < h.toNat
  · obtain rfl : i = i' := by
      rw [SamePlace] at hi
      omega
    obtain rfl : j = j' := by
      rw [SamePlace] at hj
      omega
    rfl
  · have hin' : ¬ (0 ≤ i' ∧ 0 ≤ j' ∧ i' < w.toNat ∧ j' < h.toNat) := by
      rw [SamePlace] at hi hj
      omega
    rw [if_neg hin, if_neg hin']

variable [LinearOrder F] [FloorRing F]

/-- **The sampling is the exact one, or it overflows** in one of its additions. -/
theorem sampleBilinear_eq (hlen : data.length = w.toNat * h.toNat) (x y : F) :
    sampleBilinear checks data w h (.finite x) (.finite y) =
      if checks = true ∧ (2 ^ 63 - 1 ≤ ⌊x⌋ ∨ 2 ^ 63 - 1 ≤ ⌊y⌋) then .error .overflow
      else .ok (Mug.sampleBilinear data w.toNat h.toNat x y) := by
  have hx := samePlace_saturating w ⌊x⌋
  have hy := samePlace_saturating h ⌊y⌋
  simp only [sampleBilinear, pixelAt_eq hlen]
  obtain ⟨hadd, hchecks, hi⟩ | ⟨x₁, hx₁, hi⟩ := add_saturating checks ⌊x⌋
  · rw [hadd, if_pos ⟨hchecks, .inl hi⟩]
    rfl
  · obtain ⟨hadd, hchecks, hj⟩ | ⟨y₁, hy₁, hj⟩ := add_saturating checks ⌊y⌋
    · rw [hx₁, hadd, if_pos ⟨hchecks, .inr hj⟩]
      rfl
    · rw [hx₁, hy₁, if_neg (by tauto), Mug.sampleBilinear]
      have hx' := samePlace_add w hx₁
      have hy' := samePlace_add h hy₁
      rw [← pixelAt_congr hx hy, ← pixelAt_congr hx' hy, ← pixelAt_congr hx hy',
        ← pixelAt_congr hx' hy']
      rfl

end Values

/-! ## The value -/

section Interpolation

variable {F : Type} [Field F]

/-- Along one axis and then along the other. -/
theorem bilinear_eq_lineMap (a b c d s t : F) :
    a * (1 - s) * (1 - t) + b * s * (1 - t) + c * (1 - s) * t + d * s * t =
      AffineMap.lineMap (AffineMap.lineMap a b s) (AffineMap.lineMap c d s) t := by
  simp only [AffineMap.lineMap_apply, vsub_eq_sub, vadd_eq_add, smul_eq_mul]
  ring

theorem exists_pixelAt_eq (data : List UInt8) (w h : ℕ) (i j : ℤ) :
    ∃ n : ℕ, (Mug.pixelAt data w h i j : F) = n := by
  rw [Mug.pixelAt]
  split
  · exact ⟨_, rfl⟩
  · exact ⟨0, Nat.cast_zero.symm⟩

variable [LinearOrder F] [FloorRing F]

/-- The value of a sample, before it is rounded. -/
def interpolated (data : List UInt8) (w h : ℕ) (sx sy : F) : F :=
  let fx := sx - ⌊sx⌋
  let fy := sy - ⌊sy⌋
  let p00 : F := Mug.pixelAt data w h ⌊sx⌋ ⌊sy⌋
  let p10 : F := Mug.pixelAt data w h (⌊sx⌋ + 1) ⌊sy⌋
  let p01 : F := Mug.pixelAt data w h ⌊sx⌋ (⌊sy⌋ + 1)
  let p11 : F := Mug.pixelAt data w h (⌊sx⌋ + 1) (⌊sy⌋ + 1)
  p00 * (1 - fx) * (1 - fy) + p10 * fx * (1 - fy) + p01 * (1 - fx) * fy + p11 * fx * fy

theorem sampleBilinear_interpolated (data : List UInt8) (w h : ℕ) (sx sy : F) :
    Mug.sampleBilinear data w h sx sy =
      UInt8.ofNat (max 0 (min (roundAway (interpolated data w h sx sy)) 255)).toNat := rfl

variable [IsStrictOrderedRing F]

/-- An interpolation stays where its corners are. -/
theorem interpolated_mem {data : List UInt8} {w h : ℕ} {sx sy : F} {s : Set F} (hs : Convex F s)
    (h00 : (Mug.pixelAt data w h ⌊sx⌋ ⌊sy⌋ : F) ∈ s)
    (h10 : (Mug.pixelAt data w h (⌊sx⌋ + 1) ⌊sy⌋ : F) ∈ s)
    (h01 : (Mug.pixelAt data w h ⌊sx⌋ (⌊sy⌋ + 1) : F) ∈ s)
    (h11 : (Mug.pixelAt data w h (⌊sx⌋ + 1) (⌊sy⌋ + 1) : F) ∈ s) :
    interpolated data w h sx sy ∈ s := by
  have hfract (z : F) : z - ⌊z⌋ ∈ Set.Icc (0 : F) 1 :=
    ⟨Int.fract_nonneg z, (Int.fract_lt_one z).le⟩
  rw [interpolated, bilinear_eq_lineMap]
  apply hs.lineMap_mem _ _ (hfract sy)
  · exact hs.lineMap_mem h00 h10 (hfract sx)
  · exact hs.lineMap_mem h01 h11 (hfract sx)

/-- At a pixel, the sample is that pixel. -/
theorem interpolated_intCast (data : List UInt8) (w h : ℕ) (i j : ℤ) :
    interpolated data w h (i : F) (j : F) = Mug.pixelAt data w h i j := by
  simp [interpolated]

theorem pixelAt_mem (data : List UInt8) (w h : ℕ) (i j : ℤ) :
    (Mug.pixelAt data w h i j : F) ∈ Set.Icc (0 : F) (255 : ℕ) := by
  rw [Mug.pixelAt]
  split
  · exact ⟨Nat.cast_nonneg _, Nat.cast_le.2 (Nat.le_of_lt_succ (UInt8.toNat_lt _))⟩
  · exact ⟨le_rfl, Nat.cast_nonneg _⟩

theorem roundAway_mem {z : F} {n : ℕ} (hz : z ∈ Set.Icc (0 : F) n) :
    roundAway z ∈ Set.Icc (0 : ℤ) n := by
  have hhalf : 1 / ((2 : ℕ) : F) < 1 := by norm_num
  rw [roundAway, if_pos hz.1]
  constructor
  · exact Int.floor_nonneg.2 (add_nonneg hz.1 (by positivity))
  · apply Int.lt_add_one_iff.1 (Int.floor_lt.2 _)
    push_cast
    exact add_lt_add_of_le_of_lt hz.2 hhalf

theorem roundAway_natCast (n : ℕ) : roundAway (n : F) = n := by
  have hhalf : ⌊1 / ((2 : ℕ) : F)⌋ = 0 := Int.floor_eq_zero_iff.2 ⟨by positivity, by norm_num⟩
  rw [roundAway, if_pos (Nat.cast_nonneg n), Int.floor_natCast_add, hhalf, add_zero]

/-- What a sample is, in a frame with a black border: its value is between those of its four
neighbours, rounding it needs no clamp, and at a pixel it is that pixel. -/
structure Interpolates (data : List UInt8) (w h : ℕ) (sx sy : F) (pixel : UInt8) : Prop where
  between : interpolated data w h sx sy ∈ Set.Icc
    (min (min (Mug.pixelAt data w h ⌊sx⌋ ⌊sy⌋) (Mug.pixelAt data w h (⌊sx⌋ + 1) ⌊sy⌋))
      (min (Mug.pixelAt data w h ⌊sx⌋ (⌊sy⌋ + 1)) (Mug.pixelAt data w h (⌊sx⌋ + 1) (⌊sy⌋ + 1))))
    (max (max (Mug.pixelAt data w h ⌊sx⌋ ⌊sy⌋) (Mug.pixelAt data w h (⌊sx⌋ + 1) ⌊sy⌋))
      (max (Mug.pixelAt data w h ⌊sx⌋ (⌊sy⌋ + 1)) (Mug.pixelAt data w h (⌊sx⌋ + 1) (⌊sy⌋ + 1))))
  unclamped : (pixel.toNat : ℤ) = roundAway (interpolated data w h sx sy)
  atPixel : ∀ i j : ℤ, sx = i → sy = j → (gray pixel : F) = Mug.pixelAt data w h i j

theorem sampleBilinear_interpolates (data : List UInt8) (w h : ℕ) (sx sy : F) :
    Interpolates data w h sx sy (Mug.sampleBilinear data w h sx sy) := by
  have hmem : interpolated data w h sx sy ∈ Set.Icc (0 : F) (255 : ℕ) := by
    apply interpolated_mem (convex_Icc _ _) <;> exact pixelAt_mem data w h _ _
  have hunclamped : ((Mug.sampleBilinear data w h sx sy).toNat : ℤ) =
      roundAway (interpolated data w h sx sy) := by
    obtain ⟨hlo, hhi⟩ := roundAway_mem hmem
    rw [sampleBilinear_interpolated, UInt8.toNat_ofNat']
    omega
  refine ⟨?_, hunclamped, ?_⟩
  · apply interpolated_mem (convex_Icc _ _) <;> simp
  · intro i j hi hj
    subst hi hj
    obtain ⟨n, hn⟩ := exists_pixelAt_eq (F := F) data w h i j
    rw [interpolated_intCast, hn, roundAway_natCast] at hunclamped
    rw [gray, hn, Int.ofNat_inj.1 hunclamped]

end Interpolation

/-! ## Soundness -/

section Soundness

variable {F : Type} [Field F] [LinearOrder F] [FloorRing F] {checks : Bool} {data : List UInt8}
  {w h : UInt32}

/-- A sample is taken, with nothing out of its range on the way, and it interpolates. -/
def Sound (checks : Bool) (data : List UInt8) (w h : UInt32) (sx sy : Coord F) : Prop :=
  ∃ pixel, sampleBilinear checks data w h sx sy = .ok pixel ∧
    ∀ x y, sx = .finite x → sy = .finite y → Interpolates data w.toNat h.toNat x y pixel

/-- The cast of neither coordinate ends at the last number of its type. -/
def BelowLast (sx sy : Coord F) : Prop :=
  ∀ x y, sx = .finite x → sy = .finite y → ⌊x⌋ < 2 ^ 63 - 1 ∧ ⌊y⌋ < 2 ^ 63 - 1

theorem belowLast_finite {x y : F} :
    BelowLast (.finite x) (.finite y) ↔ ⌊x⌋ < 2 ^ 63 - 1 ∧ ⌊y⌋ < 2 ^ 63 - 1 := by
  constructor
  · intro h
    exact h x y rfl rfl
  · rintro h _ _ ⟨⟩ ⟨⟩
    exact h

/-- What is not finite is black, and needs no arithmetic. -/
theorem sound_of_not_finite {sx sy : Coord F}
    (hfinite : ∀ x y, ¬ (sx = .finite x ∧ sy = .finite y)) : Sound checks data w h sx sy := by
  refine ⟨0, ?_, fun x y hx hy => absurd ⟨hx, hy⟩ (hfinite x y)⟩
  cases sx with
  | finite x =>
    cases sy with
    | finite y => exact absurd ⟨rfl, rfl⟩ (hfinite x y)
    | infinite _ => rfl
    | nan => rfl
  | infinite _ => rfl
  | nan => rfl

variable [IsStrictOrderedRing F]

theorem sound_finite_iff (hlen : data.length = w.toNat * h.toNat) (x y : F) :
    Sound checks data w h (.finite x) (.finite y) ↔
      (checks = true → BelowLast (.finite x) (.finite y)) := by
  rw [Sound, sampleBilinear_eq hlen, belowLast_finite]
  by_cases hover : checks = true ∧ (2 ^ 63 - 1 ≤ ⌊x⌋ ∨ 2 ^ 63 - 1 ≤ ⌊y⌋)
  · rw [if_pos hover]
    refine iff_of_false ?_ fun h => ?_
    · rintro ⟨_, h, -⟩
      cases h
    · have := h hover.1
      omega
  · rw [if_neg hover]
    refine iff_of_true ⟨_, rfl, ?_⟩ fun hchecks => ?_
    · rintro _ _ ⟨⟩ ⟨⟩
      exact sampleBilinear_interpolates data w.toNat h.toNat x y
    · have : ¬ (2 ^ 63 - 1 ≤ ⌊x⌋ ∨ 2 ^ 63 - 1 ≤ ⌊y⌋) := fun h => hover ⟨hchecks, h⟩
      omega

theorem sound_iff (hlen : data.length = w.toNat * h.toNat) (sx sy : Coord F) :
    Sound checks data w h sx sy ↔ (checks = true → BelowLast sx sy) := by
  by_cases hfinite : ∃ x y, sx = .finite x ∧ sy = .finite y
  · obtain ⟨x, y, rfl, rfl⟩ := hfinite
    exact sound_finite_iff hlen x y
  · have hnot : ∀ x y, ¬ (sx = .finite x ∧ sy = .finite y) := fun x y h => hfinite ⟨x, y, h⟩
    exact iff_of_true (sound_of_not_finite hnot) fun _ x y hx hy => absurd ⟨hx, hy⟩ (hnot x y)

/-- Where overflow is not checked, every sample is what it should be: a coordinate at the end of
the type wraps to one that the frame does not have either. -/
theorem sound_unchecked (hlen : data.length = w.toNat * h.toNat) (sx sy : Coord F) :
    Sound false data w h sx sy :=
  (sound_iff hlen sx sy).2 fun h => absurd h Bool.false_ne_true

/-- **When a sample is sound.** With overflow checked, it is so if and only if the floor of neither
coordinate reaches the last `i64`. -/
theorem sampleBilinear_sound_iff (hlen : data.length = w.toNat * h.toNat) (sx sy : Coord F) :
    Sound true data w h sx sy ↔ BelowLast sx sy :=
  (sound_iff hlen sx sy).trans (forall_prop_of_true rfl)

end Soundness

/-- Half way between a black pixel and a bright one. -/
theorem sampleBilinear_sound_half :
    Sound true [0, 200] 2 1 (.finite (1 / 2 : ℚ)) (.finite 0) := by
  apply (sampleBilinear_sound_iff rfl _ _).2
  rw [belowLast_finite]
  constructor
  · apply Int.floor_lt.2
    norm_num
  · rw [Int.floor_zero]
    norm_num

/-- A coordinate past the end of `i64`. -/
theorem not_sound_huge :
    (List.replicate 256 (200 : UInt8)).length = (16 : UInt32).toNat * (16 : UInt32).toNat ∧
      sampleBilinear true (List.replicate 256 200) 16 16 (.finite (10 ^ 19 : ℚ)) (.finite 1) =
        .error .overflow ∧
      ¬ Sound true (List.replicate 256 200) 16 16 (.finite (10 ^ 19 : ℚ)) (.finite 1) := by
  have hlen : (List.replicate 256 (200 : UInt8)).length =
      (16 : UInt32).toNat * (16 : UInt32).toNat := List.length_replicate
  have hlast : (2 ^ 63 - 1 : ℤ) ≤ ⌊(10 ^ 19 : ℚ)⌋ := Int.le_floor.2 (by norm_num)
  refine ⟨hlen, ?_, fun h => ?_⟩
  · rw [sampleBilinear_eq hlen, if_pos ⟨rfl, .inl hlast⟩]
  · have hbelow := belowLast_finite.1 ((sound_iff hlen _ _).1 h rfl)
    omega

end Sampling

end Mug

end Tess

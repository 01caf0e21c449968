import Mathlib.Data.List.Basic
import Mathlib.Data.List.Nodup
import Mathlib.Data.List.Pairwise
import Mathlib.Algebra.Ring.Nat
import Mathlib.Order.Monotone.Basic
import Mathlib.Tactic.Common

/-!
# Bracket matching on a list

An item of a list opens a bracket, closes one, or is plain. Reading from the left, a closer ends
the last opener that is still open; the openers and closers that find no partner stay unmatched.
`pairs` is this matching, in one pass with a stack, and `outside` the items that lie in no matched
pair.

A *block* is an opener before a closer. A list without one has no pairs; and cutting an innermost
block out of a list changes nothing outside the pairs (`outside_splice`), so that cutting blocks
until none is left ends with the items outside (`blockless_outside`).
-/

namespace Brackets

/-- What an item is to the matching. -/
inductive Kind where
  | opener
  | closer
  | plain
  deriving DecidableEq

variable {α : Type*} (kind : α → Kind)

/-! ## The matching -/

/-- The pairs of a list of items with their positions. The stack has the positions of the openers
that are still open, the last one on top. -/
def pairs : List ℕ → List (α × ℕ) → List (ℕ × ℕ)
  | _, [] => []
  | stack, (x, n) :: xs =>
    match kind x, stack with
    | .opener, stack => pairs (n :: stack) xs
    | .closer, i :: stack => (i, n) :: pairs stack xs
    | .closer, [] => pairs [] xs
    | .plain, stack => pairs stack xs

/-- The stack at the end of the list. -/
def opened : List ℕ → List (α × ℕ) → List ℕ
  | stack, [] => stack
  | stack, (x, n) :: xs =>
    match kind x with
    | .opener => opened (n :: stack) xs
    | .closer => opened stack.tail xs
    | .plain => opened stack xs

/-- The position lies within one of the pairs, its ends included. -/
def Within (ps : List (ℕ × ℕ)) (k : ℕ) : Prop := ∃ p ∈ ps, p.1 ≤ k ∧ k ≤ p.2

instance (ps : List (ℕ × ℕ)) (k : ℕ) : Decidable (Within ps k) := List.decidableBEx ..

/-- The items that lie in no pair, with their positions. -/
def outsideAt (xs : List (α × ℕ)) : List (α × ℕ) :=
  xs.filter fun x => ¬ Within (pairs kind [] xs) x.2

/-- The items of a list that lie in no matched pair. -/
def outside (xs : List α) : List α := (outsideAt kind xs.zipIdx).map Prod.fst

/-- No opener stands before a closer. -/
def Blockless (xs : List α) : Prop :=
  xs.Pairwise fun x y => ¬ (kind x = .opener ∧ kind y = .closer)

instance (xs : List α) : Decidable (Blockless kind xs) := List.instDecidablePairwise _

variable {kind}

theorem pairs_append (stack : List ℕ) (xs ys : List (α × ℕ)) :
    pairs kind stack (xs ++ ys) = pairs kind stack xs ++ pairs kind (opened kind stack xs) ys := by
  induction xs generalizing stack with
  | nil => rfl
  | cons x xs ih =>
    obtain ⟨x, n⟩ := x
    cases hk : kind x with
    | opener => simp [pairs, opened, hk, ih]
    | closer => cases stack <;> simp [pairs, opened, hk, ih]
    | plain => simp [pairs, opened, hk, ih]

/-- Without closers, nothing is matched. -/
theorem pairs_of_no_closer {xs : List (α × ℕ)} (h : ∀ x ∈ xs, kind x.1 ≠ .closer)
    (stack : List ℕ) : pairs kind stack xs = [] := by
  induction xs generalizing stack with
  | nil => rfl
  | cons x xs ih =>
    obtain ⟨x, n⟩ := x
    have hx := h (x, n) (by simp)
    have hxs := ih fun y hy => h y (by simp [hy])
    cases hk : kind x with
    | opener => simp [pairs, hk, hxs]
    | closer => exact absurd hk hx
    | plain => simp [pairs, hk, hxs]

theorem pairs_of_plain {xs : List (α × ℕ)} (h : ∀ x ∈ xs, kind x.1 = .plain) (stack : List ℕ) :
    pairs kind stack xs = [] ∧ opened kind stack xs = stack := by
  refine ⟨pairs_of_no_closer (fun x hx => by simp [h x hx]) stack, ?_⟩
  induction xs with
  | nil => rfl
  | cons x xs ih =>
    have hx := h x (by simp)
    simpa [opened, hx] using ih fun y hy => h y (by simp [hy])

theorem pairs_of_blockless {xs : List (α × ℕ)} (h : Blockless kind (xs.map Prod.fst)) :
    pairs kind [] xs = [] := by
  induction xs with
  | nil => rfl
  | cons x xs ih =>
    obtain ⟨x, n⟩ := x
    obtain ⟨hx, hxs⟩ := List.pairwise_cons.1 h
    cases hk : kind x with
    | opener =>
      have hnone : ∀ y ∈ xs, kind y.1 ≠ .closer := by
        intro y hy hc
        exact hx y.1 (List.mem_map_of_mem hy) ⟨hk, hc⟩
      simp [pairs, hk, pairs_of_no_closer hnone]
    | closer => simpa [pairs, hk] using ih hxs
    | plain => simpa [pairs, hk] using ih hxs

/-- An innermost block is matched, and what comes after it finds the stack as if it were not
there. -/
theorem pairs_block {pre mid post : List (α × ℕ)} {o c : α × ℕ} (ho : kind o.1 = .opener)
    (hc : kind c.1 = .closer) (hmid : ∀ x ∈ mid, kind x.1 = .plain) (stack : List ℕ) :
    pairs kind stack (pre ++ o :: (mid ++ c :: post)) =
      pairs kind stack pre ++ (o.2, c.2) :: pairs kind (opened kind stack pre) post := by
  obtain ⟨hnone, hsame⟩ := pairs_of_plain hmid (o.2 :: opened kind stack pre)
  rw [pairs_append]
  simp only [pairs, ho, hc, pairs_append, hnone, hsame, List.nil_append]

/-! ## Renaming positions -/

theorem pairs_map (f : ℕ → ℕ) (stack : List ℕ) (xs : List (α × ℕ)) :
    pairs kind (stack.map f) (xs.map (Prod.map id f)) =
      (pairs kind stack xs).map (Prod.map f f) := by
  induction xs generalizing stack with
  | nil => rfl
  | cons x xs ih =>
    obtain ⟨x, n⟩ := x
    have hcons := ih (n :: stack)
    cases hk : kind x with
    | opener => simpa [pairs, hk] using hcons
    | closer =>
      cases stack with
      | nil => simpa [pairs, hk] using ih []
      | cons i stack => simp [pairs, hk, ih]
    | plain => simp [pairs, hk, ih]

theorem within_map {f : ℕ → ℕ} (hf : StrictMono f) (ps : List (ℕ × ℕ)) (k : ℕ) :
    Within (ps.map (Prod.map f f)) (f k) ↔ Within ps k := by
  simp [Within, hf.le_iff_le]

theorem outsideAt_map {f : ℕ → ℕ} (hf : StrictMono f) (xs : List (α × ℕ)) :
    outsideAt kind (xs.map (Prod.map id f)) = (outsideAt kind xs).map (Prod.map id f) := by
  have hpairs : pairs kind [] (xs.map (Prod.map id f)) = (pairs kind [] xs).map (Prod.map f f) :=
    pairs_map f [] xs
  simp only [outsideAt, hpairs, List.filter_map]
  congr 2
  funext x
  simp [within_map hf]

/-! ## Cutting a block out -/

theorem outsideAt_of_blockless {xs : List (α × ℕ)} (h : Blockless kind (xs.map Prod.fst)) :
    outsideAt kind xs = xs := by
  simp [outsideAt, pairs_of_blockless h, Within]

theorem outside_of_blockless {xs : List α} (h : Blockless kind xs) : outside kind xs = xs := by
  rw [outside, outsideAt_of_blockless (by simpa using h)]
  simp

/-- The positions increase along the list. -/
def Increasing (xs : List (α × ℕ)) : Prop := xs.Pairwise fun x y => x.2 < y.2

theorem increasing_zipIdx (xs : List α) (n : ℕ) : Increasing (xs.zipIdx n) := by
  induction xs generalizing n with
  | nil => exact .nil
  | cons x xs ih =>
    refine List.pairwise_cons.2 ⟨fun y hy => ?_, ih (n + 1)⟩
    have := List.le_snd_of_mem_zipIdx hy
    omega

theorem outsideAt_splice {pre mid post : List (α × ℕ)} {o c : α × ℕ}
    (hinc : Increasing (pre ++ o :: (mid ++ c :: post))) (ho : kind o.1 = .opener)
    (hc : kind c.1 = .closer) (hmid : ∀ x ∈ mid, kind x.1 = .plain)
    (hpre : Blockless kind (pre.map Prod.fst)) :
    outsideAt kind (pre ++ o :: (mid ++ c :: post)) = outsideAt kind (pre ++ post) := by
  obtain ⟨-, hblock, hbefore⟩ := List.pairwise_append.1 hinc
  obtain ⟨ho', hblock⟩ := List.pairwise_cons.1 hblock
  obtain ⟨-, hpost, hmid'⟩ := List.pairwise_append.1 hblock
  obtain ⟨hafter, -⟩ := List.pairwise_cons.1 hpost
  set ps := pairs kind (opened kind [] pre) post with hps
  have hwith : pairs kind [] (pre ++ o :: (mid ++ c :: post)) = (o.2, c.2) :: ps := by
    rw [pairs_block ho hc hmid, pairs_of_blockless hpre, List.nil_append]
  have hwithout : pairs kind [] (pre ++ post) = ps := by
    rw [pairs_append, pairs_of_blockless hpre, List.nil_append]
  have houter : ∀ x : α × ℕ, (x.2 < o.2 ∨ c.2 < x.2) →
      (Within ((o.2, c.2) :: ps) x.2 ↔ Within ps x.2) := by
    intro x hx
    simp only [Within, List.mem_cons, exists_eq_or_imp, or_iff_right_iff_imp]
    omega
  have hinner : ∀ x ∈ o :: (mid ++ [c]), Within ((o.2, c.2) :: ps) x.2 := by
    intro x hx
    refine ⟨(o.2, c.2), by simp, ?_⟩
    have hoc := ho' c (by simp)
    simp only [List.mem_cons, List.mem_append, List.not_mem_nil, or_false] at hx
    rcases hx with rfl | hx | rfl
    · exact ⟨le_rfl, hoc.le⟩
    · exact ⟨(ho' x (by simp [hx])).le, (hmid' x hx c (by simp)).le⟩
    · exact ⟨hoc.le, le_rfl⟩
  have hcut : (o :: (mid ++ [c])).filter
      (fun x => decide (¬ Within ((o.2, c.2) :: ps) x.2)) = [] := by
    apply List.filter_eq_nil_iff.2
    intro x hx
    simp [hinner x hx]
  have hsplit : pre ++ o :: (mid ++ c :: post) = pre ++ (o :: (mid ++ [c]) ++ post) := by simp
  simp only [outsideAt, hwith, hwithout]
  rw [hsplit, List.filter_append, List.filter_append, hcut, List.nil_append, List.filter_append]
  congr 1
  · apply List.filter_congr
    intro x hx
    simp [houter x (.inl (hbefore x hx o (by simp)))]
  · apply List.filter_congr
    intro x hx
    simp [houter x (.inr (hafter x hx))]

/-- Shifting the positions from `n` on by `d`. -/
theorem strictMono_shift (n d : ℕ) : StrictMono fun k => if k < n then k else k + d := by
  intro a b hab
  dsimp only
  split_ifs <;> omega

/-- **Cutting out an innermost block**, the first one, leaves what is outside the pairs. -/
theorem outside_splice {pre mid post : List α} {o c : α} (ho : kind o = .opener)
    (hc : kind c = .closer) (hmid : ∀ x ∈ mid, kind x = .plain) (hpre : Blockless kind pre) :
    outside kind (pre ++ o :: (mid ++ c :: post)) = outside kind (pre ++ post) := by
  set n := pre.length
  set m := n + 1 + mid.length
  have hfull : (pre ++ o :: (mid ++ c :: post)).zipIdx =
      pre.zipIdx ++ (o, n) :: (mid.zipIdx (n + 1) ++ (c, m) :: post.zipIdx (m + 1)) := by
    simp [List.zipIdx_append, n, m]
  have hshift : pre.zipIdx ++ post.zipIdx (m + 1) = (pre ++ post).zipIdx.map
      (Prod.map id fun k => if k < n then k else k + (m + 1 - n)) := by
    have hlow : pre.zipIdx.map (Prod.map id fun k => if k < n then k else k + (m + 1 - n)) =
        pre.zipIdx := by
      rw [List.map_congr_left (g := id), List.map_id]
      rintro ⟨x, k⟩ hx
      have := List.snd_lt_of_mem_zipIdx hx
      simp only [Prod.map, id]
      rw [if_pos (by omega)]
    have hhigh : (post.zipIdx n).map (Prod.map id fun k => if k < n then k else k + (m + 1 - n)) =
        post.zipIdx (m + 1) := by
      rw [List.map_congr_left (g := Prod.map id (· + (m + 1 - n))),
        List.map_snd_add_zipIdx_eq_zipIdx]
      · congr 1
        omega
      · rintro ⟨x, k⟩ hx
        have := List.le_snd_of_mem_zipIdx hx
        simp only [Prod.map, id]
        rw [if_neg (by omega)]
    rw [List.zipIdx_append, List.map_append, hlow, Nat.zero_add, hhigh]
  rw [outside, outside, hfull, outsideAt_splice (hfull ▸ increasing_zipIdx _ 0) ho hc
    (fun x hx => hmid x.1 (List.fst_mem_of_mem_zipIdx hx)) (by simpa using hpre), hshift,
    outsideAt_map (strictMono_shift n _)]
  simp [Function.comp_def]

/-! ## Scanning for the first block -/

/-- An opener and a closer with plain items between. -/
def Block (kind : α → Kind) (block : List α) : Prop :=
  ∃ o mid c, block = o :: (mid ++ [c]) ∧ kind o = .opener ∧ kind c = .closer ∧
    ∀ x ∈ mid, kind x = .plain

variable (kind) in
/-- Look for the first closer after an opener, and return where the last opener before it begins
and where the closer ends; `n` is where the list begins, and items have the given widths. -/
def scan (width : α → ℕ) : Option ℕ → ℕ → List α → Option (ℕ × ℕ)
  | _, _, [] => none
  | start, n, x :: xs =>
    match kind x, start with
    | .opener, _ => scan width (some n) (n + width x) xs
    | .closer, some i => some (i, n + width x)
    | .closer, none => scan width none (n + width x) xs
    | .plain, start => scan width start (n + width x) xs

/-- After an opener: there are no closers, or the first one ends a block that begins there or
later. -/
theorem scan_some_cases (width : α → ℕ) (i n : ℕ) (xs : List α) :
    (scan kind width (some i) n xs = none ∧ ∀ x ∈ xs, kind x ≠ .closer) ∨
    (∃ mid c post, xs = mid ++ c :: post ∧ kind c = .closer ∧ (∀ x ∈ mid, kind x = .plain) ∧
      scan kind width (some i) n xs =
        some (i, n + ((mid ++ [c]).map width).sum)) ∨
    ∃ pre block post, xs = pre ++ (block ++ post) ∧ (∀ x ∈ pre, kind x ≠ .closer) ∧
      Block kind block ∧ scan kind width (some i) n xs =
        some (n + (pre.map width).sum, n + ((pre ++ block).map width).sum) := by
  induction xs generalizing i n with
  | nil => exact .inl ⟨rfl, by simp⟩
  | cons x xs ih =>
    cases hk : kind x with
    | closer => exact .inr (.inl ⟨[], x, xs, rfl, hk, by simp, by simp [scan, hk]⟩)
    | opener =>
      rcases ih n (n + width x) with ⟨hs, hno⟩ | ⟨mid, c, post, rfl, hc, hmid, hs⟩ |
        ⟨pre, block, post, rfl, hpre, hb, hs⟩
      · exact .inl ⟨by simp [scan, hk, hs], by simpa [hk] using hno⟩
      · refine .inr (.inr ⟨[], x :: (mid ++ [c]), post, by simp, by simp,
          ⟨x, mid, c, rfl, hk, hc, hmid⟩, ?_⟩)
        simp [scan, hk, hs, Nat.add_assoc]
      · refine .inr (.inr ⟨x :: pre, block, post, by simp, by simpa [hk] using hpre, hb, ?_⟩)
        simp [scan, hk, hs, Nat.add_assoc]
    | plain =>
      rcases ih i (n + width x) with ⟨hs, hno⟩ | ⟨mid, c, post, rfl, hc, hmid, hs⟩ |
        ⟨pre, block, post, rfl, hpre, hb, hs⟩
      · exact .inl ⟨by simp [scan, hk, hs], by simpa [hk] using hno⟩
      · refine .inr (.inl ⟨x :: mid, c, post, by simp, hc, by simpa [hk] using hmid, ?_⟩)
        simp [scan, hk, hs, Nat.add_assoc]
      · refine .inr (.inr ⟨x :: pre, block, post, by simp, by simpa [hk] using hpre, hb, ?_⟩)
        simp [scan, hk, hs, Nat.add_assoc]

theorem blockless_of_no_closer {xs : List α} (h : ∀ x ∈ xs, kind x ≠ .closer) :
    Blockless kind xs :=
  List.pairwise_of_forall_mem_list fun _ _ _ hy hb => h _ hy hb.2

/-- **The scan** finds an innermost block with no block before it, or there is none. -/
theorem scan_cases (width : α → ℕ) (n : ℕ) (xs : List α) :
    (scan kind width none n xs = none ∧ Blockless kind xs) ∨
    ∃ pre block post, xs = pre ++ (block ++ post) ∧ Blockless kind pre ∧ Block kind block ∧
      scan kind width none n xs =
        some (n + (pre.map width).sum, n + ((pre ++ block).map width).sum) := by
  induction xs generalizing n with
  | nil => exact .inl ⟨rfl, .nil⟩
  | cons x xs ih =>
    -- An item that is no opener starts no block.
    have hskip : kind x ≠ .opener → ∀ ys, Blockless kind ys → Blockless kind (x :: ys) :=
      fun hx ys hys => List.pairwise_cons.2 ⟨fun _ _ hb => hx hb.1, hys⟩
    by_cases hx : kind x = .opener
    · rcases @scan_some_cases _ kind width n (n + width x) xs with ⟨hs, hno⟩ |
        ⟨mid, c, post, rfl, hc, hmid, hs⟩ | ⟨pre, block, post, rfl, hpre, hb, hs⟩
      · refine .inl ⟨by simp [scan, hx, hs], blockless_of_no_closer ?_⟩
        simpa [hx] using hno
      · refine .inr ⟨[], x :: (mid ++ [c]), post, by simp, .nil, ⟨x, mid, c, rfl, hx, hc, hmid⟩, ?_⟩
        simp [scan, hx, hs, Nat.add_assoc]
      · refine .inr ⟨x :: pre, block, post, by simp, blockless_of_no_closer ?_, hb, ?_⟩
        · simpa [hx] using hpre
        · simp [scan, hx, hs, Nat.add_assoc]
    · have hscan : scan kind width none n (x :: xs) = scan kind width none (n + width x) xs := by
        cases hk : kind x <;> simp_all [scan]
      rcases ih (n + width x) with ⟨hs, hno⟩ | ⟨pre, block, post, rfl, hpre, hb, hs⟩
      · exact .inl ⟨hscan.trans hs, hskip hx _ hno⟩
      · refine .inr ⟨x :: pre, block, post, by simp, hskip hx _ hpre, hb, ?_⟩
        simp [hscan, hs, Nat.add_assoc]

/-- Only the kinds of the items matter. -/
theorem blockless_map {xs : List α} : Blockless id (xs.map kind) ↔ Blockless kind xs := by
  simp [Blockless, List.pairwise_map]

theorem scan_eq_none (width : α → ℕ) (n : ℕ) {xs : List α} :
    scan kind width none n xs = none ↔ Blockless kind xs := by
  rcases @scan_cases _ kind width n xs with ⟨hs, hb⟩ | ⟨pre, block, post, rfl, -, hb, hs⟩
  · exact iff_of_true hs hb
  · obtain ⟨o, mid, c, rfl, ho, hc, -⟩ := hb
    refine iff_of_false (by rw [hs]; simp) fun h => ?_
    have hblock := (List.pairwise_append.1 (List.pairwise_append.1 h).2.1).1
    exact (List.pairwise_cons.1 hblock).1 c (by simp) ⟨ho, hc⟩

theorem outside_block {pre block : List α} (hpre : Blockless kind pre) (hb : Block kind block)
    (post : List α) : outside kind (pre ++ (block ++ post)) = outside kind (pre ++ post) := by
  obtain ⟨o, mid, c, rfl, ho, hc, hmid⟩ := hb
  simpa using outside_splice ho hc hmid hpre

theorem Block.length_pos {block : List α} (hb : Block kind block) : 0 < block.length := by
  obtain ⟨o, mid, c, rfl, -⟩ := hb
  simp

theorem scan_append_no_closer (width : α → ℕ) {pre : List α} (h : ∀ x ∈ pre, kind x ≠ .closer)
    (start : Option ℕ) (n : ℕ) (xs : List α) : ∃ start',
      scan kind width start n (pre ++ xs) =
        scan kind width start' (n + (pre.map width).sum) xs := by
  induction pre generalizing start n with
  | nil => exact ⟨start, rfl⟩
  | cons x pre ih =>
    have hx := h x (by simp)
    have ih := ih fun y hy => h y (by simp [hy])
    cases hk : kind x with
    | closer => exact absurd hk hx
    | opener =>
      obtain ⟨start', hs⟩ := ih (some n) (n + width x)
      exact ⟨start', by simp [scan, hk, hs, Nat.add_assoc]⟩
    | plain =>
      obtain ⟨start', hs⟩ := ih start (n + width x)
      exact ⟨start', by simp [scan, hk, hs, Nat.add_assoc]⟩

theorem scan_append_blockless (width : α → ℕ) {pre : List α} (h : Blockless kind pre) (n : ℕ)
    (xs : List α) : ∃ start,
      scan kind width none n (pre ++ xs) = scan kind width start (n + (pre.map width).sum) xs := by
  induction pre generalizing n with
  | nil => exact ⟨none, rfl⟩
  | cons x pre ih =>
    obtain ⟨hx, hpre⟩ := List.pairwise_cons.1 h
    obtain ⟨start, hs⟩ := ih hpre (n + width x)
    cases hk : kind x with
    | opener =>
      have hno : ∀ y ∈ pre, kind y ≠ .closer := fun y hy hc => hx y hy ⟨hk, hc⟩
      obtain ⟨start, hs⟩ := scan_append_no_closer width hno (some n) (n + width x) xs
      exact ⟨start, by simp [scan, hk, hs, Nat.add_assoc]⟩
    | closer => exact ⟨start, by simp [scan, hk, hs, Nat.add_assoc]⟩
    | plain => exact ⟨start, by simp [scan, hk, hs, Nat.add_assoc]⟩

theorem scan_block (width : α → ℕ) {block : List α} (hb : Block kind block) (start : Option ℕ)
    (n : ℕ) : scan kind width start n block = some (n, n + (block.map width).sum) := by
  obtain ⟨o, mid, c, rfl, ho, hc, hmid⟩ := hb
  have hplain : ∀ {mid : List α}, (∀ x ∈ mid, kind x = .plain) → ∀ m,
      scan kind width (some n) m (mid ++ [c]) = some (n, m + ((mid ++ [c]).map width).sum) := by
    intro mid hmid
    induction mid with
    | nil => simp [scan, hc]
    | cons x mid ih =>
      intro m
      have hx := hmid x (by simp)
      have ih := ih (fun y hy => hmid y (by simp [hy])) (m + width x)
      simp [scan, hx, ih, Nat.add_assoc]
  simp [scan, ho, hplain hmid, Nat.add_assoc]

/-- A block at the end of a list without blocks is its one pair. -/
theorem pairs_block_end {pre block : List α} (hpre : Blockless kind pre) (hb : Block kind block) :
    pairs kind [] (pre ++ block).zipIdx = [(pre.length, pre.length + block.length - 1)] := by
  obtain ⟨o, mid, c, rfl, ho, hc, hmid⟩ := hb
  have hzip : (pre ++ o :: (mid ++ [c])).zipIdx = pre.zipIdx ++ (o, pre.length) ::
      (mid.zipIdx (pre.length + 1) ++ [(c, pre.length + 1 + mid.length)]) := by
    simp [List.zipIdx_append]
  rw [hzip, pairs_block ho hc fun x hx => hmid x.1 (List.fst_mem_of_mem_zipIdx hx),
    pairs_of_blockless (by simpa using hpre)]
  simp only [pairs, List.nil_append, List.length_cons, List.length_append, List.length_nil]
  congr 2
  omega

/-- Outside the pairs, no block is left. -/
theorem blockless_outside (kind : α → Kind) (xs : List α) : Blockless kind (outside kind xs) := by
  induction hn : xs.length using Nat.strong_induction_on generalizing xs with
  | _ n ih =>
    rcases @scan_cases _ kind (fun _ => 1) 0 xs with ⟨-, hb⟩ | ⟨pre, block, post, rfl, hpre, hb, -⟩
    · rwa [outside_of_blockless hb]
    · have hlen := hb.length_pos
      rw [outside_block hpre hb]
      exact ih (pre ++ post).length (by simp only [List.length_append] at hn ⊢; omega) _ rfl

/-! ## Innermost blocks -/

variable (kind)

/-- The items at `i` and `j` are an opener and a closer, and those between are plain. -/
def Innermost (xs : List α) (i j : ℕ) : Prop :=
  i < j ∧ (xs.map kind)[i]? = some .opener ∧ (xs.map kind)[j]? = some .closer ∧
    ∀ k < j, i < k → (xs.map kind)[k]? = some .plain

instance (xs : List α) (i j : ℕ) : Decidable (Innermost kind xs i j) := instDecidableAnd

/-- The position belongs to an innermost block. -/
def InInnermost (xs : List α) (k : ℕ) : Prop := ∃ i j, Innermost kind xs i j ∧ i ≤ k ∧ k ≤ j

instance (xs : List α) (k : ℕ) : Decidable (InInnermost kind xs k) :=
  decidable_of_iff (∃ i < xs.length, ∃ j < xs.length, Innermost kind xs i j ∧ i ≤ k ∧ k ≤ j) <| by
    constructor
    · rintro ⟨i, -, j, -, h⟩
      exact ⟨i, j, h⟩
    · rintro ⟨i, j, h⟩
      have hj := (List.getElem?_eq_some_iff.1 h.1.2.2.1).1
      rw [List.length_map] at hj
      exact ⟨i, h.1.1.trans hj, j, hj, h⟩

/-- Outside the innermost blocks, no closer comes after an opener. -/
def Unnested (xs : List α) : Prop :=
  ∀ i j, i < j → (xs.map kind)[i]? = some .opener → (xs.map kind)[j]? = some .closer →
    ¬ InInnermost kind xs i → InInnermost kind xs j

variable {kind}

theorem mem_pairs {stack : List ℕ} {xs : List (α × ℕ)} {p : ℕ × ℕ}
    (h : p ∈ pairs kind stack xs) :
    (p.1 ∈ stack ∨ ∃ x, (x, p.1) ∈ xs ∧ kind x = .opener) ∧
      ∃ x, (x, p.2) ∈ xs ∧ kind x = .closer := by
  induction xs generalizing stack with
  | nil => simp [pairs] at h
  | cons x xs ih =>
    obtain ⟨x, n⟩ := x
    have hlater : ∀ {q : ℕ × ℕ}, (∃ y, (y, q.2) ∈ xs ∧ kind y = .closer) →
        ∃ y, (y, q.2) ∈ (x, n) :: xs ∧ kind y = .closer :=
      fun ⟨y, hy, hc⟩ => ⟨y, by simp [hy], hc⟩
    have hmem : ∀ {i : ℕ}, (∃ y, (y, i) ∈ xs ∧ kind y = .opener) →
        ∃ y, (y, i) ∈ (x, n) :: xs ∧ kind y = .opener :=
      fun ⟨y, hy, ho⟩ => ⟨y, by simp [hy], ho⟩
    cases hk : kind x with
    | opener =>
      obtain ⟨hfst, hsnd⟩ := ih (show p ∈ pairs kind (n :: stack) xs by simpa [pairs, hk] using h)
      refine ⟨?_, hlater hsnd⟩
      rcases hfst with hfst | hfst
      · rcases List.mem_cons.1 hfst with hn | hfst
        · exact .inr ⟨x, by simp [hn], hk⟩
        · exact .inl hfst
      · exact .inr (hmem hfst)
    | closer =>
      cases stack with
      | nil =>
        obtain ⟨hfst, hsnd⟩ := ih (show p ∈ pairs kind [] xs by simpa [pairs, hk] using h)
        exact ⟨hfst.imp id hmem, hlater hsnd⟩
      | cons i stack =>
        have h : p = (i, n) ∨ p ∈ pairs kind stack xs := by simpa [pairs, hk] using h
        rcases h with rfl | h
        · exact ⟨.inl (by simp), x, by simp, hk⟩
        · obtain ⟨hfst, hsnd⟩ := ih h
          exact ⟨hfst.imp (List.mem_cons_of_mem i) hmem, hlater hsnd⟩
    | plain =>
      obtain ⟨hfst, hsnd⟩ := ih (show p ∈ pairs kind stack xs by simpa [pairs, hk] using h)
      exact ⟨hfst.imp id hmem, hlater hsnd⟩

/-- Openers are matched once. -/
theorem nodup_pairs_fst {stack : List ℕ} {xs : List (α × ℕ)}
    (h : (stack ++ xs.map Prod.snd).Nodup) : ((pairs kind stack xs).map Prod.fst).Nodup := by
  induction xs generalizing stack with
  | nil => simp [pairs]
  | cons x xs ih =>
    obtain ⟨x, n⟩ := x
    have hrest : (stack ++ xs.map Prod.snd).Nodup := by
      refine h.sublist (List.Sublist.append_left ?_ _)
      simp
    cases hk : kind x with
    | opener =>
      have hpush : (n :: stack ++ xs.map Prod.snd).Nodup := List.perm_middle.nodup_iff.1 h
      simpa [pairs, hk] using ih hpush
    | closer =>
      cases stack with
      | nil => simpa [pairs, hk] using ih hrest
      | cons i stack =>
        obtain ⟨hi, hrest⟩ := List.nodup_cons.1 hrest
        simp only [pairs, hk, List.map_cons, List.nodup_cons]
        refine ⟨?_, ih hrest⟩
        intro hmem
        obtain ⟨p, hp, rfl⟩ := List.mem_map.1 hmem
        rcases (mem_pairs hp).1 with hs | ⟨y, hy, -⟩
        · exact hi (List.mem_append_left _ hs)
        · exact hi (List.mem_append_right _ (List.mem_map.2 ⟨_, hy, rfl⟩))
    | plain => simpa [pairs, hk] using ih hrest

/-- Closers are matched once. -/
theorem nodup_pairs_snd {stack : List ℕ} {xs : List (α × ℕ)} (h : (xs.map Prod.snd).Nodup) :
    ((pairs kind stack xs).map Prod.snd).Nodup := by
  induction xs generalizing stack with
  | nil => simp [pairs]
  | cons x xs ih =>
    obtain ⟨x, n⟩ := x
    obtain ⟨hn, hrest⟩ := List.nodup_cons.1 h
    cases hk : kind x with
    | opener => simpa [pairs, hk] using ih hrest
    | closer =>
      cases stack with
      | nil => simpa [pairs, hk] using ih hrest
      | cons i stack =>
        simp only [pairs, hk, List.map_cons, List.nodup_cons]
        refine ⟨?_, ih hrest⟩
        intro hmem
        obtain ⟨p, hp, hpn⟩ := List.mem_map.1 hmem
        obtain ⟨y, hy, -⟩ := (mem_pairs hp).2
        exact hn (List.mem_map.2 ⟨_, hy, hpn⟩)
    | plain => simpa [pairs, hk] using ih hrest

theorem getElem?_zipIdx_of_kind {xs : List α} {i : ℕ} {k : Kind}
    (h : (xs.map kind)[i]? = some k) : ∃ x, xs.zipIdx[i]? = some (x, i) ∧ kind x = k := by
  simpa using h

theorem Innermost.mem_pairs {xs : List α} {i j : ℕ} (h : Innermost kind xs i j) :
    (i, j) ∈ pairs kind [] xs.zipIdx := by
  obtain ⟨hij, hi, hj, hbetween⟩ := h
  obtain ⟨o, ho, hok⟩ := getElem?_zipIdx_of_kind hi
  obtain ⟨c, hc, hck⟩ := getElem?_zipIdx_of_kind hj
  set ys := xs.zipIdx
  obtain ⟨hil, hio⟩ := List.getElem?_eq_some_iff.1 ho
  obtain ⟨hjl, hjc⟩ := List.getElem?_eq_some_iff.1 hc
  have hsplit : ys = ys.take i ++ (o, i) :: ((ys.drop (i + 1)).take (j - i - 1) ++
      (c, j) :: ys.drop (j + 1)) := by
    have hlast : (ys.drop (i + 1)).drop (j - i - 1) = (c, j) :: ys.drop (j + 1) := by
      rw [List.drop_drop, show i + 1 + (j - i - 1) = j by omega, List.drop_eq_getElem_cons hjl, hjc]
    rw [← hlast, List.take_append_drop, ← hio, ← List.drop_eq_getElem_cons hil,
      List.take_append_drop]
  have hmid : ∀ x ∈ (ys.drop (i + 1)).take (j - i - 1), kind x.1 = .plain := by
    intro x hx
    obtain ⟨n, hn, rfl⟩ := List.mem_iff_getElem.1 hx
    simp only [List.length_take, List.length_drop] at hn
    have hplain := hbetween (i + 1 + n) (by omega) (by omega)
    obtain ⟨y, hy, hyk⟩ := getElem?_zipIdx_of_kind hplain
    obtain ⟨hl, hget⟩ := List.getElem?_eq_some_iff.1 hy
    simp [List.getElem_take, List.getElem_drop, ys, hget, hyk]
  rw [hsplit, pairs_block hok hck hmid]
  simp

theorem nodup_positions (xs : List α) : (xs.zipIdx.map Prod.snd).Nodup := by
  simp [List.nodup_range']

/-- **No nesting**: a matched pair is an innermost block. -/
theorem Unnested.inInnermost {xs : List α} (h : Unnested kind xs) {k : ℕ}
    (hk : Within (pairs kind [] xs.zipIdx) k) : InInnermost kind xs k := by
  obtain ⟨⟨i, j⟩, hp, hik, hkj⟩ := hk
  have hinj : ∀ {i' j' : ℕ}, Innermost kind xs i' j' → i = i' ∨ j = j' → InInnermost kind xs k := by
    intro i' j' hin hor
    have hpair := hin.mem_pairs
    have heq : (i, j) = (i', j') := by
      rcases hor with hi | hj
      · exact List.inj_on_of_nodup_map (nodup_pairs_fst (nodup_positions xs)) hp hpair hi
      · exact List.inj_on_of_nodup_map (nodup_pairs_snd (nodup_positions xs)) hp hpair hj
    cases heq
    exact ⟨i, j, hin, hik, hkj⟩
  obtain ⟨ho, c, hc, hck⟩ := mem_pairs hp
  obtain ⟨o, ho, hok⟩ := ho.resolve_left (by simp)
  have hi : (xs.map kind)[i]? = some .opener := by
    simp [List.mk_mem_zipIdx_iff_getElem?.1 ho, hok]
  have hj : (xs.map kind)[j]? = some .closer := by
    simp [List.mk_mem_zipIdx_iff_getElem?.1 hc, hck]
  have hne : i ≠ j := by
    rintro rfl
    simp [hi] at hj
  -- The block that a marker of the pair belongs to begins or ends there.
  have hopener : ∀ i' j', Innermost kind xs i' j' → i' ≤ i → i ≤ j' → i = i' := by
    rintro i' j' ⟨hlt, ho', hc', hbetween⟩ h₁ h₂
    by_contra hii
    rcases h₂.lt_or_eq with h₂ | rfl
    · have := hbetween i h₂ (by omega)
      simp [hi] at this
    · simp [hi] at hc'
  have hcloser : ∀ i' j', Innermost kind xs i' j' → i' ≤ j → j ≤ j' → j = j' := by
    rintro i' j' ⟨hlt, ho', hc', hbetween⟩ h₁ h₂
    by_contra hjj
    rcases h₁.lt_or_eq with h₁ | rfl
    · have := hbetween j (by omega) h₁
      simp [hj] at this
    · simp [hj] at ho'
  by_cases hin : InInnermost kind xs i
  · obtain ⟨i', j', hin, h₁, h₂⟩ := hin
    exact hinj hin (.inl (hopener i' j' hin h₁ h₂))
  · obtain ⟨i', j', hin, h₁, h₂⟩ := h i j (by omega) hi hj hin
    exact hinj hin (.inr (hcloser i' j' hin h₁ h₂))

/-- When only positions of innermost blocks are dropped and no block is left, there was no
nesting. -/
theorem unnested_of_kept {xs : List α} (kept : ℕ → Bool)
    (hblockless : Blockless kind ((xs.zipIdx.filter fun x => kept x.2).map Prod.fst))
    (hdropped : ∀ k < xs.length, kept k = false → InInnermost kind xs k) : Unnested kind xs := by
  intro i j hij hi hj hni
  by_contra hnj
  obtain ⟨o, ho, hok⟩ := getElem?_zipIdx_of_kind hi
  obtain ⟨c, hc, hck⟩ := getElem?_zipIdx_of_kind hj
  have hkept : ∀ {k : ℕ} {x : α}, xs.zipIdx[k]? = some (x, k) → ¬ InInnermost kind xs k →
      (x, k) ∈ xs.zipIdx.filter fun x => kept x.2 := by
    intro k x hx hn
    refine List.mem_filter.2 ⟨List.mem_of_getElem? hx, ?_⟩
    have hlt : k < xs.length := by
      have := (List.getElem?_eq_some_iff.1 hx).1
      simpa using this
    exact Bool.of_not_eq_false fun hf => hn (hdropped k hlt hf)
  have hsorted : (xs.zipIdx.filter fun x => kept x.2).Pairwise fun x y =>
      x.2 < y.2 ∧ ¬ (kind x.1 = .opener ∧ kind y.1 = .closer) :=
    ((increasing_zipIdx xs 0).filter _).and (List.pairwise_map.1 hblockless)
  obtain ⟨a, ha, hoa⟩ := List.mem_iff_getElem.1 (hkept ho hni)
  obtain ⟨b, hb, hcb⟩ := List.mem_iff_getElem.1 (hkept hc hnj)
  have horder := List.pairwise_iff_getElem.1 hsorted
  rcases lt_trichotomy a b with hab | rfl | hab
  · have := (horder a b ha hb hab).2
    simp [hoa, hcb, hok, hck] at this
  · have := congrArg Prod.snd (hoa.symm.trans hcb)
    simp only at this
    omega
  · have := (horder b a hb ha hab).1
    simp only [hoa, hcb] at this
    omega

end Brackets

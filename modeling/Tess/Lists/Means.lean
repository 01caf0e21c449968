import Mathlib.Algebra.BigOperators.Group.List.Basic
import Mathlib.Algebra.Order.BigOperators.Group.List
import Mathlib.Algebra.Order.Field.Basic
import Mathlib.Tactic.Linarith
import Mathlib.Tactic.Ring

/-!
# Means of a list

A mean is reached by an entry, and exceeded by one where all entries exceed a bound. The variance
of a list is the least mean square around a point, and so it is no more than a quarter of the square
of a range that holds the list: a list of a large variance has two entries far apart.
-/

namespace Lists

variable {F : Type*} [Field F]

/-- The squares around a point. -/
def squaresAround (l : List F) (c : F) : F := (l.map fun d => (d - c) * (d - c)).sum

theorem squaresAround_eq (l : List F) (c : F) : squaresAround l c =
    (l.map fun d => d * d).sum - 2 * c * l.sum + (l.length : F) * (c * c) := by
  unfold squaresAround
  induction l with
  | nil => simp
  | cons d l ih =>
    rw [List.map_cons, List.sum_cons, ih, List.map_cons, List.sum_cons, List.sum_cons,
      List.length_cons, Nat.cast_succ]
    ring

variable [LinearOrder F] [IsStrictOrderedRing F] {l : List F}

theorem length_pos (hl : l ≠ []) : (0 : F) < (l.length : F) :=
  Nat.cast_pos.2 (List.length_pos_iff.2 hl)

/-- No mean is above all entries. -/
theorem exists_le_of_le_mean (hl : l ≠ []) {m : F} (h : m ≤ l.sum / (l.length : F)) :
    ∃ d ∈ l, m ≤ d := by
  have hsum : (l.map fun _ => m).sum ≤ (l.map id).sum := by
    rw [List.map_id, List.map_const', List.sum_replicate, nsmul_eq_mul, mul_comm]
    exact (le_div_iff₀ (length_pos hl)).1 h
  exact List.exists_le_of_sum_le hl _ _ hsum

/-- Entries above a bound have a mean above it. -/
theorem lt_mean (hl : l ≠ []) {m : F} (h : ∀ d ∈ l, m < d) : m < l.sum / (l.length : F) := by
  have hsum : (l.map fun _ => m).sum < (l.map id).sum := List.sum_lt_sum_of_ne_nil hl _ _ h
  rw [List.map_id, List.map_const', List.sum_replicate, nsmul_eq_mul, mul_comm] at hsum
  exact (lt_div_iff₀ (length_pos hl)).2 hsum

/-- The squares around the mean are the least. -/
theorem squaresAround_mean_le (hl : l ≠ []) (c : F) :
    squaresAround l (l.sum / (l.length : F)) ≤ squaresAround l c := by
  have hsum : l.sum = l.sum / (l.length : F) * (l.length : F) :=
    (div_mul_cancel₀ _ (length_pos hl).ne').symm
  generalize l.sum / (l.length : F) = m at hsum ⊢
  have hsquare : 0 ≤ (l.length : F) * ((c - m) * (c - m)) :=
    mul_nonneg (length_pos hl).le (mul_self_nonneg _)
  rw [squaresAround_eq, squaresAround_eq, hsum]
  linarith

/-- **A list within a range** has a variance of at most the square of half the range. -/
theorem variance_le (hl : l ≠ []) {lo hi : F} (h : ∀ d ∈ l, lo ≤ d ∧ d ≤ hi) :
    squaresAround l (l.sum / (l.length : F)) / (l.length : F) ≤
      (hi - lo) / 2 * ((hi - lo) / 2) := by
  rw [div_le_iff₀ (length_pos hl), mul_comm, ← nsmul_eq_mul]
  refine (squaresAround_mean_le hl ((lo + hi) / 2)).trans ?_
  have hsquare : ∀ x ∈ l.map fun d => (d - (lo + hi) / 2) * (d - (lo + hi) / 2),
      x ≤ (hi - lo) / 2 * ((hi - lo) / 2) := by
    intro x hx
    obtain ⟨d, hd, rfl⟩ := List.mem_map.1 hx
    obtain ⟨hlo, hhi⟩ := h d hd
    rw [← abs_mul_abs_self (d - (lo + hi) / 2)]
    have habs : |d - (lo + hi) / 2| ≤ (hi - lo) / 2 := abs_le.2 ⟨by linarith, by linarith⟩
    exact mul_self_le_mul_self (abs_nonneg _) habs
  simpa [squaresAround] using List.sum_le_card_nsmul _ _ hsquare

/-- The entries of a list lie between two of them. -/
theorem exists_range {α : Type*} [LinearOrder α] {l : List α} (hl : l ≠ []) :
    ∃ lo ∈ l, ∃ hi ∈ l, ∀ d ∈ l, lo ≤ d ∧ d ≤ hi := by
  induction l with
  | nil => exact absurd rfl hl
  | cons a l ih =>
    cases l with
    | nil => exact ⟨a, by simp, a, by simp, by simp⟩
    | cons b l =>
      obtain ⟨lo, hlo, hi, hhi, hall⟩ := ih (List.cons_ne_nil b l)
      have hmin : min a lo ∈ a :: b :: l := by
        obtain h | h := min_choice a lo <;> rw [h]
        · exact List.mem_cons_self
        · exact List.mem_cons_of_mem a hlo
      have hmax : max a hi ∈ a :: b :: l := by
        obtain h | h := max_choice a hi <;> rw [h]
        · exact List.mem_cons_self
        · exact List.mem_cons_of_mem a hhi
      refine ⟨min a lo, hmin, max a hi, hmax, List.forall_mem_cons.2 ⟨?_, fun d hd => ?_⟩⟩
      · exact ⟨min_le_left a lo, le_max_left a hi⟩
      · exact ⟨(min_le_right a lo).trans (hall d hd).1, (hall d hd).2.trans (le_max_right a hi)⟩

/-- **A list of a large variance** has two entries far apart. -/
theorem exists_far_apart (hl : l ≠ []) {s : F} (hs : 0 ≤ s)
    (h : s * s ≤ squaresAround l (l.sum / (l.length : F)) / (l.length : F)) :
    ∃ d ∈ l, ∃ d' ∈ l, 2 * s ≤ d' - d := by
  obtain ⟨lo, hlo, hi, hhi, hall⟩ := exists_range hl
  have hhalf : 0 ≤ (hi - lo) / 2 := by
    have := (hall lo hlo).2
    linarith
  have hle := (mul_self_le_mul_self_iff hs hhalf).2 (h.trans (variance_le hl hall))
  refine ⟨lo, hlo, hi, hhi, ?_⟩
  linarith

end Lists

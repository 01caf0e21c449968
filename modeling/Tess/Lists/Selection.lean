import Mathlib.Data.List.Sort
import Mathlib.Order.Lattice

/-!
# Selecting from a list

The median of a list as a majority, the upper one of the two where the length is even; the greedy
choice of entries that do not clash, in the order of a list; the last of the greatest entries, and
the first of them as it is kept while the list goes on.
-/

namespace Lists

section Median

variable {α : Type*} [LinearOrder α]

/-- The entry at a place of a sorted list is bounded by what bounds more entries than come before
it. -/
theorem getElem_le_iff_lt_countP {l : List α} (h : l.Pairwise (· ≤ ·)) {k : ℕ} (hk : k < l.length)
    (t : α) : l[k] ≤ t ↔ k < l.countP (· ≤ t) := by
  induction l generalizing k with
  | nil => simp at hk
  | cons a l ih =>
    obtain ⟨ha, hl⟩ := List.pairwise_cons.1 h
    by_cases hat : a ≤ t
    · cases k with
      | zero => simp [hat]
      | succ k => simp [hat, ih hl (Nat.lt_of_succ_lt_succ hk)]
    · have hzero : l.countP (· ≤ t) = 0 :=
        List.countP_eq_zero.2 fun b hb => by simpa using (not_le.1 hat).trans_le (ha b hb)
      have hgt : t < (a :: l)[k] := by
        cases k with
        | zero => exact not_le.1 hat
        | succ k => exact (not_le.1 hat).trans_le (ha _ (List.getElem_mem _))
      simp [hat, hzero, hgt]

/-- The entry in the middle, the upper one of two. -/
def median (l : List α) (h : l ≠ []) : α :=
  (l.insertionSort (· ≤ ·)).get ⟨l.length / 2, by
    rw [List.length_insertionSort]
    exact Nat.div_lt_self (List.length_pos_iff.2 h) Nat.one_lt_two⟩

/-- **The median is a majority vote.** -/
theorem median_le_iff {l : List α} (h : l ≠ []) (t : α) :
    median l h ≤ t ↔ l.length < 2 * l.countP (· ≤ t) := by
  have hsorted : (l.insertionSort (· ≤ ·)).Pairwise (· ≤ ·) := List.pairwise_insertionSort (· ≤ ·) l
  have hcount : (l.insertionSort (· ≤ ·)).countP (· ≤ t) = l.countP (· ≤ t) :=
    (List.perm_insertionSort _ l).countP_eq _
  unfold median
  rw [List.get_eq_getElem, getElem_le_iff_lt_countP hsorted, hcount]
  change l.length / 2 < _ ↔ _
  omega

theorem median_perm {l l' : List α} (hp : l.Perm l') (h : l ≠ []) (h' : l' ≠ []) :
    median l h = median l' h' := by
  refine eq_of_forall_ge_iff fun t => ?_
  rw [median_le_iff, median_le_iff, hp.length_eq, hp.countP_eq]

end Median

section Greedy

variable {α : Type*} {r : α → α → Prop} (clash : α → α → Bool)

/-- Keep each entry that does not clash with one that is kept already. -/
def greedyFrom : List α → List α → List α
  | keep, [] => keep
  | keep, d :: l => greedyFrom (if keep.any (clash d) then keep else keep ++ [d]) l

def greedy (l : List α) : List α := greedyFrom clash [] l

variable {clash}

theorem greedyFrom_keeps (keep l : List α) : keep <+: greedyFrom clash keep l := by
  induction l generalizing keep with
  | nil => exact List.prefix_rfl
  | cons d l ih =>
    unfold greedyFrom
    split
    · exact ih keep
    · exact (List.prefix_append keep [d]).trans (ih (keep ++ [d]))

theorem greedyFrom_sublist (keep l : List α) :
    List.Sublist (greedyFrom clash keep l) (keep ++ l) := by
  induction l generalizing keep with
  | nil => exact List.sublist_append_left keep []
  | cons d l ih =>
    unfold greedyFrom
    split
    · exact (ih keep).trans ((List.Sublist.refl keep).append (List.sublist_cons_self d l))
    · simpa using ih (keep ++ [d])

/-- The entries that are kept do not clash with those before them. -/
theorem greedyFrom_pairwise {keep : List α} (hkeep : keep.Pairwise fun a b => clash b a = false)
    (l : List α) : (greedyFrom clash keep l).Pairwise fun a b => clash b a = false := by
  induction l generalizing keep with
  | nil => exact hkeep
  | cons d l ih =>
    unfold greedyFrom
    split
    next => exact ih hkeep
    next h =>
      refine ih (List.pairwise_append.2 ⟨hkeep, List.pairwise_singleton _ d, ?_⟩)
      intro a ha b hb
      rw [List.mem_singleton.1 hb]
      have hall : ∀ x ∈ keep, ¬ clash d x = true := by simpa using h
      exact Bool.eq_false_iff.2 (hall a ha)

/-- **The entries that are left out** clash each with one that is kept and comes before it. -/
theorem greedyFrom_dropped {keep l : List α} (hr : (keep ++ l).Pairwise r) :
    ∃ dropped, (greedyFrom clash keep l ++ dropped).Perm (keep ++ l) ∧
      ∀ d ∈ dropped, ∃ k ∈ greedyFrom clash keep l, clash d k = true ∧ r k d := by
  induction l generalizing keep with
  | nil => exact ⟨[], .rfl, nofun⟩
  | cons d l ih =>
    unfold greedyFrom
    split
    next h =>
      obtain ⟨k, hk, hclash⟩ := List.any_eq_true.1 h
      have hsub : List.Sublist (keep ++ l) (keep ++ d :: l) :=
        (List.Sublist.refl keep).append (List.sublist_cons_self d l)
      obtain ⟨dropped, hperm, hdropped⟩ := ih (hr.sublist hsub)
      refine ⟨d :: dropped, ?_, ?_⟩
      · exact List.perm_middle.trans ((hperm.cons d).trans List.perm_middle.symm)
      · intro d' hd'
        obtain rfl | hd' := List.mem_cons.1 hd'
        · refine ⟨k, (greedyFrom_keeps keep l).subset hk, hclash, ?_⟩
          exact (List.pairwise_append.1 hr).2.2 k hk d' List.mem_cons_self
        · exact hdropped d' hd'
    next =>
      have hcons : keep ++ d :: l = keep ++ [d] ++ l := List.append_cons keep d l
      rw [hcons] at hr ⊢
      exact ih hr

theorem greedy_sublist (l : List α) : List.Sublist (greedy clash l) l := greedyFrom_sublist [] l

theorem greedy_pairwise (l : List α) : (greedy clash l).Pairwise fun a b => clash b a = false :=
  greedyFrom_pairwise List.Pairwise.nil l

theorem greedy_dropped {l : List α} (hr : l.Pairwise r) :
    ∃ dropped, (greedy clash l ++ dropped).Perm l ∧
      ∀ d ∈ dropped, ∃ k ∈ greedy clash l, clash d k = true ∧ r k d := greedyFrom_dropped hr

end Greedy

section MaxBy

variable {α β : Type*} [LinearOrder β] {greater : α → α → Bool} {key : α → β}

/-- The last of the greatest entries. -/
def maxBy (greater : α → α → Bool) : List α → Option α
  | [] => none
  | a :: l => some (l.foldl (fun x y => if greater x y then x else y) a)

theorem foldl_max (hkey : ∀ x y, greater x y = true ↔ key y < key x) (l : List α) (a : α) :
    l.foldl (fun x y => if greater x y then x else y) a ∈ a :: l ∧
      ∀ x ∈ a :: l, key x ≤ key (l.foldl (fun x y => if greater x y then x else y) a) := by
  induction l generalizing a with
  | nil => simp
  | cons b l ih =>
    rw [List.foldl_cons]
    by_cases h : greater a b = true
    · rw [if_pos h]
      obtain ⟨hmem, hmax⟩ := ih a
      have hba : key b ≤ key a := ((hkey a b).1 h).le
      constructor
      · exact List.cons_subset_cons a (List.subset_cons_self b l) hmem
      · intro x hx
        obtain rfl | hx := List.mem_cons.1 hx
        · exact hmax x List.mem_cons_self
        obtain rfl | hx := List.mem_cons.1 hx
        · exact hba.trans (hmax a List.mem_cons_self)
        · exact hmax x (List.mem_cons_of_mem a hx)
    · rw [if_neg h]
      obtain ⟨hmem, hmax⟩ := ih b
      have hab : key a ≤ key b := not_lt.1 fun hlt => h ((hkey a b).2 hlt)
      refine ⟨List.mem_cons_of_mem a hmem, ?_⟩
      intro x hx
      obtain rfl | hx := List.mem_cons.1 hx
      · exact hab.trans (hmax b List.mem_cons_self)
      · exact hmax x hx

theorem maxBy_eq_none_iff {l : List α} : maxBy greater l = none ↔ l = [] := by
  cases l <;> simp [maxBy]

theorem maxBy_eq_some (hkey : ∀ x y, greater x y = true ↔ key y < key x) {l : List α} {m : α}
    (h : maxBy greater l = some m) : m ∈ l ∧ ∀ x ∈ l, key x ≤ key m := by
  cases l with
  | nil => cases h
  | cons a l =>
    obtain rfl := Option.some.inj h
    exact foldl_max hkey l a

end MaxBy

section FirstMax

variable {α β : Type*} [LinearOrder β] {key : α → β}

/-- The first of the greatest entries, where there is one. -/
def FirstMax (key : α → β) (l : List α) : Option α → Prop
  | none => l = []
  | some b => ∃ l₁ l₂, l = l₁ ++ b :: l₂ ∧ (∀ a ∈ l₁, key a < key b) ∧ ∀ a ∈ l₂, key a ≤ key b

theorem FirstMax.nil : FirstMax key [] none := rfl

/-- One more entry takes the place of the greatest one if it is greater. -/
theorem FirstMax.snoc {l : List α} {m : Option α} (h : FirstMax key l m) (a : α) :
    FirstMax key (l ++ [a]) (if m.all fun b => key b < key a then some a else m) := by
  cases m with
  | none =>
    obtain rfl : l = [] := h
    exact ⟨[], [], rfl, by simp, by simp⟩
  | some b =>
    obtain ⟨l₁, l₂, rfl, h₁, h₂⟩ := h
    by_cases hlt : key b < key a
    · rw [if_pos (by simpa using hlt)]
      refine ⟨l₁ ++ b :: l₂, [], rfl, ?_, by simp⟩
      intro x hx
      obtain hx | hx := List.mem_append.1 hx
      · exact (h₁ x hx).trans hlt
      obtain rfl | hx := List.mem_cons.1 hx
      · exact hlt
      · exact (h₂ x hx).trans_lt hlt
    · rw [if_neg (by simpa using hlt)]
      refine ⟨l₁, l₂ ++ [a], by simp, h₁, ?_⟩
      intro x hx
      obtain hx | hx := List.mem_append.1 hx
      · exact h₂ x hx
      · rw [List.mem_singleton.1 hx]
        exact not_lt.1 hlt

end FirstMax

end Lists

import Mathlib.Algebra.BigOperators.Group.List.Basic
import Mathlib.Algebra.GroupWithZero.Nat

/-!
# Graphs searched down to a bound

A graph gives each node the list of its successors. What can be reached in at most `n` steps is a
tree of nodes, met once for each way that leads to them, and this tree is finite.

A search keeps the nodes that it has yet to visit on a stack, with the depth of each. A visit
replaces the node on top by its successors, unless it is at the bound. It loses no node that the
stack leads to but the visited one (`ahead_cons_iff`), and the trees below the stack have one node
less (`weight_visit`): every search ends.
-/

namespace Graphs

variable {α : Type*} (next : α → List α)

/-- At most `n` steps lead from one node to the other. -/
inductive Within : ℕ → α → α → Prop
  | refl (n : ℕ) (a : α) : Within n a a
  | step {n : ℕ} {a b c : α} (hb : b ∈ next a) (h : Within n b c) : Within (n + 1) a c

/-- The number of nodes of the tree below a node. -/
def size : ℕ → α → ℕ
  | 0, _ => 1
  | n + 1, a => ((next a).map (size n)).sum + 1

variable {next} {n : ℕ} {a b c : α}

theorem within_zero_iff : Within next 0 a b ↔ a = b := by
  constructor
  · intro h
    cases h
    rfl
  · rintro rfl
    exact .refl 0 a

theorem within_succ_iff : Within next (n + 1) a c ↔ a = c ∨ ∃ b ∈ next a, Within next n b c := by
  constructor
  · intro h
    cases h with
    | refl => exact .inl rfl
    | step hb h => exact .inr ⟨_, hb, h⟩
  · rintro (rfl | ⟨b, hb, h⟩)
    · exact .refl _ _
    · exact .step hb h

/-! ## The stack of a search -/

section Stack

variable (next) (bound : ℕ)

/-- The stack after its top has been visited, the last successor on top. -/
def visit (a : α) (depth : ℕ) (stack : List (α × ℕ)) : List (α × ℕ) :=
  if depth < bound then ((next a).map fun b => (b, depth + 1)).reverse ++ stack else stack

/-- A node that the stack leads to. -/
def Ahead (stack : List (α × ℕ)) (b : α) : Prop :=
  ∃ p ∈ stack, Within next (bound - p.2) p.1 b

/-- The number of visits to come. -/
def weight (stack : List (α × ℕ)) : ℕ := (stack.map fun p => size next (bound - p.2) p.1).sum

variable {next bound} {depth : ℕ} {stack : List (α × ℕ)}

@[simp] theorem not_ahead_nil : ¬ Ahead next bound [] b := by
  rintro ⟨p, hp, -⟩
  cases hp

/-- **A visit loses nothing** but the node that is visited. -/
theorem ahead_cons_iff :
    Ahead next bound ((a, depth) :: stack) c ↔
      a = c ∨ Ahead next bound (visit next bound a depth stack) c := by
  have hcons : Ahead next bound ((a, depth) :: stack) c ↔
      Within next (bound - depth) a c ∨ Ahead next bound stack c := by
    simp [Ahead]
  rw [hcons]
  by_cases hdepth : depth < bound
  · obtain ⟨n, hn⟩ : ∃ n, bound - depth = n + 1 := ⟨bound - depth - 1, by omega⟩
    have hnext : bound - (depth + 1) = n := by omega
    rw [hn, within_succ_iff, visit, if_pos hdepth]
    simp only [Ahead, List.mem_append, List.mem_reverse, List.mem_map]
    constructor
    · rintro ((rfl | ⟨b, hb, h⟩) | ⟨p, hp, h⟩)
      · exact .inl rfl
      · refine .inr ⟨(b, depth + 1), .inl ⟨b, hb, rfl⟩, ?_⟩
        rwa [hnext]
      · exact .inr ⟨p, .inr hp, h⟩
    · rintro (rfl | ⟨p, ⟨b, hb, rfl⟩ | hp, h⟩)
      · exact .inl (.inl rfl)
      · rw [hnext] at h
        exact .inl (.inr ⟨b, hb, h⟩)
      · exact .inr ⟨p, hp, h⟩
  · have hn : bound - depth = 0 := by omega
    rw [hn, within_zero_iff, visit, if_neg hdepth]

/-- **A visit is one visit less.** -/
theorem weight_visit :
    weight next bound ((a, depth) :: stack) =
      weight next bound (visit next bound a depth stack) + 1 := by
  rw [visit, weight, List.map_cons, List.sum_cons]
  change size next (bound - depth) a + _ = _
  by_cases hdepth : depth < bound
  · obtain ⟨n, hn⟩ : ∃ n, bound - depth = n + 1 := ⟨bound - depth - 1, by omega⟩
    have hnext : bound - (depth + 1) = n := by omega
    have hpushed : (((next a).map fun b => (b, depth + 1)).map fun p : α × ℕ =>
        size next (bound - p.2) p.1) = (next a).map (size next n) := by
      rw [List.map_map]
      exact List.map_congr_left fun b _ => congrArg (size next · b) hnext
    rw [if_pos hdepth, weight, List.map_append, List.sum_append, List.map_reverse, List.sum_reverse,
      hpushed, hn, size]
    omega
  · have hn : bound - depth = 0 := by omega
    rw [if_neg hdepth, hn, size, weight]
    omega

end Stack

end Graphs

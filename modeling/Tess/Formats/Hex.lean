import Mathlib.Data.List.Basic
import Mathlib.Data.Option.Basic
import Mathlib.Tactic.Common

/-!
# Chunks of a list, and hexadecimal digits

`chunks n` cuts a list into pieces of `n` elements, of which the last may be shorter. `Denotes v` is
what it means for a list of digits to spell bytes, two digits a byte with the high one first, where
`v` gives the value of a digit; the digits may be characters or their codes (`denotes_map`).
-/

namespace Hex

variable {α β : Type}

/-! ## Chunks -/

/-- The chunks of a list that is no longer than the fuel. -/
def chunksFrom (n : ℕ) : ℕ → List α → List (List α)
  | 0, _ => []
  | fuel + 1, xs => if xs.isEmpty then [] else xs.take n :: chunksFrom n fuel (xs.drop n)

def chunks (n : ℕ) (xs : List α) : List (List α) := chunksFrom n xs.length xs

@[simp] theorem chunks_nil (n : ℕ) : chunks n ([] : List α) = [] := rfl

/-- The fuel does not matter when there is enough of it. -/
theorem chunksFrom_eq {n : ℕ} (hn : 0 < n) {fuel fuel' : ℕ} {xs : List α} (h : xs.length ≤ fuel)
    (h' : xs.length ≤ fuel') : chunksFrom n fuel xs = chunksFrom n fuel' xs := by
  induction fuel generalizing fuel' xs with
  | zero =>
    obtain rfl : xs = [] := List.length_eq_zero_iff.1 (by omega)
    cases fuel' <;> rfl
  | succ fuel ih =>
    cases xs with
    | nil => cases fuel' <;> rfl
    | cons x xs =>
      cases fuel' with
      | zero => simp at h'
      | succ fuel' =>
        simp only [List.length_cons] at h h'
        have hdrop : ((x :: xs).drop n).length ≤ xs.length := by
          rw [List.length_drop, List.length_cons]
          omega
        simp only [chunksFrom, List.isEmpty_cons, Bool.false_eq_true, if_false]
        exact congrArg _ (ih (by omega) (by omega))

theorem chunks_append {n : ℕ} (hn : 0 < n) {xs : List α} (h : xs.length = n) (ys : List α) :
    chunks n (xs ++ ys) = xs :: chunks n ys := by
  cases xs with
  | nil =>
    simp only [List.length_nil] at h
    omega
  | cons x xs =>
    have hlen : (x :: xs ++ ys).length = (xs ++ ys).length + 1 := rfl
    rw [chunks, hlen, chunksFrom, if_neg (by simp), List.take_left' h, List.drop_left' h, chunks,
      chunksFrom_eq hn ?_ (Nat.le_refl _)]
    rw [List.length_append]
    omega

/-- A list no longer than a chunk is one. -/
theorem chunks_of_length_le {n : ℕ} {xs : List α} (hne : xs ≠ []) (h : xs.length ≤ n) :
    chunks n xs = [xs] := by
  cases xs with
  | nil => exact absurd rfl hne
  | cons x xs =>
    have hlen : (x :: xs).length = xs.length + 1 := rfl
    rw [chunks, hlen, chunksFrom, if_neg (by simp), List.take_of_length_le h,
      List.drop_eq_nil_of_le h]
    cases xs <;> rfl

/-- Chunks of a list whose elements are all replaced by as many. -/
theorem chunks_flatMap {n k : ℕ} (hn : 0 < n) (hk : 0 < k) {f : α → List β}
    (hf : ∀ a, (f a).length = k) (xs : List α) :
    chunks (n * k) (xs.flatMap f) = (chunks n xs).map fun c => c.flatMap f := by
  have hlength : ∀ xs : List α, (xs.flatMap f).length = xs.length * k := by
    intro xs
    induction xs with
    | nil => simp
    | cons x xs ih =>
      rw [List.flatMap_cons, List.length_append, ih, hf, List.length_cons, Nat.succ_mul]
      omega
  induction hm : xs.length using Nat.strongRecOn generalizing xs with
  | _ m ih =>
    by_cases hshort : xs.length ≤ n
    · by_cases hnil : xs = []
      · rw [hnil]
        rfl
      · rw [chunks_of_length_le hnil hshort, chunks_of_length_le ?_ ?_]
        · rfl
        · intro heq
          have := hlength xs
          rw [heq, List.length_nil] at this
          have hpos := List.length_pos_iff.2 hnil
          have := Nat.mul_pos hpos hk
          omega
        · rw [hlength]
          exact Nat.mul_le_mul_right k hshort
    · have htake : (xs.take n).length = n := by
        rw [List.length_take]
        omega
      have hdrop : (xs.drop n).length < m := by
        rw [List.length_drop]
        omega
      conv_lhs => rw [← List.take_append_drop n xs, List.flatMap_append]
      conv_rhs => rw [← List.take_append_drop n xs]
      rw [chunks_append hn htake, chunks_append (Nat.mul_pos hn hk) (by rw [hlength, htake]),
        ih _ hdrop _ rfl, List.map_cons]

/-! ## Digits -/

/-- The value of a digit, by its code. -/
def ofCode (n : ℕ) : Option ℕ :=
  if 48 ≤ n ∧ n ≤ 57 then some (n - 48)
  else if 97 ≤ n ∧ n ≤ 102 then some (n - 87)
  else if 65 ≤ n ∧ n ≤ 70 then some (n - 55)
  else none

def value (c : Char) : Option ℕ := ofCode c.toNat

theorem ofCode_eq_some {n v : ℕ} :
    ofCode n = some v ↔ v < 16 ∧ (v < 10 ∧ n = v + 48 ∨ 10 ≤ v ∧ (n = v + 87 ∨ n = v + 55)) := by
  rw [ofCode]
  split_ifs <;> simp <;> omega

/-- The digits spell the bytes. -/
inductive Denotes (v : α → Option ℕ) : List α → List UInt8 → Prop
  | nil : Denotes v [] []
  | cons {c d : α} {hi lo : ℕ} {b : UInt8} {ds : List α} {bs : List UInt8} (hc : v c = some hi)
      (hd : v d = some lo) (hb : b.toNat = 16 * hi + lo) (h : Denotes v ds bs) :
      Denotes v (c :: d :: ds) (b :: bs)

variable {v : α → Option ℕ} {ds : List α} {bs bs' : List UInt8}

theorem Denotes.length (h : Denotes v ds bs) : ds.length = 2 * bs.length := by
  induction h with
  | nil => rfl
  | cons _ _ _ _ ih =>
    simp only [List.length_cons, ih]
    omega

theorem Denotes.digits (h : Denotes v ds bs) : ∀ c ∈ ds, (v c).isSome = true := by
  induction h with
  | nil => simp
  | cons hc hd _ _ ih => simpa [hc, hd] using ih

theorem Denotes.unique (h : Denotes v ds bs) (h' : Denotes v ds bs') : bs = bs' := by
  induction h generalizing bs' with
  | nil =>
    cases h'
    rfl
  | cons hc hd hb _ ih =>
    cases h' with
    | cons hc' hd' hb' hrest =>
      obtain rfl := Option.some.inj (hc.symm.trans hc')
      obtain rfl := Option.some.inj (hd.symm.trans hd')
      rw [ih hrest, UInt8.toNat_inj.1 (hb.trans hb'.symm)]

/-- Digits of another kind that have the same values spell the same bytes. -/
theorem denotes_map {f : β → α} {ds : List β} :
    Denotes v (ds.map f) bs ↔ Denotes (fun c => v (f c)) ds bs := by
  constructor
  · intro h
    generalize hl : ds.map f = l at h
    induction h generalizing ds with
    | nil =>
      obtain rfl : ds = [] := List.map_eq_nil_iff.1 hl
      exact .nil
    | cons hc hd hb _ ih =>
      obtain ⟨c, ds, rfl, rfl, hrest⟩ := List.map_eq_cons_iff.1 hl
      obtain ⟨d, ds, rfl, rfl, hrest'⟩ := List.map_eq_cons_iff.1 hrest
      exact .cons hc hd hb (ih hrest')
  · intro h
    induction h with
    | nil => exact .nil
    | cons hc hd hb _ ih => exact .cons hc hd hb ih

theorem Denotes.congr {w : α → Option ℕ} (hv : ∀ c ∈ ds, v c = w c) (h : Denotes v ds bs) :
    Denotes w ds bs := by
  induction h with
  | nil => exact .nil
  | cons hc hd hb _ ih =>
    simp only [List.mem_cons, forall_eq_or_imp] at hv
    exact .cons (hv.1 ▸ hc) (hv.2.1 ▸ hd) hb (ih hv.2.2)

theorem exists_pair {n : ℕ} {xs : List α} (h : xs.length = 2 * (n + 1)) :
    ∃ x y rest, xs = x :: y :: rest ∧ rest.length = 2 * n := by
  cases xs with
  | nil => simp at h
  | cons x xs =>
    cases xs with
    | nil =>
      simp only [List.length_cons, List.length_nil] at h
      omega
    | cons y rest =>
      simp only [List.length_cons] at h
      exact ⟨x, y, rest, rfl, by omega⟩

/-- An even number of digits spells bytes. -/
theorem exists_denotes {n : ℕ} (hlen : ds.length = 2 * n)
    (hv : ∀ c ∈ ds, ∃ x < 16, v c = some x) : ∃ bs, Denotes v ds bs := by
  induction n generalizing ds with
  | zero =>
    obtain rfl : ds = [] := List.length_eq_zero_iff.1 (by omega)
    exact ⟨[], .nil⟩
  | succ n ih =>
    obtain ⟨c, d, ds, rfl, hrest⟩ := exists_pair hlen
    simp only [List.mem_cons, forall_eq_or_imp] at hv
    obtain ⟨⟨hi, hhi, hc⟩, ⟨lo, hlo, hd⟩, hv⟩ := hv
    obtain ⟨bs, h⟩ := ih hrest hv
    have hb : (UInt8.ofNat (16 * hi + lo)).toNat = 16 * hi + lo := by
      rw [UInt8.toNat_ofNat']
      omega
    exact ⟨_ :: bs, .cons hc hd hb h⟩

end Hex

import Tess.Tpm.Esapi

/-!
# The sealing key

The key that gets sealed comes from the operating system, and the randomness of the TPM is mixed
into it. `TPM2_GetRandom` may return fewer bytes than it was asked for. So they are collected over
several calls, and the TPM is given up after eight calls in a row that returned nothing.

Nothing is assumed of the TPM: each call may fail, and may return any bytes at all, also more of
them than were asked for. The program is total for any length, and `Collected` says where a run of
it ends.
-/

namespace Tess.Esapi

open Files Effects

/-! ## The program -/

inductive RandomOp where
  | getrandomFill (len : ℕ)
  | getRandom (want : ℕ)

/-- The operating system fills the whole buffer, or it fails. -/
@[reducible] def RandomOp.Res : RandomOp → Type
  | .getrandomFill len => Except String { b : Bytes // b.length = len }
  | .getRandom _ => Except EsapiError Bytes

abbrev RandomIo := ExceptT Error (Prog RandomOp.Res)

def sealedKeyLen : ℕ := 32

def maxEmptyReads : ℕ := 8

def getrandomFill (len : ℕ) : RandomIo { b : Bytes // b.length = len } :=
  ExceptT.mk do
    let r ← call (RandomOp.getrandomFill len)
    pure (r.mapError .rng)

def getRandom (want : ℕ) : RandomIo Bytes :=
  ExceptT.mk do
    let r ← call (RandomOp.getRandom want)
    pure (r.mapError fun e => .rng e.display)

def noProgress : Error :=
  .rng s!"TPM GetRandom made no progress after {maxEmptyReads} empty reads"

/-- The loop of `collectTpmRandom`, with the bytes there are and the empty reads in a row. -/
def collectTpmRandom.loop (len : ℕ) (out : Bytes) (emptyReads : ℕ) : RandomIo Bytes :=
  if _ : out.length < len then do
    let bytes ← getRandom (len - out.length)
    if _ : bytes = [] then
      if _ : maxEmptyReads ≤ emptyReads + 1 then throw noProgress
      else loop len out (emptyReads + 1)
    else
      let take := min bytes.length (len - out.length)
      loop len (out ++ bytes.take take) 0
  else
    pure out
termination_by (len - out.length, maxEmptyReads - emptyReads)
decreasing_by
  -- an empty read uses up one of the reads that are left, and any other one adds to `out`
  · apply Prod.Lex.right
    omega
  · apply Prod.Lex.left
    have := List.length_pos_iff.2 ‹bytes ≠ []›
    simp only [List.length_append, List.length_take]
    omega

def collectTpmRandom (len : ℕ) : RandomIo Bytes := collectTpmRandom.loop len [] 0

/-- The bytes of the TPM, onto the key as far as they go. -/
def mix : Bytes → Bytes → Bytes
  | k :: ks, t :: ts => (k ^^^ t) :: mix ks ts
  | ks, _ => ks

theorem length_mix (ks ts : Bytes) : (mix ks ts).length = ks.length := by
  induction ks, ts using mix.induct with
  | case1 k ks t ts ih => simp [mix, ih]
  | case2 ks ts h =>
    rw [mix]
    exact h

/-- Where both have a byte, the key gets the one xor the other. -/
theorem getElem?_mix {ks ts : Bytes} {k t : Byte} {i : ℕ} (hk : ks[i]? = some k)
    (ht : ts[i]? = some t) : (mix ks ts)[i]? = some (k ^^^ t) := by
  induction ks, ts using mix.induct generalizing i with
  | case1 k' ks t' ts ih =>
    cases i with
    | zero =>
      obtain rfl := Option.some.inj hk
      obtain rfl := Option.some.inj ht
      rfl
    | succ i => exact ih hk ht
  | case2 ks ts h =>
    cases ks with
    | nil => cases hk
    | cons k' ks =>
      cases ts with
      | nil => cases ht
      | cons t' ts => exact (h _ _ _ _ rfl rfl).elim

/-- Mixing is undone by mixing again: whatever the TPM returns, it takes nothing away from what the
operating system has drawn. -/
theorem mix_mix (ks ts : Bytes) : mix (mix ks ts) ts = ks := by
  induction ks, ts using mix.induct with
  | case1 k ks t ts ih => rw [mix, mix, ih, UInt8.xor_assoc, UInt8.xor_self, UInt8.xor_zero]
  | case2 ks ts h =>
    have hmix : mix ks ts = ks := by
      rw [mix]
      exact h
    rw [hmix, hmix]

def generateSealingKey : RandomIo SecretBytes := do
  let key ← getrandomFill sealedKeyLen
  let tpmRandom ← collectTpmRandom sealedKeyLen
  pure (mix key tpmRandom)

/-! ## The sources of randomness -/

/-- What the operating system returns, and what each call of the TPM does. -/
structure Sources where
  os : (len : ℕ) → Except String { b : Bytes // b.length = len }
  tpm : ℕ → Except EsapiError Bytes

namespace Sources

variable {α : Type} (x : Sources) {len n : ℕ}

/-- The world is the number of calls of the TPM so far. -/
def machine : Machine RandomOp.Res ℕ Unit where
  exec
    | .getrandomFill len, _, n => (x.os len, n)
    | .getRandom _, _, n => (x.tpm n, n + 1)
  may _ _ _ := True

/-- What a program returns, and how often it has called the TPM by then. -/
def run (p : RandomIo α) : Except Error α × ℕ := eval x.machine () p.run 0

/-- All that the first calls have returned; a call that failed has returned nothing. -/
def received : ℕ → Bytes
  | 0 => []
  | n + 1 => received n ++ (x.tpm n).toOption.getD []

/-- The empty reads in a row that end at a call. -/
def emptyReads : ℕ → ℕ
  | 0 => 0
  | n + 1 => if x.tpm n = .ok [] then emptyReads n + 1 else 0

/-- The first calls were all needed, and none of them was a reason to stop. -/
def Ongoing (len n : ℕ) : Prop :=
  ∀ i < n, (x.received i).length < len ∧ (∃ b, x.tpm i = .ok b) ∧
    x.emptyReads (i + 1) < maxEmptyReads

/-- Where a run ends, and after how many calls. -/
inductive Collected (len : ℕ) : Except Error Bytes → ℕ → Prop
  | full {n : ℕ} (h : x.Ongoing len n) (hlen : len ≤ (x.received n).length) :
      Collected len (.ok ((x.received n).take len)) n
  | failed {n : ℕ} {e : EsapiError} (h : x.Ongoing len n) (hlen : (x.received n).length < len)
      (he : x.tpm n = .error e) : Collected len (.error (.rng e.display)) (n + 1)
  | starved {n : ℕ} (h : x.Ongoing len n) (hlen : (x.received n).length < len)
      (he : maxEmptyReads ≤ x.emptyReads (n + 1)) : Collected len (.error noProgress) (n + 1)

variable {x}

theorem received_ok {b : Bytes} (h : x.tpm n = .ok b) : x.received (n + 1) = x.received n ++ b := by
  rw [received, h]
  rfl

theorem emptyReads_empty (h : x.tpm n = .ok []) : x.emptyReads (n + 1) = x.emptyReads n + 1 :=
  if_pos h

theorem emptyReads_other (h : ¬ x.tpm n = .ok []) : x.emptyReads (n + 1) = 0 := if_neg h

/-- Calls add to what was received. -/
theorem received_grows (m : ℕ) : x.received n <+: x.received (n + m) := by
  induction m with
  | zero => exact List.prefix_rfl
  | succ m ih => exact ih.trans (List.prefix_append _ _)

theorem length_received_mono {i : ℕ} (h : i ≤ n) :
    (x.received i).length ≤ (x.received n).length := by
  obtain ⟨m, rfl⟩ := Nat.exists_eq_add_of_le h
  exact (received_grows m).length_le

theorem le_emptyReads_iff {i k : ℕ} :
    k ≤ x.emptyReads (i + k) ↔ ∀ j < k, x.tpm (i + j) = .ok [] := by
  induction k with
  | zero => simp
  | succ k ih =>
    rw [Nat.forall_lt_succ_right, ← ih, ← Nat.add_assoc]
    by_cases h : x.tpm (i + k) = .ok []
    · rw [emptyReads_empty h]
      simp [h]
    · rw [emptyReads_other h]
      simp [h]

theorem emptyReads_le (n : ℕ) : x.emptyReads n ≤ n := by
  induction n with
  | zero => exact le_rfl
  | succ n ih =>
    by_cases h : x.tpm n = .ok []
    · rw [emptyReads_empty h]
      omega
    · rw [emptyReads_other h]
      omega

namespace Ongoing

theorem zero : x.Ongoing len 0 := fun _ h => absurd h (Nat.not_lt_zero _)

theorem succ (h : x.Ongoing len n) (hlen : (x.received n).length < len) {b : Bytes}
    (hb : x.tpm n = .ok b) (he : x.emptyReads (n + 1) < maxEmptyReads) :
    x.Ongoing len (n + 1) := by
  intro i hi
  obtain hi | rfl := Nat.lt_succ_iff_lt_or_eq.1 hi
  · exact h i hi
  · exact ⟨hlen, ⟨b, hb⟩, he⟩

theorem emptyReads_lt (h : x.Ongoing len n) : x.emptyReads n < maxEmptyReads := by
  cases n with
  | zero => exact Nat.zero_lt_succ _
  | succ n => exact (h n (Nat.lt_succ_self n)).2.2

/-- **The measure of the loop**: a byte pays for the read that brought it and for the empty reads
before it. -/
theorem calls_le (h : x.Ongoing len n) :
    n ≤ maxEmptyReads * (x.received n).length + x.emptyReads n := by
  induction n with
  | zero => exact Nat.zero_le _
  | succ n ih =>
    have hn : x.Ongoing len n := fun i hi => h i (Nat.lt_succ_of_lt hi)
    obtain ⟨-, ⟨b, hb⟩, -⟩ := h n (Nat.lt_succ_self n)
    have hlt := hn.emptyReads_lt
    have hle := ih hn
    rw [maxEmptyReads] at hlt hle ⊢
    rw [received_ok hb, List.length_append]
    by_cases hnil : b = []
    · subst hnil
      rw [emptyReads_empty hb, List.length_nil]
      omega
    · have hpos := List.length_pos_iff.2 hnil
      omega

/-- There are at most eight calls for each byte. -/
theorem succ_le (h : x.Ongoing len n) (hlen : (x.received n).length < len) :
    n + 1 ≤ maxEmptyReads * len := by
  have hlt := h.emptyReads_lt
  have hle := h.calls_le
  rw [maxEmptyReads] at hlt hle ⊢
  omega

theorem le (h : x.Ongoing len n) : n ≤ maxEmptyReads * len := by
  cases n with
  | zero => exact Nat.zero_le _
  | succ n =>
    exact succ_le (fun i hi => h i (Nat.lt_succ_of_lt hi)) (h n (Nat.lt_succ_self n)).1

end Ongoing

/-! ## The loop -/

theorem wpe_getRandom {want : ℕ} {Q : Bytes → ℕ → Prop} {E : Error → ℕ → Prop}
    (hok : ∀ b, x.tpm n = .ok b → Q b (n + 1))
    (herr : ∀ e, x.tpm n = .error e → E (.rng e.display) (n + 1)) :
    wpe x.machine Eq (fun _ _ => True) (getRandom want) Q E n := by
  rw [getRandom, wpe_mk, wp_bind, wp_call_alone]
  intro _ _
  exact ⟨trivial, outcome_mapError hok herr⟩

/-- The loop goes on from what was received. -/
theorem loop_spec (out : Bytes) (emptyReads : ℕ) (h : x.Ongoing len n)
    (hout : out = (x.received n).take len) (he : emptyReads = x.emptyReads n) :
    wpe x.machine Eq (fun _ _ => True) (collectTpmRandom.loop len out emptyReads)
      (fun out => x.Collected len (.ok out)) (fun e => x.Collected len (.error e)) n := by
  induction out, emptyReads using collectTpmRandom.loop.induct len generalizing n with
  | case1 out emptyReads hlt ih₁ ih₂ =>
    have hlen : (x.received n).length < len := by
      rw [hout, List.length_take] at hlt
      omega
    obtain rfl : out = x.received n := hout.trans (List.take_of_length_le hlen.le)
    rw [collectTpmRandom.loop, dif_pos hlt, wpe_bind]
    apply wpe_getRandom
    · intro b hb
      by_cases hnil : b = []
      · subst hnil
        have hreads : x.emptyReads (n + 1) = emptyReads + 1 := by
          rw [emptyReads_empty hb, he]
        rw [dif_pos rfl]
        by_cases hmax : maxEmptyReads ≤ emptyReads + 1
        · rw [dif_pos hmax, wpe_throw]
          exact .starved h hlen (hreads ▸ hmax)
        · rw [dif_neg hmax]
          apply ih₁ hmax
          · exact h.succ hlen hb (hreads ▸ not_le.1 hmax)
          · rw [received_ok hb, List.append_nil, List.take_of_length_le hlen.le]
          · exact hreads.symm
      · have hreads : x.emptyReads (n + 1) = 0 :=
          emptyReads_other fun h' => hnil (Except.ok.inj (hb.symm.trans h'))
        rw [dif_neg hnil]
        apply ih₂ b hnil
        · exact h.succ hlen hb (hreads ▸ Nat.zero_lt_succ _)
        · -- the chunk is cut where the length is reached
          rw [received_ok hb, List.take_append, List.take_of_length_le hlen.le,
            List.append_cancel_left_eq, List.take_eq_take_iff]
          omega
        · exact hreads.symm
    · intro e he'
      exact .failed h hlen he'
  | case2 out emptyReads hlt =>
    rw [collectTpmRandom.loop, dif_neg hlt, wpe_pure]
    subst hout
    apply Collected.full h
    rw [List.length_take] at hlt
    omega

/-- A program returns what its specification says. -/
theorem run_spec {p : RandomIo α} {Q : Except Error α → ℕ → Prop}
    (h : wpe x.machine Eq (fun _ _ => True) p (fun a => Q (.ok a)) (fun e => Q (.error e)) 0) :
    Q (x.run p).1 (x.run p).2 :=
  Returns.post ((wp_run ..).2 h) (returns_eval (fun _ _ => trivial) p.run 0)

theorem collectTpmRandom_collected (x : Sources) (len : ℕ) :
    x.Collected len (x.run (collectTpmRandom len)).1 (x.run (collectTpmRandom len)).2 :=
  run_spec (loop_spec [] 0 .zero List.take_nil.symm rfl)

/-! ## What is collected -/

namespace Collected

variable {r : Except Error Bytes}

theorem calls_le (h : x.Collected len r n) : n ≤ maxEmptyReads * len := by
  cases h with
  | full h _ => exact h.le
  | failed h hlen _ => exact h.succ_le hlen
  | starved h hlen _ => exact h.succ_le hlen

theorem ok {out : Bytes} (h : x.Collected len (.ok out) n) :
    out.length = len ∧ out = (x.received n).take len := by
  cases h with
  | full _ hlen => exact ⟨List.length_take_of_le hlen, rfl⟩

end Collected

/-- A reason to fail before enough bytes have come: a call that fails, or the first of eight calls
in a row that return nothing. -/
def Fails (x : Sources) (len i : ℕ) : Prop :=
  (x.received i).length < len ∧
    ((∃ e, x.tpm i = .error e) ∨ ∀ j < maxEmptyReads, x.tpm (i + j) = .ok [])

/-- Empty reads bring nothing. -/
theorem received_of_empty {i k : ℕ} (h : ∀ j < k, x.tpm (i + j) = .ok []) :
    x.received (i + k) = x.received i := by
  induction k with
  | zero => rfl
  | succ k ih =>
    rw [← Nat.add_assoc, received_ok (h k (Nat.lt_succ_self k)), List.append_nil]
    exact ih fun j hj => h j (Nat.lt_succ_of_lt hj)

/-- While the calls go on, there is no reason to fail among them. -/
theorem Ongoing.not_fails (h : x.Ongoing len n) (hlen : len ≤ (x.received n).length) (i : ℕ) :
    ¬ x.Fails len i := by
  have hlt {j : ℕ} (hj : (x.received j).length < len) : j < n := by
    by_contra hle
    have := length_received_mono (x := x) (not_lt.1 hle)
    omega
  rintro ⟨hi, ⟨e, he⟩ | hempty⟩
  · obtain ⟨-, ⟨b, hb⟩, -⟩ := h i (hlt hi)
    rw [he] at hb
    cases hb
  · have hlast : i + (maxEmptyReads - 1) < n := by
      apply hlt
      rw [received_of_empty fun j hj => hempty j (Nat.lt_of_lt_pred hj)]
      exact hi
    exact absurd (le_emptyReads_iff.2 hempty) (not_le.2 (h _ hlast).2.2)

/-- The collection fails when it has a reason to. -/
theorem Collected.error_iff {r : Except Error Bytes} (h : x.Collected len r n) :
    (∃ e, r = .error e) ↔ ∃ i, x.Fails len i := by
  cases h with
  | full h hlen =>
    constructor
    · rintro ⟨e, he⟩
      cases he
    · rintro ⟨i, hi⟩
      exact absurd hi (h.not_fails hlen i)
  | @failed m e h hlen he => exact iff_of_true ⟨_, rfl⟩ ⟨m, hlen, .inl ⟨e, he⟩⟩
  | @starved m h hlen he =>
    obtain ⟨i, hi⟩ := Nat.exists_eq_add_of_le' (he.trans (emptyReads_le (m + 1)))
    rw [hi] at he
    refine iff_of_true ⟨_, rfl⟩ ⟨i, ?_, .inr (le_emptyReads_iff.1 he)⟩
    have hle : i ≤ m := by
      rw [maxEmptyReads] at hi
      omega
    exact (length_received_mono hle).trans_lt hlen

/-! ## The key -/

theorem wpe_getrandomFill {Q : { b : Bytes // b.length = len } → ℕ → Prop} {E : Error → ℕ → Prop}
    (hok : ∀ b, x.os len = .ok b → Q b n) (herr : ∀ e, x.os len = .error e → E (.rng e) n) :
    wpe x.machine Eq (fun _ _ => True) (getrandomFill len) Q E n := by
  rw [getrandomFill, wpe_mk, wp_bind, wp_call_alone]
  intro _ _
  exact ⟨trivial, outcome_mapError hok herr⟩

/-- What a key is made of: each of its bytes is one of the operating system and one of the TPM,
the one at the same place of what the calls of the TPM have returned. -/
def Mixed (x : Sources) (n : ℕ) (key : SecretBytes) : Prop :=
  key.length = sealedKeyLen ∧ ∃ os, x.os sealedKeyLen = .ok os ∧ ∀ i < sealedKeyLen, ∃ k t,
    os.1[i]? = some k ∧ (x.received n)[i]? = some t ∧ key[i]? = some (k ^^^ t)

theorem mixed_mix {os : { b : Bytes // b.length = sealedKeyLen }} (hos : x.os sealedKeyLen = .ok os)
    {out : Bytes} (hout : x.Collected sealedKeyLen (.ok out) n) : x.Mixed n (mix os.1 out) := by
  obtain ⟨hlen, hreceived⟩ := hout.ok
  refine ⟨(length_mix _ _).trans os.2, os, hos, fun i hi => ?_⟩
  have hk : os.1[i]? = some os.1[i] := List.getElem?_eq_getElem (os.2.symm ▸ hi)
  have ht : out[i]? = some out[i] := List.getElem?_eq_getElem (hlen.symm ▸ hi)
  refine ⟨_, _, hk, ?_, getElem?_mix hk ht⟩
  rw [← ht, hreceived, List.getElem?_take_of_lt hi]

theorem mixed_generateSealingKey (x : Sources) {key : SecretBytes}
    (h : (x.run generateSealingKey).1 = .ok key) : x.Mixed (x.run generateSealingKey).2 key := by
  have hspec : wpe x.machine Eq (fun _ _ => True) generateSealingKey (fun key n => x.Mixed n key)
      (fun _ _ => True) 0 := by
    rw [generateSealingKey, wpe_bind]
    apply wpe_getrandomFill
    · intro os hos
      apply wpe_step (loop_spec [] 0 .zero List.take_nil.symm rfl) (fun _ _ _ => trivial)
      intro out n hout
      exact mixed_mix hos hout
    · intro _ _
      trivial
  have hr : Returns x.machine generateSealingKey.run 0 (.ok key) (x.run generateSealingKey).2 :=
    h ▸ returns_eval (fun _ _ => trivial) generateSealingKey.run 0
  exact returns_ok (Q := fun key n => x.Mixed n key) hspec hr

/-- **The sealing key is mixed throughout**, whatever the TPM returns. The bytes are collected with
at most eight calls for each of them. They are the first ones that the TPM returned, exactly as many
as are needed; or the collection fails, which it does when a call fails or eight in a row return
nothing before there are enough. -/
theorem sealingKey_mixed (x : Sources) :
    (∀ len, (x.run (collectTpmRandom len)).2 ≤ maxEmptyReads * len ∧
      (∀ out, (x.run (collectTpmRandom len)).1 = .ok out →
        out.length = len ∧ out = (x.received (x.run (collectTpmRandom len)).2).take len) ∧
      ((∃ e, (x.run (collectTpmRandom len)).1 = .error e) ↔ ∃ i, x.Fails len i)) ∧
    ∀ key, (x.run generateSealingKey).1 = .ok key → x.Mixed (x.run generateSealingKey).2 key := by
  constructor
  · intro len
    have h := collectTpmRandom_collected x len
    refine ⟨h.calls_le, fun out hout => ?_, h.error_iff⟩
    rw [hout] at h
    exact h.ok
  · intro key hkey
    exact mixed_generateSealingKey x hkey

end Sources

end Tess.Esapi

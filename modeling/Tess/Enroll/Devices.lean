import Tess.Enroll.Keys
import Tess.Enroll.Writers

/-!
# What the devices and the readers return

One specification for each operation that leaves the view alone, with what its result says: a
random draw is the value drawn, an unlock that succeeds was made with the credential, a sealed
object is the one sealing makes, an unsealed key is the one in the object, a key read back from a
file is the one in the file. As for the writers, the assertion is any `Stable` one.
-/

namespace Tess

open Files Effects Recovery

variable {E : Primitives} {may : Host → Op → Fault → Prop} {rely guar : Host → Host → Prop}
  {pid : ℕ} {P : Host → Prop}

theorem wpe_and {ε α : Type} {x : ExceptT ε (Prog Op.Res) α} {Q : α → Host → Prop} {h : Host}
    (hx : wp (machine E may) rely guar x.run (fun r h => P h ∧ ∀ a, r = .ok a → Q a h) h) :
    wpe (machine E may) rely guar x (fun a h => Q a h ∧ P h) (fun _ => P) h :=
  wp_post hx fun r h hr => by
    cases r with
    | ok a => exact ⟨hr.2 a rfl, hr.1⟩
    | error e => exact hr.1

/-! ## Devices -/

section Devices

variable (hP : Stable pid rely guar P) {h : Host} (h₀ : P h)

include hP h₀

theorem getrandom_spec (bytes : Bytes) (f : String → Error) :
    wpe (machine E may) rely guar (getrandom bytes f) (fun b h => b = bytes ∧ P h)
      (fun _ => P) h := by
  refine wpe_and ((wp_bind ..).2 (wp_post (wp_op hP (R := fun _ => True)
    (fun _ _ _ _ => trivial) (o := .getrandom bytes) trivial
    (Q := fun r _ => ∀ b, r = .ok b → b = bytes) (fun h f _ _ b hb => ?_) h₀ trivial) ?_))
  · cases f
    case ok => exact (Except.ok.inj hb).symm
    all_goals cases hb
  · intro r h hr
    exact ⟨hr.1, fun b hb => hr.2 b (mapError_eq_ok.1 hb)⟩

theorem generateKey_spec (key : SecretBytes) :
    wpe (machine E may) rely guar (generateKey key) (fun k h => k = key ∧ P h) (fun _ => P) h := by
  refine wpe_and (wp_op hP (R := fun _ => True) (fun _ _ _ _ => trivial) (o := .generateKey key)
    trivial (Q := fun r _ => ∀ k, r = .ok k → k = key) (fun h f _ _ k hk => ?_) h₀ trivial)
  cases f
  case ok => exact (Except.ok.inj hk).symm
  all_goals cases hk

theorem captureTemplate_spec (template : FaceEnrollment) :
    wpe (machine E may) rely guar
      (ExceptT.mk (call (Op.captureTemplate template)) : Io FaceEnrollment)
      (fun t h => t = template ∧ P h) (fun _ => P) h := by
  refine wpe_and (wp_op hP (R := fun _ => True) (fun _ _ _ _ => trivial)
    (o := .captureTemplate template) trivial (Q := fun r _ => ∀ t, r = .ok t → t = template)
    (fun h f _ _ t ht => ?_) h₀ trivial)
  cases f
  case ok => exact (Except.ok.inj ht).symm
  all_goals cases ht

/-- Sealing on a TPM whose seed is known. -/
theorem sealKey_spec {seed : ℕ} (hs : ∀ h, P h → h.tpm.seed = seed) (entropy : Bytes)
    (pin key : SecretBytes) :
    wpe (machine E may) rely guar (sealKey entropy pin key)
      (fun s h => sealObject E seed entropy pin key = some s ∧ P h) (fun _ => P) h := by
  refine wpe_and (wp_op hP (R := fun _ => True) (fun _ _ _ _ => trivial)
    (o := .tpmSeal entropy pin key) trivial
    (Q := fun r _ => ∀ s, r = .ok s → sealObject E seed entropy pin key = some s)
    (fun h f hPh _ s hr => ?_) h₀ trivial)
  cases f
  case ok =>
    rw [← sealKey_eq h.tpm (hs h hPh)]
    exact (congrArg Except.toOption hr).trans rfl
  all_goals cases hr

theorem unsealKey_spec {seed : ℕ} (hs : ∀ h, P h → h.tpm.seed = seed) (sealed : SealedObject)
    (pin : SecretBytes) :
    wpe (machine E may) rely guar (unsealKey sealed pin)
      (fun k h => unsealObject E seed sealed pin = some k ∧ P h) (fun _ => P) h := by
  refine wpe_and (wp_op hP (R := fun _ => True) (fun _ _ _ _ => trivial)
    (o := .tpmUnseal sealed pin) trivial
    (Q := fun r _ => ∀ k, r = .ok k → unsealObject E seed sealed pin = some k)
    (fun h f hPh _ k hr => ?_) h₀ trivial)
  cases f
  case ok =>
    have hr : (h.tpm.unsealKey E sealed pin).1 = .ok k := hr
    unfold Tpm.unsealKey at hr
    unfold unsealObject
    cases ha : pinToAuth pin with
    | error e => simp [ha] at hr
    | ok auth =>
      simp only [ha, hs h hPh] at hr
      split_ifs at hr with h₁ h₂
      simp only [Except.toOption, Option.bind_eq_bind, Option.bind_some, if_neg h₁]
      cases hd : E.unsealData seed sealed.pub sealed.priv auth with
      | none => simp [hd] at hr
      | some k' => simpa [hd] using hr
  all_goals cases hr

/-- An unlock that succeeds was made with the credential. -/
theorem keyringUnlock_spec (secret : SecretBytes) :
    wpe (machine E may) rely guar (keyringUnlock secret)
      (fun _ h => h.keyring.credential = secret ∧ P h) (fun _ => P) h := by
  refine wpe_and (wp_op hP (R := fun _ => True) (fun _ _ _ _ => trivial)
    (o := .unlock secret) trivial
    (Q := fun r h => ∀ u, r = .ok u → h.keyring.credential = secret)
    (fun h f _ _ u hr => ?_) h₀ trivial)
  simp only [exec] at hr ⊢
  split_ifs at hr ⊢ with hc
  exact hc.1.symm

theorem lockoutAuthIsSet_spec {auth : SecretBytes} (ha : ∀ h, P h → h.tpm.lockoutAuth = auth) :
    wpe (machine E may) rely guar lockoutAuthIsSet (fun b h => b = decide (auth ≠ []) ∧ P h)
      (fun _ => P) h := by
  refine wpe_and (wp_op hP (R := fun _ => True) (fun _ _ _ _ => trivial)
    (o := .lockoutAuthIsSet) trivial
    (Q := fun r _ => ∀ b, r = .ok b → b = decide (auth ≠ [])) (fun h f hPh _ b hb => ?_) h₀ trivial)
  cases f
  case ok => exact (Except.ok.inj hb).symm.trans (by rw [ha h hPh])
  all_goals cases hb

end Devices

/-! ## Operations that the view notices -/

section Noticed

variable (E) (pid) (h : Host) (f : Fault)

theorem exec_rekey (old new : SecretBytes) (generated : Bool) :
    ((exec E (.rekey old new generated) f h).1 = .ok () ∧ h.view.credential = old ∧
      Step pid (·.rekey new generated) h (exec E (.rekey old new generated) f h).2) ∨
    ∃ e, (exec E (.rekey old new generated) f h).1 = .error e ∧
      ((h.view.credential ≠ old ∨ f ≠ .ok) ∧ (exec E (.rekey old new generated) f h).2 = h ∨
        f = .late ∧ h.view.credential = old ∧
          Step pid (fun v => (v.rekey new generated).push (.rekeyLate old new)) h
            (exec E (.rekey old new generated) f h).2) := by
  simp only [exec]
  by_cases hc : old = h.keyring.credential
  · rw [if_pos hc]
    cases f
    · exact .inl ⟨rfl, hc.symm, rfl, fun _ _ _ _ => rfl⟩
    · exact .inr ⟨_, rfl, .inl ⟨.inr (by decide), rfl⟩⟩
    · exact .inr ⟨_, rfl, .inr ⟨rfl, hc.symm, rfl, fun _ _ _ _ => rfl⟩⟩
    · exact .inr ⟨_, rfl, .inl ⟨.inr (by simp), rfl⟩⟩
  · rw [if_neg hc]
    exact .inr ⟨_, rfl, .inl ⟨.inl (Ne.symm hc), rfl⟩⟩

/-- A change of the lockout authValue, when the value presented is the one held. -/
theorem exec_setLockoutAuth {current new : SecretBytes} (hc : current.length ≤ 32)
    (hn : new.length ≤ 32) (ha : h.view.lockoutAuth = current) :
    ((exec E (.setLockoutAuth current new) f h).1 = .ok () ∧
      Step pid (fun v => (v.attempt current).setAuth new) h
        (exec E (.setLockoutAuth current new) f h).2) ∨
    ∃ e, (exec E (.setLockoutAuth current new) f h).1 = .error e ∧
      (f = .late ∧ Step pid
          (fun v => ((v.attempt current).setAuth new).push (.authLate current new)) h
          (exec E (.setLockoutAuth current new) f h).2 ∨
        f ≠ .ok ∧ Step pid (fun v => (v.attempt current).push (.authRefused current new)) h
          (exec E (.setLockoutAuth current new) f h).2) := by
  have hlen : ¬ (current.length > maxLockoutAuthLen ∨ new.length > maxLockoutAuthLen) := by
    unfold maxLockoutAuthLen
    omega
  have ha : ¬ h.tpm.lockoutAuth ≠ current := not_not.2 ha
  simp only [exec, if_neg hlen, if_neg ha]
  cases f
  · exact .inl ⟨rfl, rfl, fun _ _ _ _ => rfl⟩
  · exact .inr ⟨_, rfl, .inr ⟨by decide, rfl, fun _ _ _ _ => rfl⟩⟩
  · exact .inr ⟨_, rfl, .inl ⟨rfl, rfl, fun _ _ _ _ => rfl⟩⟩
  · exact .inr ⟨_, rfl, .inr ⟨by simp, rfl, fun _ _ _ _ => rfl⟩⟩

omit pid in
variable {E} {h} in
/-- A change of the credential, on its own. -/
theorem keyringRekey_spec {old new : SecretBytes} {generated : Bool} {Q : Host → Prop}
    {X : Error → Host → Prop}
    (hok : ∀ h', h.view.credential = old → h'.view = h.view.rekey new generated →
      guar h h' ∧ Q h')
    (hsame : ∀ e, (h.view.credential ≠ old ∨
      ∃ f, f ≠ .ok ∧ Allows may h.view (.rekey old new generated) f) → guar h h ∧ X e h)
    (hlate : ∀ e h', Allows may h.view (.rekey old new generated) .late →
      h.view.credential = old →
      h'.view = (h.view.rekey new generated).push (.rekeyLate old new) → guar h h' ∧ X e h') :
    wpe (machine E may) Eq guar (keyringRekey old new generated) (fun _ => Q) X h := by
  refine (wp_call_alone ..).2 fun f hf => ?_
  rcases exec_rekey E 0 h f old new generated with
    ⟨hres, hc, hstep⟩ | ⟨e, hres, ⟨hwhy, hs⟩ | ⟨rfl, hc, hstep⟩⟩
  · exact (hok _ hc hstep.view).imp id (outcome_of_ok hres)
  · obtain ⟨hg, hx⟩ := hsame e (hwhy.imp id fun hne => ⟨f, hne, allows_of_may hf⟩)
    exact ⟨hs.symm ▸ hg, outcome_of_error hres (hs.symm ▸ hx)⟩
  · exact (hlate e _ (allows_of_may hf) hc hstep.view).imp id (outcome_of_error hres)

omit pid in
variable {E} {h} in
/-- A change of the lockout authValue, on its own, when the value presented is the one held. -/
theorem setLockoutAuth_spec {current new : SecretBytes} {Q : Host → Prop}
    {X : Error → Host → Prop}
    (hc : current.length ≤ 32) (hn : new.length ≤ 32) (ha : h.view.lockoutAuth = current)
    (hok : ∀ h', h'.view = (h.view.attempt current).setAuth new → guar h h' ∧ Q h')
    (hlate : ∀ e h', Allows may h.view (.setLockoutAuth current new) .late →
      h'.view = ((h.view.attempt current).setAuth new).push (.authLate current new) →
      guar h h' ∧ X e h')
    (hrefused : ∀ e h', (∃ f, f ≠ .ok ∧ Allows may h.view (.setLockoutAuth current new) f) →
      h'.view = (h.view.attempt current).push (.authRefused current new) → guar h h' ∧ X e h') :
    wpe (machine E may) Eq guar (setLockoutAuth current new) (fun _ => Q) X h := by
  refine (wp_call_alone ..).2 fun f hf => ?_
  rcases exec_setLockoutAuth E 0 h f hc hn ha with
    ⟨hres, hstep⟩ | ⟨e, hres, ⟨rfl, hstep⟩ | ⟨hne, hstep⟩⟩
  · exact (hok _ hstep.view).imp id (outcome_of_ok hres)
  · exact (hlate e _ (allows_of_may hf) hstep.view).imp id (outcome_of_error hres)
  · exact (hrefused e _ ⟨f, hne, allows_of_may hf⟩ hstep.view).imp id (outcome_of_error hres)

omit pid in
variable {E} {h} in
/-- An authorization with another value than the one held is refused. -/
theorem setLockoutAuth_wrong_spec {current new : SecretBytes} {Q : Host → Prop}
    {X : Error → Host → Prop} (hc : current.length ≤ 32) (hn : new.length ≤ 32)
    (ha : h.view.lockoutAuth ≠ current)
    (hwrong : ∀ e h', h'.view = h.view.attempt current → guar h h' ∧ X e h') :
    wpe (machine E may) Eq guar (setLockoutAuth current new) (fun _ => Q) X h := by
  refine (wp_call_alone ..).2 fun f _ => ?_
  have hlen : ¬ (current.length > maxLockoutAuthLen ∨ new.length > maxLockoutAuthLen) := by
    unfold maxLockoutAuthLen
    omega
  have ha : h.tpm.lockoutAuth ≠ current := ha
  have hexec : exec E (.setLockoutAuth current new) f h = (.error
      ["set TPM lockout-hierarchy authValue",
        "failed to set the TPM lockout-hierarchy authValue: TPM error"], h.attempt current) := by
    simp only [exec, if_neg hlen, if_pos ha]
  have hview : (exec E (.setLockoutAuth current new) f h).2.view = h.view.attempt current := by
    rw [hexec]
    rfl
  obtain ⟨hg, hx⟩ := hwrong _ _ hview
  exact ⟨hg, outcome_of_error (congrArg Prod.fst hexec) hx⟩

/-- Removing a file frees its name, and fails only with the file still there: under a fault, or
because it is a directory. -/
theorem exec_removeFile (a : Artifact) :
    ((exec E (.file (.removeFile (.main a))) f h).1 = .ok () ∧
      Step pid (·.remove a) h (exec E (.file (.removeFile (.main a))) f h).2) ∨
    (exec E (.file (.removeFile (.main a))) f h).1 = .error .notFound ∧ h.view.files a = none ∧
      (exec E (.file (.removeFile (.main a))) f h).2 = h ∨
    ∃ e, (exec E (.file (.removeFile (.main a))) f h).1 = .error e ∧ e ≠ .notFound ∧
      (exec E (.file (.removeFile (.main a))) f h).2 = h ∧
      (f ≠ .ok ∨ h.view.files a = some (.dir 0)) := by
  cases f with
  | ok =>
    have hstep : Step pid (·.remove a) h (h.setDisk (h.disk.set (.main a) none) []) := by
      refine ⟨?_, fun c pid' tag _ => by simp [at_setDisk_set]⟩
      have hfiles : (h.setDisk (h.disk.set (.main a) none) []).files =
          Function.update h.files a none := by
        funext c
        rw [Host.files, at_setDisk_set, Function.update_apply]
        by_cases hca : c = a <;> simp [hca, Host.files]
      simp only [Host.view, hfiles]
      rfl
    cases hn : h.disk.node (.main a) with
    | none =>
      refine .inr (.inl ⟨by simp [exec, FileOp.exec, hn], Host.at_eq_none.2 hn, ?_⟩)
      simp [exec, FileOp.exec, hn, fileEvents, Host.setDisk]
    | some n =>
      cases n with
      | dir m =>
        refine .inr (.inr ⟨.other, by simp [exec, FileOp.exec, hn], by decide, ?_, .inr ?_⟩)
        · simp [exec, FileOp.exec, hn, fileEvents, Host.setDisk]
        · simp [Host.view, Host.files, Host.at_, hn, Node.entry]
      | file b m =>
        exact .inl ⟨by simp [exec, FileOp.exec, hn],
          by simpa [exec, FileOp.exec, hn, fileEvents] using hstep⟩
      | symlink p =>
        exact .inl ⟨by simp [exec, FileOp.exec, hn],
          by simpa [exec, FileOp.exec, hn, fileEvents] using hstep⟩
  | _ => exact .inr (.inr ⟨.other, rfl, by decide, rfl, .inl (by simp)⟩)

end Noticed

end Tess

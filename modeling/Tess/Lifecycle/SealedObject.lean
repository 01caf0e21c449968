import Tess.Lifecycle.Reseal
import Tess.Tpm.Handles

/-!
# Sealed objects, end to end

What `to_metadata` and `save` write, `load` and `from_metadata` read back. Metadata from anywhere,
an edited file included, are unsealed only past the checks of their version and policy, and of the
Name of the primary that they pin, which is compared before the object is loaded into the TPM.
-/

namespace Tess

open Files Effects

/-! ## Saved and loaded -/

section Saved

variable {E : Primitives} {may : Host → Op → Fault → Prop} {proc : Process} {a : Artifact}
  {sealed : SealedObject} {h : Host}

/-- A sealed object that is saved is in the file. -/
theorem saveSealed_saves :
    wpe (machine E may) Eq (fun _ _ => True)
      (ofExcept (Persist.toMetadata E sealed) >>= fun m => Persist.save E proc m a)
      (fun _ h' => ∃ m bytes, Persist.toMetadata E sealed = .ok m ∧
        E.metadataJson.toVecPretty m = .ok bytes ∧ h'.files a = some (.file bytes 0o600))
      (fun _ _ => True) h := by
  refine wpe_seq (P := fun m _ => Persist.toMetadata E sealed = .ok m)
    (ofExcept_spec (fun _ hm => hm) fun _ => trivial) fun m h₁ hm => ?_
  cases hjson : E.metadataJson.toVecPretty m with
  | error e =>
    refine wpe_seq (P := fun _ _ => False) (ofExcept_spec (fun json hj => ?_) fun _ => trivial)
      fun _ _ => False.elim
    simp [hjson, Except.mapError] at hj
  | ok bytes =>
    have hbytes : ∀ json, E.metadataJson.toVecPretty m = .ok json → json = bytes := by
      intro json hj
      exact Except.ok.inj (hj.symm.trans hjson)
    refine wpe_mono (save_spec (fileRule proc.pid a bytes) rfl hbytes trivial) ?_
      fun _ _ _ => trivial
    intro _ h₂ hfile
    exact ⟨m, bytes, hm, hjson, hfile⟩

/-- What a load finds in a saved file. -/
theorem loads_saved {m : Metadata} {bytes : Bytes} {mode : ℕ} (hs : Reloadable E sealed)
    (hm : Persist.toMetadata E sealed = .ok m) (hj : E.metadataJson.toVecPretty m = .ok bytes)
    (hf : h.files a = some (.file bytes mode)) :
    (faultless E (Persist.load E proc a >>= fun m =>
      ofExcept (Persist.fromMetadata E m)).run h).1 = .ok sealed ∧
    ∀ may r h', Returns (machine E may)
      (Persist.load E proc a >>= fun m => ofExcept (Persist.fromMetadata E m)).run h (.ok r) h' →
      r = sealed := by
  have hfrom := fromMetadata_toMetadata hs hm
  have hparse := E.metadataJson.fromSlice_toVecPretty hj
  constructor
  · have hload : Finishes E (Persist.load E proc a) h m h :=
      finishes_load hf hparse (fromMetadata_ok hfrom).1
    have hopen : Finishes E (ofExcept (Persist.fromMetadata E m)) h sealed h :=
      finishes_ofExcept hfrom
    exact congrArg Prod.fst (faultless_of_finishes (hload.bind hopen))
  · intro may r h' hr
    have hreads : wpe (machine E may) Eq (fun _ _ => True)
        (Persist.load E proc a >>= fun m => ofExcept (Persist.fromMetadata E m))
        (fun r _ => r = sealed) (fun _ _ => True) h := by
      refine wpe_step (load_finds (stable_view (v := h.view) 0 (G := fun _ _ => True)
        fun _ _ _ => trivial) (finds_view a) rfl) (fun _ _ _ => trivial) ?_
      intro m' _ ⟨⟨b, hb, hparse'⟩, _⟩
      have hbytes : b = bytes := hb.bytes bytes mode hf
      obtain rfl : m' = m := Except.ok.inj (hparse'.symm.trans (hbytes ▸ hparse))
      exact ofExcept_spec (fun r hr => Except.ok.inj (hr.symm.trans hfrom)) fun _ => trivial
    exact returns_ok (Q := fun r _ => r = sealed) hreads hr

end Saved

/-! ## Checked before it is loaded -/

namespace Esapi

/-- The Name of the object under a handle. -/
def Context.nameOf (w : Context) (h : Handle) : Option Bytes := (w.objects h).map LoadedObject.name

section Checked

variable (primary : Handle) (expected : Bytes) (w : Context)

/-- The pinned Name is not empty, and it is that of the live primary. -/
def NameMatches : Prop := expected ≠ [] ∧ w.nameOf primary = some expected

/-- Every load in the trail comes after the Name of the primary was read, and the Name matches. -/
def LoadsChecked (t : Trail) : Prop :=
  ∀ t₁ t₂ session parent priv pub b, t = t₂ ++ (.load session parent priv pub, b) :: t₁ →
    NameMatches primary expected w ∧ (.trGetName primary, true) ∈ t₁

/-- The check was made, and it passed. -/
structure Checked (t : Trail) : Prop where
  name : NameMatches primary expected w
  read : (.trGetName primary, true) ∈ t
  loads : LoadsChecked primary expected w t

variable {primary expected w} {E : Primitives} {may : Call → Reply → Prop}

/-- A call after the check leaves it made. -/
theorem Checked.cons {t : Trail} (h : Checked primary expected w t) (c : Call × Bool) :
    Checked primary expected w (c :: t) := by
  refine ⟨h.name, List.mem_cons_of_mem _ h.read, ?_⟩
  intro t₁ t₂ session parent priv pub b heq
  cases t₂ with
  | nil =>
    obtain ⟨-, rfl⟩ := List.cons.inj heq
    exact ⟨h.name, h.read⟩
  | cons c' t₂ =>
    obtain ⟨-, heq⟩ := List.cons.inj heq
    exact h.loads t₁ t₂ session parent priv pub b heq

/-- Without a load there is nothing to check. -/
theorem loadsChecked_of_none {t : Trail}
    (h : ∀ session parent priv pub b, (.load session parent priv pub, b) ∉ t) :
    LoadsChecked primary expected w t := by
  intro t₁ t₂ session parent priv pub b heq
  refine absurd ?_ (h session parent priv pub b)
  rw [heq]
  exact List.mem_append_right _ List.mem_cons_self

/-- Reading the Name and comparing it is the first thing that happens. -/
theorem verifyPrimaryName_checks :
    wpe (trailed E may) Eq (fun _ s' => LoadsChecked primary expected w s'.2)
      (verifyPrimaryName primary expected)
      (fun _ s' => Checked primary expected w s'.2) (fun _ _ => True) (w, []) := by
  refine wpe_seq (P := fun actual s' => w.nameOf primary = some actual ∧
      (.trGetName primary, true) ∈ s'.2 ∧ LoadsChecked primary expected w s'.2)
    ((wpe_adapt ..).2 ((wp_call_alone ..).2 fun r _ => ?_)) ?_
  · have hloads : ∀ b, LoadsChecked primary expected w [(.trGetName primary, b)] := fun b =>
      loadsChecked_of_none (by simp)
    refine ⟨hloads _, ?_⟩
    cases r with
    | failed e => trivial
    | noHandle => trivial
    | ok h =>
      change outcome _ _ (withObject w primary _).1 (_, (_, (withObject w primary _).1.isOk) :: [])
      cases hx : w.objects primary with
      | none =>
        rw [withObject_none hx]
        trivial
      | some x =>
        rw [withObject_some hx]
        refine ⟨?_, List.mem_cons_self, hloads true⟩
        rw [Context.nameOf, hx]
        rfl
  · rintro actual s' ⟨hactual, hread, hloads⟩
    split
    · rename_i hmatch
      obtain ⟨hne, rfl⟩ : expected ≠ [] ∧ actual = expected := by
        simpa [primaryNameMatches] using hmatch
      exact ⟨⟨hne, hactual⟩, hread, hloads⟩
    · trivial

/-- **The check comes first.** Wherever unsealing is stopped, every load comes after it; and a key
is returned only past it. -/
theorem unsealSealed_checks {X : Conversions} {sealed : SealedObject} {pin : SecretBytes} :
    wpe (trailed E may) Eq (fun _ s' => LoadsChecked primary sealed.primaryName w s'.2)
      (unsealSealed X primary sealed pin)
      (fun _ _ => NameMatches primary sealed.primaryName w) (fun _ _ => True) (w, []) := by
  refine wpe_seq (P := fun _ s' => s' = (w, []))
    (wpe_ofResult (fun _ _ => rfl) fun _ _ => trivial) ?_
  rintro auth _ rfl
  refine wpe_seq verifyPrimaryName_checks ?_
  intro _ s₁ h₁
  have hkeep : ∀ (s : Trailed) o r, (trailed E may).may s o r →
      Checked primary sealed.primaryName w s.2 →
      Checked primary sealed.primaryName w ((trailed E may).exec o r s).2.2 :=
    fun s o r _ h => h.cons _
  refine wp_mono (wp_invariant hkeep (wp_true _ s₁) h₁) (fun _ s' h => h.2.loads) ?_
  rintro (e | key) s' ⟨_, h⟩
  · trivial
  · exact h.name

end Checked

end Esapi

/-! ## The theorem -/

/-- What metadata have to say for their object to be loaded under `primary`. -/
structure Pinned (m : Metadata) (w : Esapi.Context) (primary : Esapi.Handle) : Prop where
  version : m.version = 2
  policy : m.policy = .pinAuthValue
  name : ∃ name, Base64.decode m.primaryName = some name ∧ name ≠ [] ∧
    w.nameOf primary = some name

/-- **Sealed objects.** A sealed object with a pinned Name that was saved, under any faults, is what
loading the file gets back. Whatever metadata are loaded from a file, unsealing what they hold
returns a key only if their version and policy are the current ones and the Name that they pin is
not empty and is that of the live primary; and wherever it is stopped, with any replies of the TPM,
every load that was issued came after the Name was read, and under the same conditions. -/
theorem sealedObject_endToEnd (E : Primitives) :
    (∀ may proc a sealed h h', Reloadable E sealed →
      Returns (machine E may) (ofExcept (Persist.toMetadata E sealed) >>= fun m =>
        Persist.save E proc m a).run h (.ok ()) h' →
      (faultless E (Persist.load E proc a >>= fun m =>
        ofExcept (Persist.fromMetadata E m)).run h').1 = .ok sealed ∧
      ∀ may' r h'', Returns (machine E may') (Persist.load E proc a >>= fun m =>
        ofExcept (Persist.fromMetadata E m)).run h' (.ok r) h'' → r = sealed) ∧
    ∀ may proc a h h' m sealed, Returns (machine E may) (Persist.load E proc a).run h (.ok m) h' →
      Persist.fromMetadata E m = .ok sealed → ∀ X primary w pin,
        (∀ key s', Returns (Esapi.trailed E Esapi.anyReply)
          (Esapi.unsealSealed X primary sealed pin).run (w, []) (.ok key) s' →
          Pinned m w primary) ∧
        ∀ p s', Reaches (Esapi.trailed E Esapi.anyReply)
          (Esapi.unsealSealed X primary sealed pin).run (w, []) p s' →
          ∀ t₁ t₂ session parent priv pub b, s'.2 = t₂ ++ (.load session parent priv pub, b) :: t₁ →
            Pinned m w primary ∧ (.trGetName primary, true) ∈ t₁ := by
  refine ⟨?_, ?_⟩
  · intro may proc a sealed h h' hs hr
    obtain ⟨m, bytes, hm, hj, hf⟩ := returns_ok saveSealed_saves hr
    exact loads_saved hs hm hj hf
  · intro may proc a h h' m sealed _ hfrom X primary w pin
    obtain ⟨hversion, hpolicy, hdecode, hne⟩ := fromMetadata_ok hfrom
    have hcurrent : m.version = 2 := by
      by_contra hn
      simp [Metadata.validateVersion, metadataVersion, hn] at hversion
    have hpinned (hname : Esapi.NameMatches primary sealed.primaryName w) : Pinned m w primary :=
      ⟨hcurrent, hpolicy, _, hdecode, hname⟩
    have hchecks : wpe (Esapi.trailed E Esapi.anyReply) Eq
        (fun _ s' => Esapi.LoadsChecked primary sealed.primaryName w s'.2)
        (Esapi.unsealSealed X primary sealed pin)
        (fun _ _ => Esapi.NameMatches primary sealed.primaryName w) (fun _ _ => True) (w, []) :=
      Esapi.unsealSealed_checks
    constructor
    · intro key s' hr
      have hname : Esapi.NameMatches primary sealed.primaryName w :=
        returns_ok (Q := fun _ _ => Esapi.NameMatches primary sealed.primaryName w) hchecks hr
      exact hpinned hname
    · intro p s' hr t₁ t₂ session parent priv pub b heq
      have hloads := Reaches.invariant
        (I := fun s' : Esapi.Trailed => Esapi.LoadsChecked primary sealed.primaryName w s'.2)
        hchecks (Esapi.loadsChecked_of_none fun _ _ _ _ _ => List.not_mem_nil) hr
      obtain ⟨hname, hread⟩ := hloads t₁ t₂ session parent priv pub b heq
      exact ⟨hpinned hname, hread⟩

namespace Sample

/-- The host after a sealed object was saved without faults. -/
def savedObject : Prog Op.Res (Except Error Unit) × Host :=
  run (machine sample anyFault) (failing 60 .ok)
    (ofExcept (Persist.toMetadata sample Esapi.Chip.sealed) >>= fun m =>
      Persist.save sample (proc 1) m .metadata).run fresh

end Sample

open Sample in
theorem sealedObject_endToEnd_sample :
    (faultless sample (Persist.load sample (proc 1) .metadata >>= fun m =>
      ofExcept (Persist.fromMetadata sample m)).run savedObject.2).1 = .ok Esapi.Chip.sealed :=
  ((sealedObject_endToEnd sample).1 anyFault (proc 1) .metadata Esapi.Chip.sealed fresh _
    ⟨by decide, rfl⟩ (returns_run (admits_of_may (fun _ _ _ => trivial) _ _ _) rfl)).1

end Tess

import Tess.Enroll.Sample
import Tess.Tpm.Seal
import Mathlib.Order.BooleanAlgebra.Set

/-!
# Open sessions and loaded objects

Which handles are open when a function returns. Every call is either one that opens or flushes a
handle, or leaves the handles alone (`exec_plain`). A function whose flushes succeed ends with the
handles it was called with, but for the session that is left open when its attributes are refused
(`Ends`).
-/

namespace Tess

open Files Effects

namespace Esapi

/-- The same sessions are open, and the same objects loaded. -/
def HandlesKept (w w' : Context) : Prop :=
  w'.openSessions = w.openSessions ∧ w'.loadedObjects = w.loadedObjects

/-- A session did not get its attributes. -/
def AttributesRefused (t : Trail) : Prop :=
  ∃ session attributes mask, (Call.trSessSetAttributes session attributes mask, false) ∈ t

/-- The session stays open after a command. -/
def Continues (h : Handle) (w : Context) : Prop :=
  ∀ x, w.sessions h = some x → x.attributes.continueSession = true

/-! ## Handles of a context -/

section Context

variable {w : Context} {h : Handle}

theorem openSessions_setSession_some (x : OpenSession) :
    (w.setSession h (some x)).openSessions = insert h w.openSessions := by
  ext h'
  by_cases hh : h' = h
  · simp [Context.openSessions, Context.setSession, hh]
  · simp [Context.openSessions, Context.setSession, hh]

theorem openSessions_setSession_none :
    (w.setSession h none).openSessions = w.openSessions \ {h} := by
  ext h'
  by_cases hh : h' = h
  · simp [Context.openSessions, Context.setSession, hh]
  · simp [Context.openSessions, Context.setSession, hh]

theorem loadedObjects_setObject_some (x : LoadedObject) :
    (w.setObject h (some x)).loadedObjects = insert h w.loadedObjects := by
  ext h'
  by_cases hh : h' = h
  · simp [Context.loadedObjects, Context.setObject, hh]
  · simp [Context.loadedObjects, Context.setObject, hh]

theorem loadedObjects_setObject_none :
    (w.setObject h none).loadedObjects = w.loadedObjects \ {h} := by
  ext h'
  by_cases hh : h' = h
  · simp [Context.loadedObjects, Context.setObject, hh]
  · simp [Context.loadedObjects, Context.setObject, hh]

theorem mem_openSessions {x : OpenSession} (hx : w.sessions h = some x) : h ∈ w.openSessions := by
  simp [Context.openSessions, hx]

theorem mem_loadedObjects {x : LoadedObject} (hx : w.objects h = some x) :
    h ∈ w.loadedObjects := by
  simp [Context.loadedObjects, hx]

/-- Changing an open session leaves it open. -/
theorem openSessions_change {x : OpenSession} (hx : w.sessions h = some x) (y : OpenSession) :
    (w.setSession h (some y)).openSessions = w.openSessions := by
  rw [openSessions_setSession_some, Set.insert_eq_of_mem (mem_openSessions hx)]

theorem continues_change {x y : OpenSession} (hx : w.sessions h = some x)
    (hy : y.attributes = x.attributes) {h' : Handle} (hc : Continues h' w) :
    Continues h' (w.setSession h (some y)) := by
  intro z hz
  by_cases hh : h' = h
  · subst hh
    have hyz := (w.sessions_setSession_same h' _).symm.trans hz
    rw [← Option.some.inj hyz, hy]
    exact hc x hx
  · exact hc z ((w.sessions_setSession_of_ne hh _).symm.trans hz)

end Context

/-! ## What calls do to the handles -/

/-- Calls that neither open a handle, nor close one, nor set attributes. -/
def Plain : Call → Prop
  | .startAuthSession .. | .trSessSetAttributes .. | .load .. | .flushContext _ => False
  | _ => True

/-- The session that authorizes a call. -/
def Call.authorizedBy : Call → Option Handle
  | .create s .. | .load s .. | .tpm2Unseal s _ | .hierarchyChangeAuth s _ => some s.handle
  | _ => none

section Exec

variable {E : Primitives} {w : Context}

/-- What a command leaves of the handles. -/
structure SameHandles (w w' : Context) : Prop where
  sessions : w'.openSessions = w.openSessions
  objects : w'.loadedObjects = w.loadedObjects
  continues : ∀ h, Continues h w → Continues h w'

theorem SameHandles.refl (w : Context) : SameHandles w w := ⟨rfl, rfl, fun _ => id⟩

theorem sameHandles_setSession {h : Handle} {x y : OpenSession} (hx : w.sessions h = some x)
    (hy : y.attributes = x.attributes) : SameHandles w (w.setSession h (some y)) :=
  ⟨openSessions_change hx y, rfl, fun _ => continues_change hx hy⟩

theorem withSession_some {α : Type} {s : AuthSession} {x : OpenSession}
    (hx : w.sessions s.handle = some x) (f : OpenSession → Except EsapiError α × Context) :
    withSession w s f = f x := by
  rw [withSession, hx]

theorem withSession_none {α : Type} {s : AuthSession} (hx : w.sessions s.handle = none)
    (f : OpenSession → Except EsapiError α × Context) :
    withSession w s f = (.error badHandle, w) := by
  rw [withSession, hx]

theorem withObject_some {α : Type} {h : Handle} {x : LoadedObject} (hx : w.objects h = some x)
    (f : LoadedObject → Except EsapiError α × Context) : withObject w h f = f x := by
  rw [withObject, hx]

theorem withObject_none {α : Type} {h : Handle} (hx : w.objects h = none)
    (f : LoadedObject → Except EsapiError α × Context) :
    withObject w h f = (.error badHandle, w) := by
  rw [withObject, hx]

theorem sameHandles_withSession {α : Type} {s : AuthSession}
    {f : OpenSession → Except EsapiError α × Context}
    (hf : ∀ x, w.sessions s.handle = some x → SameHandles w (f x).2) :
    SameHandles w (withSession w s f).2 := by
  cases hx : w.sessions s.handle with
  | none =>
    rw [withSession_none hx]
    exact .refl w
  | some x =>
    rw [withSession_some hx]
    exact hf x hx

theorem sameHandles_withObject {α : Type} {h : Handle}
    {f : LoadedObject → Except EsapiError α × Context}
    (hf : ∀ x, w.objects h = some x → SameHandles w (f x).2) :
    SameHandles w (withObject w h f).2 := by
  cases hx : w.objects h with
  | none =>
    rw [withObject_none hx]
    exact .refl w
  | some x =>
    rw [withObject_some hx]
    exact hf x hx

/-- A session that continues is still open after a command. -/
theorem sameHandles_used {h : Handle} {x : OpenSession} (hx : w.sessions h = some x)
    (hc : Continues h w) : SameHandles w (w.used h x) := by
  rw [Context.used, if_pos (hc x hx)]
  exact sameHandles_setSession hx rfl

theorem sameHandles_unsealData {s : AuthSession} {x : OpenSession} {object : LoadedObject}
    (hx : w.sessions s.handle = some x) (hc : Continues s.handle w) :
    SameHandles w (unsealData E w s x object).2 := by
  unfold unsealData
  split
  · exact .refl w
  · split
    · exact .refl w
    · cases object.blobs.bind fun b => E.unsealData w.tpm.seed b.1 b.2 object.auth with
      | some data => exact sameHandles_used hx hc
      | none => exact ⟨rfl, rfl, fun _ => id⟩

/-- A plain call leaves the handles alone, when the session it is authorized by continues. -/
theorem exec_plain {o : Call} (ho : Plain o) (hs : ∀ h, o.authorizedBy = some h → Continues h w)
    (r : Reply) : SameHandles w (exec E o r w).2 := by
  cases r with
  | failed e => exact .refl w
  | noHandle => cases o <;> exact .refl w
  | ok h =>
    cases o with
    | startAuthSession | trSessSetAttributes | load | flushContext => exact ho.elim
    | trGetName object => exact sameHandles_withObject fun _ _ => .refl w
    | policyAuthValue s => exact sameHandles_withSession fun x hx => sameHandles_setSession hx rfl
    | policyGetDigest s => exact sameHandles_withSession fun _ _ => .refl w
    | create s parent template auth sensitive entropy =>
      refine sameHandles_withSession fun x hx => sameHandles_withObject fun _ _ => ?_
      split
      · exact sameHandles_used hx (hs _ rfl)
      · exact .refl w
    | trSetAuth object auth =>
      cases object with
      | lockout => exact ⟨rfl, rfl, fun _ => id⟩
      | session => exact .refl w
      | transient h =>
        refine sameHandles_withObject fun x hx => ⟨rfl, ?_, fun _ => id⟩
        change (w.setObject h (some _)).loadedObjects = _
        rw [loadedObjects_setObject_some, Set.insert_eq_of_mem (mem_loadedObjects hx)]
    | tpm2Unseal s object =>
      exact sameHandles_withSession fun x hx => sameHandles_withObject fun _ _ =>
        sameHandles_unsealData hx (hs _ rfl)
    | hierarchyChangeAuth s auth =>
      refine sameHandles_withSession fun x hx => ?_
      split
      · have hused := sameHandles_used hx (hs _ rfl)
        exact ⟨hused.sessions, hused.objects, hused.continues⟩
      · exact .refl w

end Exec

/-! ## Where a function may end -/

/-- A context with its trail. -/
abbrev Trailed := Context × Trail

/-- The sessions `S` are open and the objects `O` loaded, and no attributes were refused. -/
structure Holds (S O : Set Handle) (s : Trailed) : Prop where
  sessions : s.1.openSessions = S
  objects : s.1.loadedObjects = O
  set : ¬ AttributesRefused s.2

/-- The attributes of a session were refused, and it is still open. -/
structure Leaks (S O : Set Handle) (s : Trailed) : Prop where
  sessions : ∃ h, h ∉ S ∧ s.1.openSessions = insert h S
  objects : s.1.loadedObjects = O
  refused : AttributesRefused s.2

def Ends (S O : Set Handle) (s : Trailed) : Prop := Holds S O s ∨ Leaks S O s

/-- The handles are those of the start exactly when no attributes were refused. -/
theorem Ends.kept_iff {w : Context} {s : Trailed} (h : Ends w.openSessions w.loadedObjects s) :
    HandlesKept w s.1 ↔ ¬ AttributesRefused s.2 := by
  rcases h with h | h
  · exact iff_of_true ⟨h.sessions, h.objects⟩ h.set
  · obtain ⟨h', hnew, hopen⟩ := h.sessions
    refine iff_of_false (fun hkept => hnew ?_) (not_not_intro h.refused)
    rw [← hkept.1, hopen]
    exact Set.mem_insert h' _

section Calls

variable {E : Primitives} {may : Call → Reply → Prop} {S O : Set Handle} {s : Trailed}

/-- Any call: its result, and where it leaves the context and the trail. -/
theorem esapi_spec {o : Call} {Q : o.Val → Trailed → Prop} {F : EsapiError → Trailed → Prop}
    (h : ∀ r, Possible s.1 o r → may o r →
      outcome Q F (exec E o r s.1).1 ((exec E o r s.1).2, (o, (exec E o r s.1).1.isOk) :: s.2)) :
    wpe (trailed E may) Eq (fun _ _ => True) (esapi o) Q F s :=
  (wp_call_alone ..).2 fun r hr => ⟨trivial, h r hr.1 hr.2⟩

/-- A refusal of attributes is one of the calls that were made. -/
theorem attributesRefused_cons {o : Call} {b : Bool} {t : Trail} :
    AttributesRefused ((o, b) :: t) ↔
      (∃ session attributes mask, o = .trSessSetAttributes session attributes mask ∧ b = false) ∨
        AttributesRefused t := by
  unfold AttributesRefused
  constructor
  · rintro ⟨session, attributes, mask, h⟩
    rcases List.mem_cons.1 h with h | h
    · obtain ⟨rfl, rfl⟩ := Prod.mk.inj h
      exact .inl ⟨session, attributes, mask, rfl, rfl⟩
    · exact .inr ⟨session, attributes, mask, h⟩
  · rintro (⟨session, attributes, mask, rfl, rfl⟩ | ⟨session, attributes, mask, h⟩)
    · exact ⟨session, attributes, mask, List.mem_cons_self⟩
    · exact ⟨session, attributes, mask, List.mem_cons_of_mem _ h⟩

theorem not_refused_cons {o : Call} {b : Bool} {t : Trail} (h : ¬ AttributesRefused t)
    (ho : ∀ session attributes mask, o ≠ .trSessSetAttributes session attributes mask) :
    ¬ AttributesRefused ((o, b) :: t) := by
  rw [attributesRefused_cons]
  rintro (⟨session, attributes, mask, heq, _⟩ | h')
  · exact ho session attributes mask heq
  · exact h h'

theorem plain_spec {o : Call} (ho : Plain o)
    (hs : ∀ h, o.authorizedBy = some h → Continues h s.1) (h : Holds S O s) :
    wpe (trailed E may) Eq (fun _ _ => True) (esapi o)
      (fun _ s' => Holds S O s' ∧ ∀ h, Continues h s.1 → Continues h s'.1)
      (fun _ s' => Holds S O s') s := by
  refine esapi_spec fun r _ _ => ?_
  have hsame := exec_plain (E := E) ho hs r
  have hset := not_refused_cons (o := o) (b := (exec E o r s.1).1.isOk) h.set (by
    rintro session attributes mask rfl
    exact ho)
  have hholds : Holds S O ((exec E o r s.1).2, (o, (exec E o r s.1).1.isOk) :: s.2) :=
    ⟨hsame.sessions.trans h.sessions, hsame.objects.trans h.objects, hset⟩
  cases hr : (exec E o r s.1).1 with
  | ok a => exact ⟨hr ▸ hholds, hsame.continues⟩
  | error e => exact (outcome_error ..).2 (hr ▸ hholds)

/-- A session that is started has a new handle. -/
theorem startAuthSession_spec {tpmKey : Option Handle} {type : SessionType} (h : Holds S O s) :
    wpe (trailed E may) Eq (fun _ _ => True) (esapi (.startAuthSession tpmKey type))
      (fun session s' => session.elim (Holds S O s') fun a => a.type = type ∧ a.handle ∉ S ∧
        Holds (insert a.handle S) O s') (fun _ s' => Holds S O s') s := by
  refine esapi_spec fun r hr _ => ?_
  have hset : ∀ b, ¬ AttributesRefused ((.startAuthSession tpmKey type, b) :: s.2) := fun b =>
    not_refused_cons h.set fun _ _ _ => nofun
  cases r with
  | failed e => exact ⟨h.sessions, h.objects, hset _⟩
  | noHandle => exact ⟨h.sessions, h.objects, hset _⟩
  | ok a =>
    refine ⟨rfl, ?_, ?_, h.objects, hset _⟩
    · rw [← h.sessions]
      simp [Context.openSessions, hr.1]
    · rw [← h.sessions]
      exact openSessions_setSession_some _

/-- The attributes are set, or refused. -/
theorem trSessSetAttributes_spec {session : AuthSession} (h : Holds S O s) :
    wpe (trailed E may) Eq (fun _ _ => True)
      (esapi (.trSessSetAttributes session encryptedSessionAttributes.1
        encryptedSessionAttributes.2))
      (fun _ s' => Holds S O s' ∧ Continues session.handle s'.1)
      (fun _ s' => s'.1.openSessions = S ∧ s'.1.loadedObjects = O ∧ AttributesRefused s'.2) s := by
  refine esapi_spec fun r _ _ => ?_
  have hrefused : AttributesRefused ((.trSessSetAttributes session encryptedSessionAttributes.1
      encryptedSessionAttributes.2, false) :: s.2) := ⟨_, _, _, List.mem_cons_self⟩
  cases r with
  | failed e => exact ⟨h.sessions, h.objects, hrefused⟩
  | noHandle => exact ⟨h.sessions, h.objects, hrefused⟩
  | ok a =>
    simp only [exec, perform]
    cases hx : s.1.sessions session.handle with
    | none =>
      rw [withSession_none hx]
      exact ⟨h.sessions, h.objects, hrefused⟩
    | some x =>
      rw [withSession_some hx]
      refine ⟨⟨(openSessions_change hx _).trans h.sessions, h.objects, ?_⟩, fun y hy => ?_⟩
      · rw [attributesRefused_cons]
        rintro (⟨_, _, _, _, hb⟩ | h')
        · cases hb
        · exact h.set h'
      · have hxy := (s.1.sessions_setSession_same session.handle _).symm.trans hy
        rw [← Option.some.inj hxy]
        rfl

/-- An object that is loaded has a new handle. -/
theorem load_spec {session : AuthSession} {parent : Handle} {priv : Bytes} {pub : Public}
    (hc : Continues session.handle s.1) (h : Holds S O s) :
    wpe (trailed E may) Eq (fun _ _ => True) (esapi (.load session parent priv pub))
      (fun a s' => a ∉ O ∧ Holds S (insert a O) s') (fun _ s' => Holds S O s') s := by
  refine esapi_spec fun r hr _ => ?_
  have hset : ∀ b, ¬ AttributesRefused ((.load session parent priv pub, b) :: s.2) := fun b =>
    not_refused_cons h.set fun _ _ _ => nofun
  cases r with
  | failed e => exact ⟨h.sessions, h.objects, hset _⟩
  | noHandle => exact ⟨h.sessions, h.objects, hset _⟩
  | ok a =>
    simp only [exec, perform]
    cases hx : s.1.sessions session.handle with
    | none =>
      rw [withSession_none hx]
      exact ⟨h.sessions, h.objects, hset _⟩
    | some x =>
      rw [withSession_some hx]
      cases hy : s.1.objects parent with
      | none =>
        rw [withObject_none hy]
        exact ⟨h.sessions, h.objects, hset _⟩
      | some y =>
        rw [withObject_some hy]
        split
        · exact ⟨h.sessions, h.objects, hset _⟩
        · have hused := sameHandles_used hx hc
          refine ⟨?_, hused.sessions.trans h.sessions, ?_, hset _⟩
          · rw [← h.objects]
            simp [Context.loadedObjects, hr.2]
          · rw [← h.objects, ← hused.objects]
            exact loadedObjects_setObject_some _

/-! ## Flushing -/

theorem flushSession_spec {h : Handle} (hnew : h ∉ S) (hh : Holds (insert h S) O s) :
    wpe (trailed E flushesSucceed) Eq (fun _ _ => True) (flush (.session h))
      (fun _ s' => Holds S O s') (fun _ _ => False) s := by
  refine (wpe_adapt ..).2 (esapi_spec fun r _ hmay => ?_)
  obtain ⟨a, rfl⟩ := hmay
  obtain ⟨x, hx⟩ : ∃ x, s.1.sessions h = some x := by
    have hmem : h ∈ s.1.openSessions := hh.sessions ▸ Set.mem_insert h S
    exact Option.ne_none_iff_exists'.1 hmem
  simp only [exec, perform]
  rw [withSession_some hx]
  refine ⟨?_, hh.objects, not_refused_cons hh.set fun _ _ _ => nofun⟩
  rw [openSessions_setSession_none, hh.sessions, Set.insert_sdiff_self_of_notMem hnew]

theorem flushObject_spec {h : Handle} (hnew : h ∉ O) (hh : Ends S (insert h O) s) :
    wpe (trailed E flushesSucceed) Eq (fun _ _ => True) (flush (.transient h))
      (fun _ s' => Ends S O s') (fun _ _ => False) s := by
  refine (wpe_adapt ..).2 (esapi_spec fun r _ hmay => ?_)
  obtain ⟨a, rfl⟩ := hmay
  have hloaded : s.1.loadedObjects = insert h O := hh.elim Holds.objects Leaks.objects
  obtain ⟨x, hx⟩ : ∃ x, s.1.objects h = some x := by
    have hmem : h ∈ s.1.loadedObjects := hloaded ▸ Set.mem_insert h O
    exact Option.ne_none_iff_exists'.1 hmem
  simp only [exec, perform]
  rw [withObject_some hx]
  have hobjects : (s.1.setObject h none).loadedObjects = O := by
    rw [loadedObjects_setObject_none, hloaded, Set.insert_sdiff_self_of_notMem hnew]
  rcases hh with hh | hh
  · exact .inl ⟨hh.sessions, hobjects, not_refused_cons hh.set fun _ _ _ => nofun⟩
  · exact .inr ⟨hh.sessions, hobjects, attributesRefused_cons.2 (.inr hh.refused)⟩

/-- A program under a session that is flushed. -/
theorem thenFlush_spec {α : Type} {x : EsapiIo α} {f : EsapiError → Error} {h : Handle}
    (hnew : h ∉ S)
    (hx : wpe (trailed E flushesSucceed) Eq (fun _ _ => True) x
      (fun _ s' => Holds (insert h S) O s') (fun _ s' => Holds (insert h S) O s') s) :
    wpe (trailed E flushesSucceed) Eq (fun _ _ => True) (thenFlush x f (.session h))
      (fun _ s' => Holds S O s') (fun _ s' => Holds S O s') s := by
  refine wpe_seq (P := fun _ s' => Holds (insert h S) O s') ((wpe_attempt ..).2 hx) ?_
  intro result s₁ h₁
  refine wpe_seq (P := fun _ s' => Holds S O s') ((wpe_attempt ..).2
    (wpe_mono (flushSession_spec hnew h₁) (fun _ _ => id) fun _ _ => False.elim)) ?_
  intro flushed s₂ h₂
  refine wpe_seq (P := fun _ s' => Holds S O s') (wpe_ofResult (fun _ _ => h₂) fun _ _ => h₂) ?_
  intro a s₃ h₃
  exact wpe_seq (P := fun _ s' => Holds S O s') (wpe_ofResult (fun _ _ => h₃) fun _ _ => h₃)
    fun _ _ => id

/-- A session that is started and gets its attributes continues; one that does not is left open. -/
theorem startEncryptedSession_spec {type : SessionType} {f : String → Error} {primary : Handle}
    (h : Holds S O s) :
    wpe (trailed E may) Eq (fun _ _ => True) (startEncryptedSession type f primary)
      (fun a s' => a.type = type ∧ a.handle ∉ S ∧ Holds (insert a.handle S) O s' ∧
        Continues a.handle s'.1) (fun _ s' => Ends S O s') s := by
  refine wpe_step ((wpe_adapt ..).2 (startAuthSession_spec h)) (fun _ _ => .inl) ?_
  intro session s₁ h₁
  cases session with
  | none => exact .inl h₁
  | some a =>
    obtain ⟨htype, hnew, hopen⟩ := h₁
    refine wpe_seq (P := fun b s' => b = a ∧ s' = s₁) ⟨rfl, rfl⟩ ?_
    rintro b s₂ ⟨rfl, rfl⟩
    refine wpe_seq (P := fun _ s' => Holds (insert b.handle S) O s' ∧ Continues b.handle s'.1)
      ((wpe_adapt ..).2 (wpe_mono (trSessSetAttributes_spec hopen) (fun _ _ => id) ?_)) ?_
    · intro e s₃ ⟨hsessions, hobjects, hrefused⟩
      exact .inr ⟨⟨b.handle, hnew, hsessions⟩, hobjects, hrefused⟩
    · intro _ s₃ ⟨h₃, hc⟩
      exact ⟨htype, hnew, h₃, hc⟩

/-! ## The functions -/

theorem primaryName_spec {primary : Handle} (h : Holds S O s) :
    wpe (trailed E may) Eq (fun _ _ => True) (primaryName primary) (fun _ s' => Holds S O s')
      (fun _ s' => Holds S O s') s :=
  (wpe_adapt ..).2 (wpe_mono (plain_spec trivial nofun h) (fun _ _ => And.left) fun _ _ => id)

/-- A policy command is played in a session that is open. -/
theorem policyAuthValue_spec {session : PolicySession} (h : Holds S O s) :
    wpe (trailed E may) Eq (fun _ _ => True) (esapi (.policyAuthValue session))
      (fun _ s' => Holds S O s' ∧ ∀ h, Continues h s.1 → Continues h s'.1)
      (fun _ s' => Holds S O s') s := plain_spec trivial nofun h

theorem policyAuthValueDigest_spec (h : Holds S O s) :
    wpe (trailed E flushesSucceed) Eq (fun _ _ => True) policyAuthValueDigest
      (fun _ s' => Holds S O s') (fun _ s' => Holds S O s') s := by
  refine wpe_seq ((wpe_adapt ..).2 (startAuthSession_spec h)) ?_
  intro trial s₁ h₁
  cases trial with
  | none => exact h₁
  | some a =>
    obtain ⟨-, hnew, hopen⟩ := h₁
    refine wpe_seq (P := fun b s' => b = a ∧ s' = s₁) ⟨rfl, rfl⟩ ?_
    rintro b s₂ ⟨rfl, rfl⟩
    refine thenFlush_spec hnew ?_
    refine wpe_seq (P := fun _ s' => s' = s₂) (wpe_ofResult (fun _ _ => rfl) fun _ _ => hopen) ?_
    rintro session _ rfl
    refine wpe_seq (policyAuthValue_spec hopen) ?_
    intro _ s₃ ⟨h₃, _⟩
    exact wpe_mono (plain_spec trivial nofun h₃) (fun _ _ => And.left) fun _ _ => id

theorem trSetAuth_spec {object : ObjectHandle} {auth : Bytes} (h : Holds S O s) :
    wpe (trailed E may) Eq (fun _ _ => True) (esapi (.trSetAuth object auth))
      (fun _ s' => Holds S O s') (fun _ s' => Holds S O s') s :=
  wpe_mono (plain_spec trivial nofun h) (fun _ _ => And.left) fun _ _ => id

theorem converted_spec {α : Type} {r : Except Error α} (h : Holds S O s) :
    wpe (trailed E may) Eq (fun _ _ => True) (ofResult r) (fun _ s' => Holds S O s')
      (fun _ s' => Ends S O s') s := wpe_ofResult (fun _ _ => h) fun _ _ => .inl h

variable {X : Conversions} {primary : Handle} {pin secret : SecretBytes}

theorem sealSecret_spec {entropy : Bytes} (h : Holds S O s) :
    wpe (trailed E flushesSucceed) Eq (fun _ _ => True) (sealSecret X primary pin secret entropy)
      (fun _ s' => Ends S O s') (fun _ s' => Ends S O s') s := by
  refine wpe_seq (converted_spec h) ?_
  intro auth s₁ h₁
  refine wpe_step (policyAuthValueDigest_spec h₁) (fun _ _ => .inl) ?_
  intro digest s₂ h₂
  refine wpe_seq (converted_spec h₂) ?_
  intro template s₃ h₃
  refine wpe_seq (converted_spec h₃) ?_
  intro sensitive s₄ h₄
  refine wpe_step (primaryName_spec h₄) (fun _ _ => .inl) ?_
  intro name s₅ h₅
  refine wpe_seq (startEncryptedSession_spec h₅) ?_
  intro session s₆ ⟨_, hnew, hopen, hc⟩
  refine wpe_step (thenFlush_spec hnew (wpe_mono (plain_spec trivial (fun h hh => ?_) hopen)
    (fun _ _ => And.left) fun _ _ => id)) (fun _ _ => .inl) ?_
  · exact Option.some.inj hh ▸ hc
  · intro created s₇ h₇
    exact .inl h₇

theorem unsealWithPolicy_spec {object : Handle} {auth : Bytes} (h : Holds S O s) :
    wpe (trailed E flushesSucceed) Eq (fun _ _ => True) (unsealWithPolicy primary object auth)
      (fun _ s' => Ends S O s') (fun _ s' => Ends S O s') s := by
  refine wpe_step ((wpe_adapt ..).2 (trSetAuth_spec h)) (fun _ _ => .inl) ?_
  intro _ s₁ h₁
  refine wpe_seq (startEncryptedSession_spec h₁) ?_
  intro policy s₂ ⟨_, hnew, hopen, hc⟩
  refine wpe_mono (thenFlush_spec hnew ?_) (fun _ _ => .inl) fun _ _ => .inl
  refine wpe_seq (P := fun _ s' => s' = s₂) (wpe_ofResult (fun _ _ => rfl) fun _ _ => hopen) ?_
  rintro session _ rfl
  refine wpe_seq (policyAuthValue_spec hopen) ?_
  intro _ s₃ ⟨h₃, hkeep⟩
  refine wpe_mono (plain_spec trivial (fun h hh => ?_) h₃) (fun _ _ => And.left) fun _ _ => id
  exact Option.some.inj hh ▸ hkeep _ hc

theorem unsealSealed_spec {sealed : SealedObject} (h : Holds S O s) :
    wpe (trailed E flushesSucceed) Eq (fun _ _ => True) (unsealSealed X primary sealed pin)
      (fun _ s' => Ends S O s') (fun _ s' => Ends S O s') s := by
  refine wpe_seq (converted_spec h) ?_
  intro auth s₁ h₁
  refine wpe_seq (P := fun _ s' => Holds S O s') ?_ ?_
  · refine wpe_step (primaryName_spec h₁) (fun _ _ => .inl) ?_
    intro actual s₂ h₂
    split
    · exact h₂
    · exact .inl h₂
  intro _ s₂ h₂
  refine wpe_seq (startEncryptedSession_spec h₂) ?_
  intro loadSession s₃ ⟨_, hnew, hopen, hc⟩
  refine wpe_seq (P := outcome
      (fun o s' => o ∉ O ∧ Holds (insert loadSession.handle S) (insert o O) s')
      fun _ s' => Holds (insert loadSession.handle S) O s')
    ((wpe_attempt ..).2 (load_spec hc hopen)) ?_
  rintro (e | object) s₄ h₄
  · refine wpe_seq (P := fun _ s' => Holds S O s') ((wpe_attempt ..).2
      (wpe_mono (flushSession_spec hnew h₄) (fun _ _ => id) fun _ _ => False.elim)) ?_
    intro flushed s₅ h₅
    exact wpe_seq (P := fun _ _ => False) (wpe_ofResult nofun fun _ _ => .inl h₅)
      fun _ _ => False.elim
  · obtain ⟨hobject, h₄⟩ := h₄
    refine wpe_seq (P := fun flushed s' => flushed = .ok () ∧ Holds S (insert object O) s')
      ((wpe_attempt ..).2 (wpe_mono (flushSession_spec hnew h₄) (fun _ _ hh => ⟨rfl, hh⟩)
        fun _ _ => False.elim)) ?_
    rintro _ s₅ ⟨rfl, h₅⟩
    refine wpe_seq (P := fun o s' => o = object ∧ s' = s₅) ⟨rfl, rfl⟩ ?_
    rintro _ _ ⟨rfl, rfl⟩
    refine wpe_seq (P := fun _ s' => Ends S (insert _ O) s')
      ((wpe_attempt ..).2 (unsealWithPolicy_spec h₅)) ?_
    intro result s₆ h₆
    refine wpe_seq (P := fun _ s' => Ends S O s') ((wpe_attempt ..).2
      (wpe_mono (flushObject_spec hobject h₆) (fun _ _ => id) fun _ _ => False.elim)) ?_
    intro objectFlushed s₇ h₇
    refine wpe_seq (P := fun _ s' => Ends S O s') (wpe_ofResult (fun _ _ => h₇) fun _ _ => h₇) ?_
    intro key s₈ h₈
    exact wpe_seq (P := fun _ s' => Ends S O s') (wpe_ofResult (fun _ _ => h₈) fun _ _ => h₈)
      fun _ _ => id

theorem setLockoutAuth_spec {current new : SecretBytes} (h : Holds S O s) :
    wpe (trailed E flushesSucceed) Eq (fun _ _ => True) (setLockoutAuth X primary current new)
      (fun _ s' => Ends S O s') (fun _ s' => Ends S O s') s := by
  refine wpe_seq (converted_spec h) ?_
  intro currentAuth s₁ h₁
  refine wpe_seq (converted_spec h₁) ?_
  intro newAuth s₂ h₂
  refine wpe_step ((wpe_adapt ..).2 (trSetAuth_spec h₂)) (fun _ _ => .inl) ?_
  intro _ s₃ h₃
  refine wpe_seq (startEncryptedSession_spec h₃) ?_
  intro session s₄ ⟨_, hnew, hopen, hc⟩
  refine wpe_step (thenFlush_spec hnew (wpe_mono (plain_spec trivial (fun h hh => ?_) hopen)
    (fun _ _ => And.left) fun _ _ => id)) (fun _ _ => .inl) ?_
  · exact Option.some.inj hh ▸ hc
  intro _ s₅ h₅
  exact (wpe_adapt ..).2 (wpe_mono (trSetAuth_spec h₅) (fun _ _ => .inl) fun _ _ => .inl)

end Calls

/-! ## Success -/

/-- Every call that was made succeeded. -/
def AllSucceeded (t : Trail) : Prop := ∀ c ∈ t, c.2 = true

section Success

variable {E : Primitives} {may : Call → Reply → Prop} {α β : Type}

/-- When the program returns a value, no call that it made has failed. -/
def Careful (E : Primitives) (may : Call → Reply → Prop) {ε α : Type}
    (x : ExceptT ε (Prog Call.Res) α) : Prop :=
  ∀ s : Trailed, AllSucceeded s.2 →
    wpe (trailed E may) Eq (fun _ _ => True) x (fun _ s' => AllSucceeded s'.2) (fun _ _ => True) s

theorem careful_esapi (o : Call) : Careful E may (esapi o) := by
  intro s hs
  refine esapi_spec fun r _ _ => ?_
  cases hr : (exec E o r s.1).1 with
  | error e => trivial
  | ok a =>
    intro c hc
    rcases List.mem_cons.1 hc with rfl | hc
    · rfl
    · exact hs c hc

theorem Careful.bind {ε : Type} {x : ExceptT ε (Prog Call.Res) α}
    {f : α → ExceptT ε (Prog Call.Res) β} (hx : Careful E may x) (hf : ∀ a, Careful E may (f a)) :
    Careful E may (x >>= f) := fun s hs => wpe_seq (hx s hs) fun a s' h => hf a s' h

theorem careful_ofResult {ε : Type} (r : Except ε α) : Careful E may (ofResult r) :=
  fun _ hs => wpe_ofResult (fun _ _ => hs) fun _ _ => trivial

theorem careful_pure {ε : Type} (a : α) :
    Careful E may (pure a : ExceptT ε (Prog Call.Res) α) := fun _ hs => hs

theorem Careful.mapErr {x : EsapiIo α} (hx : Careful E may x) (f : EsapiError → Error) :
    Careful E may (mapErr f x) := fun s hs => (wpe_adapt ..).2 (hx s hs)

theorem careful_flush (handle : ObjectHandle) : Careful E may (flush handle) :=
  (careful_esapi _).mapErr _

/-- Looking at the outcome: when it is a value, no call has failed. -/
theorem Careful.attempt {ε ε' : Type} {x : ExceptT ε (Prog Call.Res) α} (hx : Careful E may x)
    {s : Trailed} (hs : AllSucceeded s.2) :
    wpe (trailed E may) Eq (fun _ _ => True)
      (attempt x : ExceptT ε' (Prog Call.Res) (Except ε α))
      (fun r s' => ∀ a, r = .ok a → AllSucceeded s'.2) (fun _ _ => True) s := by
  refine (wpe_attempt ..).2 (wpe_mono (hx s hs) (fun a s' h _ _ => h) fun e s' _ => nofun)

/-- A program that goes on with a failure does not return a value. -/
theorem wpe_failed {e : Error} {f : α → Io β} {Q : β → Trailed → Prop} (s : Trailed) :
    wpe (trailed E may) Eq (fun _ _ => True) (ofResult (.error e) >>= f) Q (fun _ _ => True) s :=
  wpe_seq (P := fun _ _ => False) (wpe_ofResult nofun fun _ _ => trivial) fun _ _ => False.elim

/-- Nothing is asked of an outcome that is not looked at. -/
theorem wpe_ignored {ε ε' : Type} {x : ExceptT ε (Prog Call.Res) α}
    {f : Except ε α → ExceptT ε' (Prog Call.Res) β} {Q : β → Trailed → Prop} {s : Trailed}
    (hf : ∀ r s', wpe (trailed E may) Eq (fun _ _ => True) (f r) Q (fun _ _ => True) s') :
    wpe (trailed E may) Eq (fun _ _ => True) (attempt x >>= f) Q (fun _ _ => True) s :=
  wpe_seq (P := fun _ _ => True)
    ((wpe_attempt ..).2 (wpe_mono (wpe_true x s) (fun _ _ => id) fun _ _ => id))
    fun r s' _ => hf r s'

theorem Careful.thenFlush {x : EsapiIo α} (hx : Careful E may x) (f : EsapiError → Error)
    (handle : ObjectHandle) : Careful E may (thenFlush x f handle) := by
  intro s hs
  refine wpe_seq (hx.attempt hs) ?_
  rintro (e | a) s₁ h₁
  · exact wpe_ignored fun _ s₂ => wpe_failed s₂
  · refine wpe_seq ((careful_flush handle).attempt (h₁ a rfl)) ?_
    rintro (e | _) s₂ h₂
    · exact wpe_seq (P := fun _ _ => True) (wpe_ofResult (fun _ _ => trivial) fun _ _ => trivial)
        fun _ s₃ _ => wpe_failed s₃
    · exact h₂ _ rfl

theorem careful_startEncryptedSession (type : SessionType) (f : String → Error)
    (primary : Handle) : Careful E may (startEncryptedSession type f primary) :=
  ((careful_esapi _).mapErr _).bind fun _ => (careful_ofResult _).bind fun _ =>
    ((careful_esapi _).mapErr _).bind fun _ => careful_pure _

theorem careful_unsealWithPolicy (primary object : Handle) (auth : Bytes) :
    Careful E may (unsealWithPolicy primary object auth) :=
  ((careful_esapi _).mapErr _).bind fun _ => (careful_startEncryptedSession _ _ _).bind fun _ =>
    ((careful_ofResult _).bind fun _ => (careful_esapi _).bind fun _ =>
      careful_esapi _).thenFlush _ _

theorem careful_verifyPrimaryName (primary : Handle) (expected : Bytes) :
    Careful E may (verifyPrimaryName primary expected) := by
  refine ((careful_esapi _).mapErr _).bind fun actual => ?_
  split
  · exact careful_pure _
  · exact fun _ _ => trivial

/-- Unsealing returns the key only when every call succeeded, the flushes included. -/
theorem careful_unsealSealed (X : Conversions) (primary : Handle) (sealed : SealedObject)
    (pin : SecretBytes) : Careful E may (unsealSealed X primary sealed pin) := by
  refine (careful_ofResult _).bind fun auth => (careful_verifyPrimaryName _ _).bind fun _ =>
    (careful_startEncryptedSession _ _ _).bind fun loadSession s hs => ?_
  refine wpe_seq ((careful_esapi _).attempt hs) ?_
  rintro (e | object) s₁ h₁
  · exact wpe_ignored fun _ s₂ => wpe_failed s₂
  refine wpe_seq ((careful_flush _).attempt (h₁ object rfl)) ?_
  intro loadSessionFlushed s₂ h₂
  refine wpe_seq (P := fun o s' => o = object ∧ s' = s₂) ⟨rfl, rfl⟩ ?_
  rintro _ _ ⟨rfl, rfl⟩
  cases loadSessionFlushed with
  | error e =>
    refine wpe_seq (P := fun result _ => result = .error e) ((wpe_pure ..).2 rfl) ?_
    rintro _ s₃ rfl
    exact wpe_ignored fun _ s₄ => wpe_failed s₄
  | ok _ =>
    refine wpe_seq ((careful_unsealWithPolicy _ _ _).attempt (h₂ _ rfl)) ?_
    rintro (e | key) s₃ h₃
    · exact wpe_ignored fun _ s₄ => wpe_failed s₄
    refine wpe_seq ((careful_flush _).attempt (h₃ key rfl)) ?_
    intro objectFlushed s₄ h₄
    refine wpe_seq (P := fun k s' => k = key ∧ s' = s₄) ⟨rfl, rfl⟩ ?_
    rintro _ _ ⟨rfl, rfl⟩
    cases objectFlushed with
    | error e => exact wpe_failed _
    | ok _ => exact h₄ _ rfl

end Success

/-! ## The theorem -/

/-- **Handles.** When the flushes succeed, sealing, unsealing and changing the lockout authValue
return with the sessions open and the objects loaded that they were called with, exactly when no
session was refused its attributes. Unsealing returns the key only when every call succeeded, the
flushes included. -/
theorem handlesKept_iff (E : Primitives) (X : Conversions) (primary : Handle) (w : Context) :
    (∀ pin secret entropy r s', Returns (trailed E flushesSucceed)
        (sealSecret X primary pin secret entropy).run (w, []) r s' →
        (HandlesKept w s'.1 ↔ ¬ AttributesRefused s'.2)) ∧
    (∀ sealed pin r s',
      Returns (trailed E flushesSucceed) (unsealSealed X primary sealed pin).run (w, []) r s' →
        (HandlesKept w s'.1 ↔ ¬ AttributesRefused s'.2)) ∧
    (∀ current new r s',
      Returns (trailed E flushesSucceed) (setLockoutAuth X primary current new).run (w, []) r s' →
        (HandlesKept w s'.1 ↔ ¬ AttributesRefused s'.2)) ∧
    ∀ sealed pin key s',
      Returns (trailed E anyReply) (unsealSealed X primary sealed pin).run (w, []) (.ok key) s' →
        AllSucceeded s'.2 := by
  have hstart : Holds w.openSessions w.loadedObjects (w, []) := by
    refine ⟨rfl, rfl, ?_⟩
    rintro ⟨_, _, _, h⟩
    cases h
  have hends : ∀ {α : Type} {x : Io α} {r : Except Error α} {s' : Trailed},
      wpe (trailed E flushesSucceed) Eq (fun _ _ => True) x
        (fun _ s' => Ends w.openSessions w.loadedObjects s')
        (fun _ s' => Ends w.openSessions w.loadedObjects s') (w, []) →
      Returns (trailed E flushesSucceed) x.run (w, []) r s' →
      (HandlesKept w s'.1 ↔ ¬ AttributesRefused s'.2) := by
    intro α x r s' hx hr
    refine Ends.kept_iff ?_
    cases r with
    | ok a => exact returns_ok (Q := fun _ s' => Ends w.openSessions w.loadedObjects s') hx hr
    | error e => exact returns_error (E := fun _ s' => Ends w.openSessions w.loadedObjects s') hx hr
  refine ⟨?_, ?_, ?_, ?_⟩
  · intro pin secret entropy r s' hr
    exact hends (sealSecret_spec hstart) hr
  · intro sealed pin r s' hr
    exact hends (unsealSealed_spec hstart) hr
  · intro current new r s' hr
    exact hends (setLockoutAuth_spec hstart) hr
  · intro sealed pin key s' hr
    have hcareful : Careful E anyReply (unsealSealed X primary sealed pin) :=
      careful_unsealSealed X primary sealed pin
    exact returns_ok (Q := fun _ s' => AllSucceeded s'.2) (hcareful (w, []) nofun) hr

namespace Chip

/-- Conversions that accept everything. -/
def plain : Conversions where
  auth := .ok
  auth_ok _ := rfl
  sensitiveData := .ok
  sensitiveData_ok _ := rfl
  objectAttributes := .ok
  objectAttributes_ok _ := rfl
  build := .ok
  build_ok _ := rfl

def pin : SecretBytes := [1, 2, 3, 4]

def key : SecretBytes := [42]

/-- A TPM with its storage primary under the handle 0. -/
def chip : Context where
  tpm := ⟨0, [], ⟨0, 32, 7200⟩⟩
  sessions _ := none
  objects h := if h = 0 then some ⟨sample.primaryName 0, none, []⟩ else none
  lockoutAuth := []

def sealed : SealedObject where
  pub := (sample.create 0 [] pin key).1
  priv := (sample.create 0 [] pin key).2
  primaryName := sample.primaryName 0

/-- The calls of unsealing, when all go well: the session 1, the object 2, and the session 1. -/
def replies : List Reply :=
  [.ok 0, .ok 1, .ok 0, .ok 2, .ok 0, .ok 0, .ok 1, .ok 0, .ok 0, .ok 0, .ok 0, .ok 0]

/-- The session for loading is refused its attributes. -/
def refusal : List Reply := [.ok 0, .ok 1, .failed (.wrapper "out of memory")]

def unsealing (replies : List Reply) : Prog Call.Res (Except Error SecretBytes) × Trailed :=
  run (trailed sample flushesSucceed) replies (unsealSealed plain 0 sealed pin).run (chip, [])

theorem admits_replies : Admits (trailed sample flushesSucceed) replies
    (unsealSealed plain 0 sealed pin).run (chip, []) := by
  refine ⟨⟨trivial, trivial⟩, ⟨⟨rfl, rfl⟩, trivial⟩, ⟨trivial, trivial⟩, ⟨⟨rfl, rfl⟩, trivial⟩,
    ⟨trivial, 0, rfl⟩, ⟨trivial, trivial⟩, ⟨⟨rfl, rfl⟩, trivial⟩, ⟨trivial, trivial⟩,
    ⟨trivial, trivial⟩, ⟨trivial, trivial⟩, ⟨trivial, 0, rfl⟩, ⟨trivial, 0, rfl⟩, trivial⟩

end Chip

open Chip in
theorem handlesKept_iff_sample :
    HandlesKept chip (unsealing replies).2.1 ↔ ¬ AttributesRefused (unsealing replies).2.2 :=
  (handlesKept_iff sample plain 0 chip).2.1 sealed pin (.ok key) (unsealing replies).2
    (returns_run admits_replies rfl)

open Chip in
/-- When the attributes are refused, the session stays open. -/
theorem not_handlesKept_refusal :
    ¬ ∀ r s', Returns (trailed sample flushesSucceed) (unsealSealed plain 0 sealed pin).run
      (chip, []) r s' → HandlesKept chip s'.1 := by
  intro h
  have hadmits : Admits (trailed sample flushesSucceed) refusal
      (unsealSealed plain 0 sealed pin).run (chip, []) :=
    ⟨⟨trivial, trivial⟩, ⟨⟨rfl, rfl⟩, trivial⟩, ⟨trivial, trivial⟩, trivial⟩
  have hkept := h (.error (.session "out of memory")) (unsealing refusal).2
    (returns_run hadmits rfl)
  have hopen : (1 : Handle) ∈ (unsealing refusal).2.1.openSessions := nofun
  rw [hkept.1] at hopen
  exact hopen rfl

end Esapi

end Tess

import Mathlib.Data.Finmap
import Mathlib.Data.Finset.Sort
import Mathlib.Data.List.Sort
import Mathlib.Data.Set.Finite.Basic
import Mathlib.Data.String.Basic
import Tess.Enroll.Sample
import Tess.Mug.Directory

/-!
# The enrolled users

The enrollment store is a finite map from names to records. The directory holds a map when its
records are those of the map and nothing else is called a record. Every call finds the directory
holding a map and leaves it holding the next one, and wherever it is stopped the directory holds one
of the two; so the replies of a session are those of a map (`enrollStore_refines_map`).
-/

namespace Tess

namespace Mug

open Files Effects

variable {F : Type}

namespace EnrollStore

variable (J : EnrollmentJson F) (dir : PathBuf)

/-! ## The map -/

abbrev Enrolled (F : Type) := Finmap fun _ : String => FaceEnrollment F

/-- The reply, and the map after it, to a call with a user name: one that is no file name is
refused, and changes nothing. -/
def named (m : Enrolled F) (username : String) (r : Reply F) (m' : Enrolled F) :
    Except (MugError F) (Reply F) × Enrolled F :=
  if IsName username then (.ok r, m') else (.error (.invalidUsername username), m)

def Call.spec (m : Enrolled F) : Call F → Except (MugError F) (Reply F) × Enrolled F
  | .save username enrollment =>
    if enrollment.version = enrollmentVersion then
      named m username .saved (m.insert username enrollment)
    else (.error (unsupportedVersion enrollment.version), m)
  | .load username => named m username (.record (m.lookup username)) m
  | .remove username =>
    named m username (.removed (m.lookup username).isSome) (m.erase username)
  | .isEnrolled username => named m username (.enrolled (m.lookup username).isSome) m
  | .listUsers => (.ok (.users m.keys.sort), m)

/-- A record that is loaded can be read back. -/
def Readable (isFinite : F → Prop) (m : Enrolled F) : Call F → Prop
  | .load username => ∀ t, m.lookup username = some t → t.Finite isFinite
  | _ => True

/-- The map after a history of calls that reply as the map does, from the empty one. A call that was
stopped has been made or not. -/
inductive Follows (isFinite : F → Prop) :
    History (Call F) (Except (MugError F) (Reply F)) → Enrolled F → Prop
  | start : Follows isFinite [] ∅
  | replied {ks : History (Call F) (Except (MugError F) (Reply F))} {m : Enrolled F} {k : Call F}
      {r : Except (MugError F) (Reply F)} (h : Follows isFinite ks m)
      (hr : Readable isFinite m k → r = (k.spec m).1) :
      Follows isFinite ((k, some r) :: ks) (k.spec m).2
  | stopped {ks : History (Call F) (Except (MugError F) (Reply F))} {m m' : Enrolled F} {k : Call F}
      (h : Follows isFinite ks m) (hm : m' = m ∨ m' = (k.spec m).2) :
      Follows isFinite ((k, none) :: ks) m'

/-- The directory holds the records of a map, and nothing else that is called a record. -/
structure Holds (m : Enrolled F) (d : Disk PathBuf) : Prop where
  dir_node : d.node dir = none ∨ ∃ mode, d.node dir = some (.dir mode)
  child_eq_none (h : d.node dir = none) (name : String) : d.node (child dir name) = none
  record {username : String} {t : FaceEnrollment F} (h : m.lookup username = some t) :
    IsName username ∧ t.version = enrollmentVersion ∧ ∃ bytes, J.toVecPretty t = .ok bytes ∧
      d.node (recordPath dir username) = some (.file bytes 0o600)
  only {name : String} (h : d.node (child dir name) ≠ none)
    (hext : extension (child dir name) = some "json") : ∃ u ∈ m, name = u ++ ".json"
  finite : {p | d.node p ≠ none}.Finite

/-- A disk without records: the directory may be there, with files that are called anything else. -/
structure NoRecords (d : Disk PathBuf) : Prop where
  dir_node : d.node dir = none ∨ ∃ mode, d.node dir = some (.dir mode)
  child_eq_none (h : d.node dir = none) (name : String) : d.node (child dir name) = none
  none_called (name : String) (h : d.node (child dir name) ≠ none) :
    extension (child dir name) ≠ some "json"
  finite : {p | d.node p ≠ none}.Finite

variable {J dir}

/-! ## What the directory holds -/

section Holds

variable {m : Enrolled F} {d : Disk PathBuf}

theorem NoRecords.holds (h : NoRecords dir d) : Holds J dir ∅ d where
  dir_node := h.dir_node
  child_eq_none := h.child_eq_none
  record hm := by cases hm
  only hn hext := absurd hext (h.none_called _ hn)
  finite := h.finite

/-- There is no file for a user who is not enrolled. -/
theorem Holds.node_eq_none (h : Holds J dir m d) {username : String} (hu : IsName username)
    (hm : m.lookup username = none) : d.node (recordPath dir username) = none := by
  by_contra hn
  obtain ⟨v, hv, hname⟩ := h.only hn (extension_recordPath hu.1)
  obtain rfl : username = v := recordPath_inj.1 (congrArg (child dir) hname)
  exact Finmap.lookup_eq_none.1 hm hv

/-- The file of a user is there where the user is enrolled, and it is a regular one. -/
theorem Holds.isFile (h : Holds J dir m d) {username : String} (hu : IsName username) :
    (d.stat (recordPath dir username)).any Node.isFile = (m.lookup username).isSome := by
  cases hm : m.lookup username with
  | none => simp [Disk.stat_of_none (h.node_eq_none hu hm)]
  | some t =>
    obtain ⟨-, -, bytes, -, hn⟩ := h.record hm
    simp [Disk.stat_of_file hn, Node.isFile]

theorem finite_set (h : {p | d.node p ≠ none}.Finite) (p : PathBuf) (n : Option (Node PathBuf)) :
    {q | (d.set p n).node q ≠ none}.Finite := by
  refine (h.insert p).subset fun q hq => ?_
  by_cases hqp : q = p
  · exact .inl hqp
  · have hq : (d.set p n).node q ≠ none := hq
    rw [Disk.set_node_of_ne _ _ hqp] at hq
    exact .inr hq

@[simp] theorem node_dir_set_child (d : Disk PathBuf) (name : String) (n : Option (Node PathBuf)) :
    (d.set (child dir name) n).node dir = d.node dir :=
  Disk.set_node_of_ne _ _ (child_ne_self _ _).symm

@[simp] theorem node_child_set_dir (d : Disk PathBuf) (n : Option (Node PathBuf)) (name : String) :
    (d.set dir n).node (child dir name) = d.node (child dir name) :=
  Disk.set_node_of_ne _ _ (child_ne_self _ _)

theorem Holds.set_dir (h : Holds J dir m d) (mode : ℕ) :
    Holds J dir m (d.set dir (some (.dir mode))) where
  dir_node := .inr ⟨mode, Disk.set_node_same ..⟩
  child_eq_none hn := by simp at hn
  record hm := by
    rw [recordPath, node_child_set_dir]
    exact h.record hm
  only hn hext := by
    rw [node_child_set_dir] at hn
    exact h.only hn hext
  finite := finite_set h.finite ..

/-- A file that is not called a record does not matter. -/
theorem Holds.set_other (h : Holds J dir m d) (hdir : d.node dir ≠ none) {name : String}
    (hname : extension (child dir name) ≠ some "json") (n : Option (Node PathBuf)) :
    Holds J dir m (d.set (child dir name) n) where
  dir_node := by
    rw [node_dir_set_child]
    exact h.dir_node
  child_eq_none hn := by
    rw [node_dir_set_child] at hn
    exact absurd hn hdir
  record {username t} hm := by
    obtain ⟨hu, hrecord⟩ := h.record hm
    rw [Disk.set_node_of_ne]
    · exact ⟨hu, hrecord⟩
    · intro he
      exact hname (he ▸ extension_recordPath hu.1)
  only {name'} hn hext := by
    rw [Disk.set_node_of_ne] at hn
    · exact h.only hn hext
    · rintro he
      exact hname (he ▸ hext)
  finite := finite_set h.finite ..

theorem Holds.set_record (h : Holds J dir m d) (hdir : d.node dir ≠ none) {username : String}
    (hu : IsName username) {t : FaceEnrollment F} (ht : t.version = enrollmentVersion)
    {bytes : Bytes} (hj : J.toVecPretty t = .ok bytes) :
    Holds J dir (m.insert username t)
      (d.set (recordPath dir username) (some (.file bytes 0o600))) where
  dir_node := by
    rw [recordPath, node_dir_set_child]
    exact h.dir_node
  child_eq_none hn := by
    rw [recordPath, node_dir_set_child] at hn
    exact absurd hn hdir
  record {v t'} hm := by
    by_cases hv : v = username
    · subst hv
      obtain rfl : t = t' := by simpa using hm
      exact ⟨hu, ht, bytes, hj, Disk.set_node_same ..⟩
    · rw [Finmap.lookup_insert_of_ne _ hv] at hm
      rw [Disk.set_node_of_ne _ _ fun he => hv (recordPath_inj.1 he)]
      exact h.record hm
  only {name} hn hext := by
    by_cases hc : child dir name = recordPath dir username
    · exact ⟨username, Finmap.mem_insert.2 (.inl rfl), child_inj.1 hc⟩
    · rw [Disk.set_node_of_ne _ _ hc] at hn
      obtain ⟨v, hv, hname⟩ := h.only hn hext
      exact ⟨v, Finmap.mem_insert.2 (.inr hv), hname⟩
  finite := finite_set h.finite ..

theorem Holds.unset_record (h : Holds J dir m d) (username : String) :
    Holds J dir (m.erase username) (d.set (recordPath dir username) none) where
  dir_node := by
    rw [recordPath, node_dir_set_child]
    exact h.dir_node
  child_eq_none hn name := by
    rw [recordPath, node_dir_set_child] at hn
    rw [Disk.set_node, h.child_eq_none hn, ite_self]
  record {v t} hm := by
    have hv : v ≠ username := by
      rintro rfl
      simp at hm
    rw [Finmap.lookup_erase_ne hv] at hm
    rw [Disk.set_node_of_ne _ _ fun he => hv (recordPath_inj.1 he)]
    exact h.record hm
  only {name} hn hext := by
    by_cases hc : child dir name = recordPath dir username
    · rw [hc, Disk.set_node_same] at hn
      exact absurd rfl hn
    · rw [Disk.set_node_of_ne _ _ hc] at hn
      obtain ⟨v, hv, hname⟩ := h.only hn hext
      refine ⟨v, Finmap.mem_erase.2 ⟨?_, hv⟩, hname⟩
      rintro rfl
      exact hc (congrArg (child dir) hname)
  finite := finite_set h.finite ..

/-- Where there is no record, removing it changes nothing. -/
theorem Holds.erase_of_none (h : Holds J dir m d) {username : String}
    (hm : m.lookup username = none) : Holds J dir (m.erase username) d := by
  have : m.erase username = m := Finmap.ext_lookup fun v => by
    by_cases hv : v = username
    · rw [hv, Finmap.lookup_erase, hm]
    · rw [Finmap.lookup_erase_ne hv]
  rw [this]
  exact h

/-- Without the directory nobody is enrolled. -/
theorem Holds.keys_eq_empty (h : Holds J dir m d) (hn : d.node dir = none) : m.keys = ∅ := by
  refine Finset.eq_empty_of_forall_notMem fun u hu => ?_
  obtain ⟨t, ht⟩ := Finmap.mem_iff.1 (Finmap.mem_keys.1 hu)
  obtain ⟨-, -, bytes, -, hfile⟩ := h.record ht
  cases hfile.symm.trans (h.child_eq_none hn _)

/-- The users that are listed are those who are enrolled, in order. -/
theorem Holds.listed (h : Holds J dir m d) {names : List String} (hnodup : names.Nodup)
    (hmem : ∀ name, name ∈ names ↔ d.node (child dir name) ≠ none) :
    (names.filterMap (entryUser dir)).mergeSort = m.keys.sort := by
  have hperm := List.mergeSort_perm (names.filterMap (entryUser dir)) (fun a b => a ≤ b)
  have hnd : (names.filterMap (entryUser dir)).Nodup :=
    hnodup.filterMap fun a b u ha hb => by
      rw [Option.mem_def, entryUser_eq_some] at ha hb
      rw [ha.2, hb.2]
  have hkeys : ((names.filterMap (entryUser dir)).mergeSort).toFinset = m.keys := by
    ext u
    rw [List.mem_toFinset, hperm.mem_iff, List.mem_filterMap, Finmap.mem_keys]
    constructor
    · rintro ⟨name, hname, hu⟩
      obtain ⟨hne, rfl⟩ := entryUser_eq_some.1 hu
      obtain ⟨v, hv, he⟩ := h.only ((hmem _).1 hname) (extension_recordPath hne)
      exact recordPath_inj.1 (congrArg (child dir) he) ▸ hv
    · intro hu
      obtain ⟨t, ht⟩ := Finmap.mem_iff.1 hu
      obtain ⟨hname, -, bytes, -, hn⟩ := h.record ht
      refine ⟨u ++ ".json", (hmem _).2 ?_, entryUser_eq_some.2 ⟨hname.1, rfl⟩⟩
      intro hc
      cases hn.symm.trans hc
  rw [← hkeys]
  exact ((List.toFinset_sort _ (hperm.nodup_iff.2 hnd)).2 (List.pairwise_mergeSort' _ _)).symm

end Holds

/-! ## The calls -/

/-- A call leaves every file alone but those of its user. -/
def Untouched (dir : PathBuf) (k : Call F) (d d' : Disk PathBuf) : Prop :=
  ∀ p, p ≠ dir → (∀ u, k.username = some u → IsName u → p ≠ recordPath dir u ∧
    ∀ s, p ≠ sibling (recordPath dir u) s) → d'.node p = d.node p

/-- Wherever a call is stopped, it has been made or not. -/
def Between (J : EnrollmentJson F) (dir : PathBuf) (m : Enrolled F) (k : Call F)
    (d d' : Disk PathBuf) : Prop :=
  (Holds J dir m d' ∨ Holds J dir (k.spec m).2 d') ∧ Untouched dir k d d'

/-- A call replies as the map does. -/
def Replies (J : EnrollmentJson F) (dir : PathBuf) (m : Enrolled F) (k : Call F)
    (r : Except (MugError F) (Reply F)) (d : Disk PathBuf) : Prop :=
  (Readable J.isFinite m k → r = (k.spec m).1) ∧ Holds J dir (k.spec m).2 d

/-- A call started on a directory that holds the map. -/
def Meets (J : EnrollmentJson F) (dir : PathBuf) (m : Enrolled F) (k : Call F)
    (d : Disk PathBuf) : Prop :=
  wpe machine Eq (fun _ => Between J dir m k d) (k.io J dir)
    (fun a => Replies J dir m k (.ok a)) (fun e => Replies J dir m k (.error e)) d

section Calls

variable {m : Enrolled F} {d : Disk PathBuf} {guar : Disk PathBuf → Disk PathBuf → Prop}

theorem wp_sys {o : FileOp PathBuf} {Q : o.Res → Disk PathBuf → Prop} :
    wp machine Eq guar (sys o) Q d ↔
      guar d (o.exec .ok d).2 ∧ Q (o.exec .ok d).1 (o.exec .ok d).2 := by
  rw [sys, wp_call_alone]
  exact ⟨fun h => h default trivial, fun h _ _ => h⟩

theorem wp_tempSibling {path : PathBuf} {Q : PathBuf → Disk PathBuf → Prop} :
    wp machine Eq guar (tempSibling path) Q d ↔
      ∀ s, d.node (sibling path s) = none → guar d d ∧ Q (sibling path s) d := by
  rw [tempSibling, wp_bind, wp_call_alone]
  exact ⟨fun h s hs => h ⟨[], s⟩ hs, fun h c hc => h c.stamp hc⟩

/-- The bits of the directory are set when it is there. -/
theorem wpe_chmod {G : Disk PathBuf → Prop} {mode : ℕ} (hdir : d.node dir = some (.dir mode))
    (hset : ∀ mode, G (d.set dir (some (.dir mode)))) (what : String) :
    wpe machine Eq (fun _ => G)
      (unlessThen (mode &&& 0o777 = 0o700)
        (storeContext (F := F) what (ExceptT.mk (sys (.setDirPermissions dir 0o700)))))
      (fun _ d' => ∃ mode, d' = d.set dir (some (.dir mode))) (fun _ _ => False) d := by
  unfold unlessThen
  split
  · exact (wpe_pure ..).2 ⟨mode, (Disk.set_self hdir).symm⟩
  · rw [storeContext, wpe_adapt, wpe_mk, wp_sys]
    simp only [FileOp.exec, Disk.follow_of_dir hdir]
    exact ⟨hset _, _, rfl⟩

/-- The directory is there afterwards, and nothing else is changed. -/
theorem wpe_ensureDir {G : Disk PathBuf → Prop}
    (hd : d.node dir = none ∨ ∃ mode, d.node dir = some (.dir mode)) (hG : G d)
    (hset : ∀ mode, G (d.set dir (some (.dir mode)))) :
    wpe machine Eq (fun _ => G) (ensureDir (F := F) dir)
      (fun _ d' => ∃ mode, d' = d.set dir (some (.dir mode))) (fun _ _ => False) d := by
  unfold ensureDir
  refine wpe_seq (P := fun there d₁ => there = (d.stat dir).isSome ∧ d₁ = d) ?_ ?_
  · rw [wpe_lift, wp_sys]
    exact ⟨hG, rfl, rfl⟩
  rintro _ d₁ ⟨rfl, hd₁⟩
  rw [hd₁]
  refine wpe_seq (P := fun _ d₁ => ∃ mode, d₁ = d.set dir (some (.dir mode))) ?_ ?_
  · unfold unlessThen
    rcases hd with hd | ⟨mode, hd⟩
    · rw [Disk.stat_of_none hd, storeContext, if_neg (by simp), wpe_adapt, wpe_mk, wp_sys]
      simp only [FileOp.exec, Disk.stat_of_none hd, if_pos hd]
      exact ⟨hset _, _, rfl⟩
    · rw [Disk.stat_of_dir hd, if_pos (by simp), wpe_pure]
      exact ⟨mode, (Disk.set_self hd).symm⟩
  rintro - _ ⟨mode, rfl⟩
  have hdir : (d.set dir (some (.dir mode))).node dir = some (.dir mode) := Disk.set_node_same ..
  refine wpe_seq (P := fun found d₁ => found = .dir mode ∧
    d₁ = d.set dir (some (.dir mode))) ?_ ?_
  · rw [storeContext, wpe_adapt, wpe_mk, wp_sys]
    simp only [FileOp.exec, Disk.stat_of_dir hdir]
    exact ⟨hset _, rfl, rfl⟩
  rintro _ _ ⟨rfl, rfl⟩
  refine wpe_seq (P := fun _ d₁ => d₁ = d.set dir (some (.dir mode))) ?_ ?_
  · rw [wpe_ensure]
    exact ⟨fun _ => rfl, fun h => absurd rfl h⟩
  rintro - _ rfl
  refine wpe_mono (wpe_chmod hdir (fun mode' => ?_) _) ?_ fun _ _ => id
  · rw [Disk.set_set]
    exact hset mode'
  · rintro - _ ⟨mode', rfl⟩
    exact ⟨mode', Disk.set_set ..⟩

theorem named_of_isName {username : String} (hu : IsName username) (r : Reply F)
    (m' : Enrolled F) : named m username r m' = (.ok r, m') := if_pos hu

theorem named_of_not {username : String} (hu : ¬ IsName username) (r : Reply F)
    (m' : Enrolled F) : named m username r m' = (.error (.invalidUsername username), m) := if_neg hu

/-- The reply to a call with a name. -/
theorem Replies.named {k : Call F} {username : String} {r : Reply F} {m' : Enrolled F}
    (hk : k.spec m = named m username r m') (hu : IsName username) (h : Holds J dir m' d) :
    Replies J dir m k (.ok r) d := by
  rw [named_of_isName hu] at hk
  rw [Replies, hk]
  exact ⟨fun _ => rfl, h⟩

theorem Replies.refused {k : Call F} {username : String} {r : Reply F} {m' : Enrolled F}
    (hk : k.spec m = EnrollStore.named m username r m') (hu : ¬ IsName username)
    (h : Holds J dir m d) : Replies J dir m k (.error (.invalidUsername username)) d := by
  rw [named_of_not hu] at hk
  rw [Replies, hk]
  exact ⟨fun _ => rfl, h⟩

theorem Between.refl (h : Holds J dir m d) (k : Call F) : Between J dir m k d d :=
  ⟨.inl h, fun _ _ _ => rfl⟩

theorem Between.chmod (h : Holds J dir m d) (k : Call F) (mode : ℕ) :
    Between J dir m k d (d.set dir (some (.dir mode))) :=
  ⟨.inl (h.set_dir mode), fun _ hp _ => Disk.set_node_of_ne _ _ hp⟩

theorem Untouched.chmod (k : Call F) (mode : ℕ) :
    Untouched dir k d (d.set dir (some (.dir mode))) :=
  fun _ hp _ => Disk.set_node_of_ne _ _ hp

theorem Untouched.record {k : Call F} {d' : Disk PathBuf} (h : Untouched dir k d d')
    {username : String} (hk : k.username = some username) (hu : IsName username)
    (n : Option (Node PathBuf)) : Untouched dir k d (d'.set (recordPath dir username) n) :=
  fun p hp hfiles => by
    rw [Disk.set_node_of_ne _ _ (hfiles username hk hu).1]
    exact h p hp hfiles

theorem Untouched.sibling {k : Call F} {d' : Disk PathBuf} (h : Untouched dir k d d')
    {username : String} (hk : k.username = some username) (hu : IsName username) (s : Stamp)
    (n : Option (Node PathBuf)) :
    Untouched dir k d (d'.set (sibling (recordPath dir username) s) n) :=
  fun p hp hfiles => by
    rw [Disk.set_node_of_ne _ _ ((hfiles username hk hu).2 s)]
    exact h p hp hfiles

/-- The directory has been set up, and nothing else has happened. -/
structure Ready (J : EnrollmentJson F) (dir : PathBuf) (m : Enrolled F) (k : Call F)
    (d d₁ : Disk PathBuf) : Prop where
  holds : Holds J dir m d₁
  dir_node : d₁.node dir ≠ none
  untouched : Untouched dir k d d₁

theorem Ready.between {k : Call F} {d₁ : Disk PathBuf} (h : Ready J dir m k d d₁) :
    Between J dir m k d d₁ := ⟨.inl h.holds, h.untouched⟩

theorem wpe_ready (h : Holds J dir m d) (k : Call F) :
    wpe machine Eq (fun _ => Between J dir m k d) (ensureDir (F := F) dir)
      (fun _ => Ready J dir m k d) (fun _ _ => False) d := by
  refine wpe_mono (wpe_ensureDir h.dir_node (.refl h k) (.chmod h k)) ?_ fun _ _ => id
  rintro - _ ⟨mode, rfl⟩
  exact ⟨h.set_dir mode, by simp, .chmod k mode⟩

/-- A call with a user name sets up the directory, and goes on if the name is one. -/
theorem wpe_withUser {α : Type} {k : Call F} (h : Holds J dir m d) {username : String}
    {f : PathBuf → Io F α} {Q : α → Disk PathBuf → Prop} {E : MugError F → Disk PathBuf → Prop}
    (herr : ¬ IsName username → ∀ d', Holds J dir m d' → E (.invalidUsername username) d')
    (hok : IsName username → ∀ d₁, Ready J dir m k d d₁ →
      wpe machine Eq (fun _ => Between J dir m k d) (f (recordPath dir username)) Q E d₁) :
    wpe machine Eq (fun _ => Between J dir m k d)
      (do
        ensureDir dir
        let path ← ofResult (userPath dir username)
        f path) Q E d := by
  refine wpe_step (wpe_ready h k) nofun fun _ d₁ h₁ => ?_
  by_cases hu : IsName username
  · rw [userPath_of_isName hu]
    exact hok hu d₁ h₁
  · rw [userPath_of_not hu]
    exact herr hu _ h₁.holds

theorem meets_load (h : Holds J dir m d) (username : String) :
    Meets J dir m (.load username) d := by
  rw [Meets, Call.io, wpe_bind, EnrollStore.load]
  refine wpe_withUser h (fun hu _ => .refused rfl hu) fun hu d₁ h₁ => ?_
  rw [wpe_bind, wpe_lift, wp_sys]
  refine ⟨h₁.between, ?_⟩
  cases hm : m.lookup username with
  | none =>
    simp only [FileOp.exec, Disk.stat_of_none (h₁.holds.node_eq_none hu hm), Option.elim_none,
      wpe_pure]
    exact .named (hm ▸ rfl) hu h₁.holds
  | some t =>
    obtain ⟨-, ht, bytes, hj, hn⟩ := h₁.holds.record hm
    simp only [FileOp.exec, Disk.stat_of_file hn, Option.elim_some, FileOp.readNode]
    have hspec : (Call.load username).spec m = (.ok (.record (some t)), m) := by
      rw [Call.spec, named_of_isName hu, hm]
    by_cases hfin : t.Finite J.isFinite
    · have hv : t.validateVersion = .ok () := if_neg (not_not.2 ht)
      rw [J.fromSlice_toVecPretty hfin hj, Except.mapError, wpe_ofResult_ok_bind, hv,
        wpe_ofResult_ok_bind, wpe_pure, wpe_pure, Replies, hspec]
      exact ⟨fun _ => rfl, h₁.holds⟩
    · -- What is read back is not known, but the file stays as it is.
      have hany : ∀ r, Replies J dir m (.load username) r d₁ := by
        intro r
        rw [Replies, hspec]
        exact ⟨fun hread => absurd (hread t hm) hfin, h₁.holds⟩
      cases J.fromSlice bytes with
      | error e => exact hany _
      | ok t' =>
        rw [Except.mapError, wpe_ofResult_ok_bind]
        cases t'.validateVersion with
        | error e => exact hany _
        | ok _ => exact hany _

theorem meets_remove (h : Holds J dir m d) (username : String) :
    Meets J dir m (.remove username) d := by
  rw [Meets, Call.io, wpe_bind, EnrollStore.remove]
  refine wpe_withUser h (fun hu _ => .refused rfl hu) fun hu d₁ h₁ => ?_
  have hreply (existed : Bool) (hm : (m.lookup username).isSome = existed) (d' : Disk PathBuf)
      (hd' : Holds J dir (m.erase username) d') :
      Replies J dir m (.remove username) (.ok (.removed existed)) d' :=
    .named (hm ▸ rfl) hu hd'
  rw [wpe_bind, wpe_lift, wp_sys]
  cases hm : m.lookup username with
  | none =>
    simp only [FileOp.exec, h₁.holds.node_eq_none hu hm]
    exact ⟨h₁.between, hreply false (by rw [hm]; rfl) _ (h₁.holds.erase_of_none hm)⟩
  | some t =>
    obtain ⟨-, -, bytes, -, hn⟩ := h₁.holds.record hm
    have herased := h₁.holds.unset_record username
    simp only [FileOp.exec, hn]
    refine ⟨⟨.inr ?_, h₁.untouched.record rfl hu _⟩, hreply true (by rw [hm]; rfl) _ herased⟩
    rw [Call.spec, named_of_isName hu]
    exact herased

theorem meets_isEnrolled (h : Holds J dir m d) (username : String) :
    Meets J dir m (.isEnrolled username) d := by
  rw [Meets, Call.io, wpe_bind, EnrollStore.isEnrolled]
  by_cases hu : IsName username
  · rw [userPath_of_isName hu, wpe_ofResult_ok_bind, wpe_lift, wp_sys]
    simp only [FileOp.exec, h.isFile hu, wpe_pure]
    exact ⟨.refl h _, .named rfl hu h⟩
  · rw [userPath_of_not hu, wpe_ofResult_error_bind]
    exact .refused rfl hu h

theorem meets_listUsers (h : Holds J dir m d) : Meets J dir m .listUsers d := by
  rw [Meets, Call.io, EnrollStore.listUsers]
  refine wpe_seq (P := fun names d' => names = m.keys.sort ∧ Holds J dir m d') ?_ ?_
  · refine wpe_seq (P := fun there d' => there = (d.stat dir).isSome ∧ d' = d) ?_ ?_
    · rw [wpe_lift, wp_sys]
      exact ⟨.refl h _, rfl, rfl⟩
    rintro _ d' ⟨rfl, hd'⟩
    rw [hd']
    rcases h.dir_node with hn | ⟨mode, hn⟩
    · rw [Disk.stat_of_none hn, if_neg (by simp), wpe_pure, h.keys_eq_empty hn]
      exact ⟨(Finset.sort_empty _).symm, h⟩
    rw [Disk.stat_of_dir hn, Option.isSome_some, if_pos rfl]
    refine wpe_step (wpe_ready h _) nofun fun _ d₁ h₁ => ?_
    obtain ⟨mode', hdir⟩ := h₁.holds.dir_node.resolve_left h₁.dir_node
    rw [wpe_bind, storeContext, wpe_adapt, wpe_mk, wp_call_alone]
    intro c hc
    refine ⟨h₁.between, ?_⟩
    simp only [machine, Disk.stat_of_dir hdir]
    exact ⟨h₁.holds.listed hc.1 hc.2, h₁.holds⟩
  · rintro _ d' ⟨rfl, hd'⟩
    exact ⟨fun _ => rfl, hd'⟩

theorem wpe_writeAll {G : Disk PathBuf → Prop} {p : PathBuf} {mode : ℕ}
    (hG : ∀ b, G (d.set p (some (.file b mode)))) {b₀ : Bytes}
    (hn : d.node p = some (.file b₀ mode)) (bytes : Bytes) :
    wpe machine Eq (fun _ => G) (writeAll p bytes)
      (fun _ d' => d' = d.set p (some (.file (b₀ ++ bytes) mode))) (fun _ _ => False) d := by
  induction bytes generalizing d b₀ with
  | nil =>
    rw [writeAll, wpe_pure, List.append_nil, Disk.set_self hn]
  | cons b bytes ih =>
    have hset (b' : Bytes) : (d.set p (some (.file (b₀ ++ [b]) mode))).set p
        (some (.file b' mode)) = d.set p (some (.file b' mode)) := Disk.set_set ..
    rw [writeAll, wpe_bind, wpe_mk, wp_sys, FileOp.exec_writeAll hn, Fault.written, if_pos rfl]
    refine ⟨hG _, wpe_mono (ih (fun b' => ?_) (Disk.set_node_same ..)) ?_ fun _ _ => id⟩
    · rw [hset]
      exact hG b'
    · rintro - d' rfl
      rw [hset, List.append_assoc, List.singleton_append]

/-- A new file is written, and is there with part of its bytes until it has all of them. -/
theorem wpe_writePrivate {G : Disk PathBuf → Prop} {p : PathBuf} (hn : d.node p = none)
    (hG : ∀ b, G (d.set p (some (.file b 0o600)))) (bytes : Bytes) :
    wpe machine Eq (fun _ => G) (writePrivate p bytes)
      (fun _ d' => d' = d.set p (some (.file bytes 0o600))) (fun _ _ => False) d := by
  have hset (b : Bytes) : (d.set p (some (.file [] 0o600))).set p (some (.file b 0o600)) =
      d.set p (some (.file b 0o600)) := Disk.set_set ..
  rw [writePrivate, wpe_bind, wpe_mk, wp_sys]
  simp only [FileOp.exec, if_pos hn]
  refine ⟨hG [], wpe_step (wpe_writeAll (fun b => ?_) (Disk.set_node_same ..) bytes)
    (fun _ _ h => h.elim) ?_⟩
  · rw [hset]
    exact hG b
  · rintro - d' rfl
    rw [hset, List.nil_append, wpe_mk, wp_sys]
    exact ⟨hG bytes, rfl⟩

/-- The temporary file becomes the record. -/
theorem exec_rename {tmp path : PathBuf} {n : Node PathBuf} (hne : path ≠ tmp)
    (hpath : ∀ mode, d.node path ≠ some (.dir mode)) :
    (FileOp.rename tmp path).exec .ok (d.set tmp (some n)) =
      (.ok (), (d.set tmp none).set path (some n)) := by
  have hp : (d.set tmp (some n)).node path = d.node path := Disk.set_node_of_ne _ _ hne
  simp only [FileOp.exec, Disk.set_node_same, hp, Disk.set_set]

theorem Holds.not_dir (h : Holds J dir m d) {username : String} (hu : IsName username) (mode : ℕ) :
    d.node (recordPath dir username) ≠ some (.dir mode) := by
  cases hm : m.lookup username with
  | none =>
    rw [h.node_eq_none hu hm]
    exact nofun
  | some t =>
    obtain ⟨-, -, bytes, -, hn⟩ := h.record hm
    rw [hn]
    simp

/-- Whatever is in a temporary file, the directory holds the map as it was. -/
theorem Ready.set_sibling {k : Call F} {d₁ : Disk PathBuf} (h : Ready J dir m k d d₁)
    {username : String} (hk : k.username = some username) (hu : IsName username) (s : Stamp)
    (n : Option (Node PathBuf)) :
    Ready J dir m k d (d₁.set (sibling (recordPath dir username) s) n) := by
  have hext := extension_sibling dir hu s
  have hfrom := h.untouched.sibling hk hu s n
  rw [sibling_recordPath hu] at hext hfrom ⊢
  refine ⟨h.holds.set_other h.dir_node hext n, ?_, hfrom⟩
  rw [node_dir_set_child]
  exact h.dir_node

theorem meets_save (h : Holds J dir m d) (username : String) (t : FaceEnrollment F) :
    Meets J dir m (.save username t) d := by
  rw [Meets, Call.io, wpe_bind, EnrollStore.save]
  by_cases ht : t.version = enrollmentVersion
  · have hv : t.validateVersion = .ok () := if_neg (not_not.2 ht)
    have hspec : (Call.save username t).spec m = named m username .saved (m.insert username t) :=
      if_pos ht
    rw [hv, wpe_ofResult_ok_bind]
    refine wpe_withUser h (fun hu _ => .refused hspec hu) fun hu d₁ h₁ => ?_
    obtain ⟨json, hj⟩ := J.toVecPretty_ok t
    rw [wpe_bind, wpe_lift, wp_tempSibling]
    intro s hs
    refine ⟨h₁.between, ?_⟩
    rw [hj, Except.mapError, wpe_ofResult_ok_bind]
    have htmp := h₁.set_sibling rfl hu s
    have hsaved := (htmp none).holds.set_record (htmp none).dir_node hu ht hj
    refine wpe_seq ((wpe_cleanup ..).2 (wpe_mono (wpe_writePrivate hs (fun b => ?_) json)
      (fun _ _ => id) nofun)) ?_
    · exact (htmp _).between
    rintro - _ rfl
    -- The record is replaced in one step.
    have hdone : Between J dir m (.save username t) d ((d₁.set (sibling (recordPath dir username) s)
        none).set (recordPath dir username) (some (.file json 0o600))) := by
      refine ⟨.inr ?_, (htmp none).untouched.record rfl hu _⟩
      rw [hspec, named_of_isName hu]
      exact hsaved
    rw [wpe_bind, wpe_cleanup, wpe_mk, wp_sys,
      exec_rename (recordPath_ne_sibling hu hu _) (h₁.holds.not_dir hu)]
    refine ⟨hdone, ?_⟩
    rw [outcome_ok, storeContext, wpe_adapt, wpe_mk, wp_sys]
    exact ⟨hdone, .named hspec hu hsaved⟩
  · have hv : t.validateVersion = .error (unsupportedVersion t.version) := if_pos ht
    have hspec : (Call.save username t).spec m = (.error (unsupportedVersion t.version), m) :=
      if_neg ht
    rw [hv, wpe_ofResult_error_bind, Replies, hspec]
    exact ⟨fun _ => rfl, h⟩

theorem meets (h : Holds J dir m d) (k : Call F) : Meets J dir m k d := by
  cases k with
  | save username t => exact meets_save h username t
  | load username => exact meets_load h username
  | remove username => exact meets_remove h username
  | isEnrolled username => exact meets_isEnrolled h username
  | listUsers => exact meets_listUsers h

/-! ## Every call returns -/

/-- A temporary name is only asked for next to a record. -/
def Asks (dir : PathBuf) : Op → Prop
  | .stamp path => ∃ username, IsName username ∧ path = recordPath dir username
  | _ => True

theorem all_sys (o : FileOp PathBuf) : (sys o).All (Asks dir) := ⟨trivial, fun _ => trivial⟩

theorem allOps_storeContext (what : String) {α : Type} {x : FileIo α} (hx : AllOps (Asks dir) x) :
    AllOps (Asks dir) (storeContext (F := F) what x) := hx.adapt _

theorem allOps_ensureDir : AllOps (Asks dir) (ensureDir (F := F) dir) := by
  refine (allOps_lift (all_sys _)).bind fun _ => ?_
  refine AllOps.bind (AllOps.unlessThen (allOps_storeContext _ ?_) _) fun _ => ?_
  · exact all_sys _
  refine AllOps.bind (allOps_storeContext _ ?_) fun _ => (allOps_ensure _ _).bind fun _ => ?_
  · exact all_sys _
  refine AllOps.unlessThen (allOps_storeContext _ ?_) _
  exact all_sys _

theorem allOps_withName {α : Type} {username : String} {f : PathBuf → Io F α}
    (hf : IsName username → AllOps (Asks dir) (f (recordPath dir username))) :
    AllOps (Asks dir) (ofResult (userPath dir username) >>= f) := by
  by_cases hu : IsName username
  · rw [userPath_of_isName hu]
    exact hf hu
  · rw [userPath_of_not hu]
    trivial

theorem allOps_writeAll (p : PathBuf) (bytes : Bytes) : AllOps (Asks dir) (writeAll p bytes) := by
  induction bytes with
  | nil => trivial
  | cons b bytes ih => exact AllOps.bind (all_sys _) fun _ => ih

theorem allOps_writePrivate (p : PathBuf) (bytes : Bytes) :
    AllOps (Asks dir) (writePrivate p bytes) :=
  AllOps.bind (all_sys _) fun _ => (allOps_writeAll p bytes).bind fun _ => all_sys _

theorem all_discard (p : PathBuf) : (discard p).All (Asks dir) :=
  (all_sys _).bind fun _ => trivial

theorem allOps_save (username : String) (t : FaceEnrollment F) :
    AllOps (Asks dir) (save J dir username t) := by
  refine AllOps.bind trivial fun _ => allOps_ensureDir.bind fun _ => allOps_withName fun hu => ?_
  refine (allOps_lift ?_).bind fun tmp => AllOps.bind trivial fun json => ?_
  · exact ⟨⟨username, hu, rfl⟩, fun _ => trivial⟩
  refine ((allOps_writePrivate _ _).cleanup (all_discard _) _).bind fun _ => ?_
  refine AllOps.bind (AllOps.cleanup ?_ (all_discard _) _) fun _ => allOps_storeContext _ ?_
  · exact all_sys _
  · exact all_sys _

theorem allOps_io (k : Call F) : AllOps (Asks dir) (k.io J dir) := by
  cases k with
  | save username t => exact (allOps_save username t).bind fun _ => trivial
  | load username =>
    refine AllOps.bind (allOps_ensureDir.bind fun _ => allOps_withName fun _ => ?_) fun _ => trivial
    refine (allOps_lift (all_sys _)).bind fun r => ?_
    cases r with
    | ok bytes => exact AllOps.bind trivial fun _ => AllOps.bind trivial fun _ => trivial
    | error e => cases e <;> trivial
  | remove username =>
    refine AllOps.bind (allOps_ensureDir.bind fun _ => allOps_withName fun _ => ?_) fun _ => trivial
    refine (allOps_lift (all_sys _)).bind fun r => ?_
    cases r with
    | ok _ => trivial
    | error e => cases e <;> trivial
  | isEnrolled username =>
    exact AllOps.bind (allOps_withName fun _ => allOps_lift (all_sys _)) fun _ => trivial
  | listUsers =>
    refine AllOps.bind ((allOps_lift (all_sys _)).bind fun there => ?_) fun _ => trivial
    split
    · refine allOps_ensureDir.bind fun _ => AllOps.bind ?_ fun _ => trivial
      exact allOps_storeContext _ ⟨trivial, fun _ => trivial⟩
    · trivial

theorem length_toString_pow (n : ℕ) : (toString (10 ^ n)).length = n + 1 := by
  have hlen : (toString (10 ^ n)).length = (Nat.toDigits 10 (10 ^ n)).length := by
    rw [← String.length_toList, Nat.toString_eq_repr, Nat.toList_repr]
  have hle : (Nat.toDigits 10 (10 ^ n)).length ≤ n + 1 :=
    (Nat.length_toDigits_le_iff (by omega) (by omega)).2
      (Nat.pow_lt_pow_right (by omega) (by omega))
  have hpos : 0 < (Nat.toDigits 10 (10 ^ n)).length := Nat.length_toDigits_pos
  have hgt : 0 < n → ¬ (Nat.toDigits 10 (10 ^ n)).length ≤ n := fun hn h =>
    Nat.lt_irrefl _ ((Nat.length_toDigits_le_iff (by omega) hn).1 h)
  omega

/-- There is always a new temporary name. -/
theorem exists_stamp {username : String} (hu : IsName username)
    (hfin : {p | d.node p ≠ none}.Finite) :
    ∃ s, d.node (sibling (recordPath dir username) s) = none := by
  by_contra hall
  refine Set.infinite_of_injective_forall_mem
    (f := fun n => sibling (recordPath dir username) ⟨0, 0, 10 ^ n⟩) ?_ ?_ hfin
  · intro a b h
    have he := congrArg extension h
    simp only [sibling_recordPath hu, extension_temp, Option.some.injEq] at he
    have := congrArg String.length he
    rw [length_toString_pow, length_toString_pow] at this
    omega
  · intro n hn
    exact hall ⟨_, hn⟩

/-- A directory can be read. -/
theorem exists_names (hfin : {p | d.node p ≠ none}.Finite) (p : PathBuf) :
    ∃ names : List String, names.Nodup ∧ ∀ name, name ∈ names ↔ d.node (child p name) ≠ none := by
  have hnames : {name | d.node (child p name) ≠ none}.Finite :=
    hfin.preimage fun _ _ _ _ h => child_inj.1 h
  exact ⟨hnames.toFinset.toList, Finset.nodup_toList _, fun name => by simp⟩

theorem call_returns (h : Holds J dir m d) (k : Call F) :
    ∃ r d', Returns machine (k.io J dir).run d r d' := by
  refine exists_returns (fun d' o hd' ho => ?_) (allOps_io k) (meets h k) (Between.refl h k)
  have hfin : {p | d'.node p ≠ none}.Finite := hd'.1.elim Holds.finite Holds.finite
  cases o with
  | file o => exact ⟨default, trivial⟩
  | readDir p =>
    obtain ⟨names, hnames⟩ := exists_names hfin p
    exact ⟨⟨names, default⟩, hnames⟩
  | stamp path =>
    obtain ⟨username, hu, rfl⟩ := ho
    obtain ⟨s, hs⟩ := exists_stamp hu hfin
    exact ⟨⟨[], s⟩, hs⟩

/-- Wherever a call is stopped. -/
theorem between_of_reaches (h : Holds J dir m d) {k : Call F}
    {p : Prog Op.Res (Except (MugError F) (Reply F))} {d' : Disk PathBuf}
    (hr : Reaches machine (k.io J dir).run d p d') : Between J dir m k d d' :=
  Reaches.invariant (meets h k) (.refl h k) hr

theorem replies_of_returns (h : Holds J dir m d) {k : Call F}
    {r : Except (MugError F) (Reply F)} {d' : Disk PathBuf}
    (hr : Returns machine (k.io J dir).run d r d') : Replies J dir m k r d' := by
  cases r with
  | ok a => exact returns_ok (Q := fun a => Replies J dir m k (.ok a)) (meets h k) hr
  | error e => exact returns_error (E := fun e => Replies J dir m k (.error e)) (meets h k) hr

/-! ## Sessions -/

/-- What a session of calls leaves is the map that follows from the history. -/
theorem session_holds {ks : History (Call F) (Except (MugError F) (Reply F))}
    (h : Effects.Session (fun _ => machine) (service J dir) (NoRecords dir) ks d) :
    ∃ m, Follows J.isFinite ks m ∧ Holds J dir m d := by
  refine Effects.Session.invariant (I := fun ks d => ∃ m, Follows J.isFinite ks m ∧ Holds J dir m d)
    (fun _ h => ⟨∅, .start, h.holds⟩) ?_ ?_ h
  · rintro ks k w ⟨m, hm, hd⟩ - -
    exact ⟨m, .stopped hm (.inl rfl), hd⟩
  · rintro ks k w ⟨m, hm, hd⟩ -
    refine wp_mono (meets hd k) (fun _ w' hw' _ => ?_) fun r w' hr => ?_
    · rcases hw'.1 with hd' | hd'
      · exact ⟨m, .stopped hm (.inl rfl), hd'⟩
      · exact ⟨_, .stopped hm (.inr rfl), hd'⟩
    · have hreply : Replies J dir m k r w' := by
        cases r with
        | ok a => exact hr
        | error e => exact hr
      exact ⟨_, .replied hm hreply.1, hreply.2⟩

/-- **The store is a finite map.** Whatever calls are made, and wherever any of them is stopped, the
replies are those of a map from names to records, and the next call returns with its reply. A call
leaves everything alone that is outside the directory, and the files of the other users. The file of
an accepted name is in the directory, is no other user's, and is no temporary file. -/
theorem enrollStore_refines_map {ks : History (Call F) (Except (MugError F) (Reply F))}
    {d : Disk PathBuf}
    (h : Effects.Session (fun _ => machine) (service J dir) (NoRecords dir) ks d) :
    (∃ m, Follows J.isFinite ks m ∧ ∀ k : Call F,
      (∃ r d', Returns machine (k.io J dir).run d r d') ∧
      ∀ r d', Returns machine (k.io J dir).run d r d' →
        Readable J.isFinite m k → r = (k.spec m).1) ∧
    (∀ (k : Call F) p d', Reaches machine (k.io J dir).run d p d' →
      (∀ q, q ≠ dir → (∀ name, q ≠ child dir name) → d'.node q = d.node q) ∧
      ∀ u path, k.username ≠ some u → userPath (F := F) dir u = .ok path →
        d'.node path = d.node path) ∧
    ∀ u path, userPath (F := F) dir u = .ok path →
      (∃ name, IsName name ∧ path = child dir name) ∧
      (∀ v, userPath (F := F) dir v = .ok path → v = u) ∧
      ∀ v path', userPath (F := F) dir v = .ok path' → ∀ s, path ≠ sibling path' s := by
  obtain ⟨m, hm, hd⟩ := session_holds h
  refine ⟨⟨m, hm, fun k => ⟨call_returns hd k, fun r d' hr => ?_⟩⟩, fun k p d' hr => ?_,
    fun u path hpath => ?_⟩
  · exact (replies_of_returns hd hr).1
  · obtain ⟨-, hfiles⟩ := between_of_reaches hd hr
    constructor
    · intro q hq hchild
      refine hfiles q hq fun v _ hv => ⟨hchild _, fun s => ?_⟩
      rw [sibling_recordPath hv]
      exact hchild _
    · intro u path hk hpath
      obtain ⟨hu, rfl⟩ := userPath_eq_ok hpath
      refine hfiles _ (child_ne_self _ _) fun v hkv hv => ⟨?_, recordPath_ne_sibling hu hv⟩
      intro he
      exact hk (recordPath_inj.1 he ▸ hkv)
  · obtain ⟨hu, rfl⟩ := userPath_eq_ok hpath
    refine ⟨⟨_, isName_json hu, rfl⟩, fun v hv => ?_, fun v path' hv s => ?_⟩
    · obtain ⟨-, he⟩ := userPath_eq_ok hv
      exact (recordPath_inj.1 he).symm
    · obtain ⟨hname, rfl⟩ := userPath_eq_ok hv
      exact recordPath_ne_sibling hu hname s

end Calls

/-! ## A reader and writer -/

namespace Sample

/-- The fields of a record of natural numbers, those of the embedding last. -/
def fields (t : FaceEnrollment ℕ) : List Bytes :=
  [t.version, t.createdUnix, t.matchThreshold, t.liveness.enrolledScore,
    t.liveness.scoreThreshold].map unary ++ t.embedding.map unary

def encode (t : FaceEnrollment ℕ) : Bytes :=
  escape (unary (fields t).length) ++ escapeAll (fields t)

def decode (bytes : Bytes) : Except String (FaceEnrollment ℕ) :=
  match (unescape bytes).bind fun r => unescapeAll r.1.length r.2 with
  | some (version :: createdUnix :: matchThreshold :: enrolledScore :: scoreThreshold ::
      embedding) =>
    .ok ⟨version.length, createdUnix.length, embedding.map List.length, matchThreshold.length,
      ⟨enrolledScore.length, scoreThreshold.length⟩⟩
  | _ => .error "expected value"

theorem decode_encode (t : FaceEnrollment ℕ) : decode (encode t) = .ok t := by
  have hfields : (unescape (encode t)).bind (fun r => unescapeAll r.1.length r.2) =
      some (fields t) := by
    rw [encode, unescape_escape, Option.bind_some, length_unary, unescapeAll_escapeAll]
  have hembedding : (t.embedding.map unary).map List.length = t.embedding := by
    rw [List.map_map]
    exact (List.map_congr_left fun n _ => length_unary n).trans (List.map_id _)
  rw [decode, hfields]
  simp only [fields, List.map_cons, List.map_nil, List.cons_append, List.nil_append, length_unary,
    hembedding]

def enrollment : FaceEnrollment ℕ := ⟨1, 1700000000, [1, 0], 1, ⟨1, 1⟩⟩

/-- The record as it is written: an opening brace, and the rest. -/
def text : Bytes :=
  123 :: ("\n  \"version\": 1,\n  \"created_unix\": 1700000000,\n  \"embedding\": [\n    1.0,\n" ++
    "    0.0\n  ],\n  \"match_threshold\": 1.0,\n  \"liveness\": \x7b\n" ++
    "    \"enrolled_score\": 1.0,\n    \"score_threshold\": 1.0\n  \x7d\n\x7d").toList.map
    fun c => c.val.toUInt8

theorem encode_ne_text (t : FaceEnrollment ℕ) : encode t ≠ text := by
  intro h
  have hhead : (encode t).head? = some 1 := by
    simp [encode, fields, unary, escape, List.replicate_succ]
  have htext : text.head? = some 123 := rfl
  rw [h, htext] at hhead
  revert hhead
  decide

/-- One record is written as it is, and the others as their fields. -/
def json : EnrollmentJson ℕ where
  isFinite _ := True
  toVecPretty t := .ok (if encode t = encode enrollment then text else encode t)
  fromSlice bytes := if bytes = text then .ok enrollment else decode bytes
  toVecPretty_ok t := ⟨_, rfl⟩
  fromSlice_toVecPretty {t bytes} _ h := by
    obtain rfl := Except.ok.inj h
    by_cases ht : encode t = encode enrollment
    · have hdecode := decode_encode t
      rw [ht, decode_encode] at hdecode
      rw [if_pos ht, if_pos rfl, hdecode]
    · rw [if_neg ht, if_neg (encode_ne_text t), decode_encode]

def mugDir : PathBuf := [.rootDir, .normal "mug"]

/-- A directory with the beginning of a file that a save has left. -/
def leftover : Disk PathBuf where
  node p :=
    if p = mugDir then some (.dir 0o755)
    else if p = child mugDir "alice.json.tmp.7.0.5" then some (.file [123] 0o600)
    else none
  clock := 0

theorem noRecords_leftover : NoRecords mugDir leftover where
  dir_node := .inr ⟨0o755, rfl⟩
  child_eq_none h := by cases h
  none_called name h := by
    have hchild := child_ne_self mugDir name
    by_cases hname : child mugDir name = child mugDir "alice.json.tmp.7.0.5"
    · rw [hname]
      decide
    · simp [leftover, hchild, hname] at h
  finite := by
    refine ((Set.finite_singleton (child mugDir "alice.json.tmp.7.0.5")).insert mugDir).subset
      fun p hp => ?_
    by_contra hnot
    simp only [Set.mem_insert_iff, Set.mem_singleton_iff, not_or] at hnot
    exact hp (by simp [leftover, hnot])

end Sample

/-- A record is saved next to what an earlier save has left, and loaded again. -/
theorem enrollStore_refines_map_sample : ∃ d, Effects.Session (fun _ => machine)
    (service Sample.json Sample.mugDir) (NoRecords Sample.mugDir)
    [(.load "alice", some (.ok (.record (some Sample.enrollment)))),
      (.save "alice" Sample.enrollment, some (.ok .saved))] d := by
  have h₀ : Effects.Session (fun _ => machine) (service Sample.json Sample.mugDir)
    (NoRecords Sample.mugDir) [] Sample.leftover := .start Sample.noRecords_leftover
  obtain ⟨⟨m, hm, hcalls⟩, -⟩ := enrollStore_refines_map h₀
  cases hm
  obtain ⟨⟨r, d, hr⟩, hreply⟩ := hcalls (.save "alice" Sample.enrollment)
  obtain rfl : r = .ok .saved := hreply r d hr trivial
  have h₁ : Effects.Session (fun _ => machine) (service Sample.json Sample.mugDir)
    (NoRecords Sample.mugDir) [(.save "alice" Sample.enrollment, some (.ok .saved))] d :=
    .done h₀ trivial hr
  obtain ⟨⟨m, hm, hcalls⟩, -⟩ := enrollStore_refines_map h₁
  obtain ⟨⟨r, d', hr⟩, hreply⟩ := hcalls (.load "alice")
  cases hm with
  | replied hm _ =>
    cases hm
    obtain rfl : r = .ok (.record (some Sample.enrollment)) :=
      hreply r d' hr fun _ _ => ⟨fun _ _ => trivial, trivial, trivial, trivial⟩
    exact ⟨d', .done h₁ trivial hr⟩

end EnrollStore

end Mug

end Tess

import Tess.Install.Calls

/-!
# What the file operations of an installation do

Specifications of the parts that `install` and `uninstall` are made of: reading the service file
changes nothing, and a replacement by way of a temporary sibling keeps every assertion that does not
look at the sibling, until the rename puts the complete file in place (`replaceVia_spec`).

The paths of a plan do not get in each other's way: they end in different characters.
-/

namespace Tess

open Files Effects Text

namespace Install

/-! ## Names -/

theorem getLast?_installedModule (plan : InstallPlan) :
    plan.installedModule.getLast? = some 'o' := by
  have hlast : Config.moduleFile.getLast? = some 'o' := by decide
  have hne : Config.moduleFile ≠ [] := by decide
  rw [InstallPlan.installedModule, joinPath]
  split_ifs
  · rw [List.getLast?_append_of_ne_nil _ hne, hlast]
  · rw [List.getLast?_append_of_ne_nil _ (List.cons_ne_nil _ _), List.getLast?_cons_of_ne_nil hne,
      hlast]

theorem getLast?_backupFile (plan : InstallPlan) : plan.backupFile.getLast? = some 'p' := by
  have hlast : backupSuffix.getLast? = some 'p' := by decide
  rw [InstallPlan.backupFile, backupPath, List.getLast?_append_of_ne_nil _ (by decide), hlast]

theorem hexByte_last (b : Byte) :
    (hexByte b).getLast? ≠ some 'o' ∧ (hexByte b).getLast? ≠ some 'p' := by
  have hdigit : ∀ n < 16, "0123456789abcdef".toList.getD n '0' ≠ 'o' ∧
      "0123456789abcdef".toList.getD n '0' ≠ 'p' := by decide
  simpa [hexByte] using hdigit (b.toNat % 16) (Nat.mod_lt _ (by decide))

theorem getLast?_tempPath (path : Text) (suffix : Bytes) :
    (tempPath path suffix).getLast? ≠ some 'o' ∧ (tempPath path suffix).getLast? ≠ some 'p' := by
  rcases List.eq_nil_or_concat' suffix with rfl | ⟨bs, b, rfl⟩
  · have hdot : ".tess-tmp.".toList.getLast? = some '.' := by decide
    rw [tempPath, List.flatMap_nil, List.append_nil, List.getLast?_append_of_ne_nil _ (by decide),
      hdot]
    decide
  · have hne : hexByte b ≠ [] := by simp [hexByte]
    rw [tempPath, List.flatMap_append, List.flatMap_singleton, ← List.append_assoc,
      List.getLast?_append_of_ne_nil _ hne]
    exact hexByte_last b

theorem tempPath_ne_self (path : Text) (suffix : Bytes) : tempPath path suffix ≠ path := by
  intro h
  have := congrArg List.length h
  have hpos : 0 < ".tess-tmp.".toList.length := by decide
  simp only [tempPath, List.length_append] at this
  omega

theorem tempPath_ne_installedModule (plan : InstallPlan) (path : Text) (suffix : Bytes) :
    tempPath path suffix ≠ plan.installedModule := fun h =>
  (getLast?_tempPath path suffix).1 (h ▸ getLast?_installedModule plan)

theorem tempPath_ne_backupFile (plan : InstallPlan) (path : Text) (suffix : Bytes) :
    tempPath path suffix ≠ plan.backupFile := fun h =>
  (getLast?_tempPath path suffix).2 (h ▸ getLast?_backupFile plan)

theorem backupFile_ne_installedModule (plan : InstallPlan) :
    plan.backupFile ≠ plan.installedModule := fun h => by
  have := getLast?_backupFile plan
  rw [h, getLast?_installedModule] at this
  simp at this

theorem backupFile_ne_serviceFile (plan : InstallPlan) : plan.backupFile ≠ plan.serviceFile := by
  intro h
  have := congrArg List.length h
  have hpos : 0 < backupSuffix.length := by decide
  simp only [InstallPlan.backupFile, backupPath, List.length_append] at this
  omega

/-! ## Operations -/

section Operations

variable {may : PamHost → PamOp → Fault → Prop} {guar : PamHost → PamHost → Prop} {h : PamHost}
  {Q : Unit → PamHost → Prop} {X : IoError → PamHost → Prop} {p q : Text} {b b₀ : Bytes} {m m₀ : ℕ}

/-- An operation that changes nothing, under every fault. -/
theorem wp_same {o : PamOp} {Q : o.Res → PamHost → Prop} (hsame : ∀ f, (exec o f h).2 = h)
    (hg : guar h h) (hQ : ∀ f, may h o f → Q (exec o f h).1 h) :
    wp (machine may) Eq guar (call o) Q h := by
  rw [wp_call_alone]
  intro f hf
  change guar h (exec o f h).2 ∧ Q (exec o f h).1 (exec o f h).2
  rw [hsame f]
  exact ⟨hg, hQ f hf⟩

theorem createNew_spec
    (hok : h.disk.node p = none →
      guar h { h.put p (some (.file [] m)) with unwritten := p :: h.unwritten } ∧
        Q () { h.put p (some (.file [] m)) with unwritten := p :: h.unwritten })
    (herr : ∀ e, guar h h ∧ X e h) : wpe (machine may) Eq guar (createNew p m) Q X h := by
  rintro _ rfl f -
  change guar h (exec (.file (.createNew p m)) f h).2 ∧
    outcome Q X (exec (.file (.createNew p m)) f h).1 (exec (.file (.createNew p m)) f h).2
  cases f with
  | ok =>
    by_cases hn : h.disk.node p = none
    · simpa [exec, FileOp.exec, PamHost.record, PamHost.put, hn] using hok hn
    · simpa [exec, FileOp.exec, PamHost.record, hn] using herr .alreadyExists
  | fail | late | cut => exact herr .other

theorem writeAll_spec (hn : h.disk.node p = some (.file b₀ m))
    (hok : guar h { h.put p (some (.file (b₀ ++ b) m)) with
        unwritten := h.unwritten.filter (· ≠ p) } ∧
      Q () { h.put p (some (.file (b₀ ++ b) m)) with unwritten := h.unwritten.filter (· ≠ p) })
    (herr : ∀ (f : Fault) us, f ≠ .ok → (f.written b = b ∨ us = h.unwritten) →
      guar h { h.put p (some (.file (b₀ ++ f.written b) m)) with unwritten := us } ∧
        X .other { h.put p (some (.file (b₀ ++ f.written b) m)) with unwritten := us }) :
    wpe (machine may) Eq guar (writeAll p b) Q X h := by
  rintro _ rfl f -
  change guar h (exec (.file (.writeAll p b)) f h).2 ∧
    outcome Q X (exec (.file (.writeAll p b)) f h).1 (exec (.file (.writeAll p b)) f h).2
  by_cases hok' : f = .ok
  · subst hok'
    simpa [exec, FileOp.exec_writeAll hn, Fault.written, PamHost.record, PamHost.put, hn,
      Node.isFile] using hok
  · simp only [exec, FileOp.exec_writeAll hn, PamHost.record, if_neg hok']
    split
    next hw => exact herr f _ hok' (.inl hw.2)
    next => exact herr f _ hok' (.inr rfl)

theorem setPermissions_spec (hn : h.disk.node p = some (.file b m₀))
    (hok : guar h (h.put p (some (.file b m))) ∧ Q () (h.put p (some (.file b m))))
    (herr : ∀ e, guar h h ∧ X e h) : wpe (machine may) Eq guar (setPermissions p m) Q X h := by
  rintro _ rfl f -
  change guar h (exec (.file (.setPermissions p m)) f h).2 ∧
    outcome Q X (exec (.file (.setPermissions p m)) f h).1
      (exec (.file (.setPermissions p m)) f h).2
  cases f with
  | ok => simpa [exec, FileOp.exec, PamHost.record, PamHost.put, hn, Node.chmod] using hok
  | fail | late | cut => exact herr .other

theorem syncAll_spec (hok : guar h h ∧ Q () h) (herr : ∀ e, guar h h ∧ X e h) :
    wpe (machine may) Eq guar (syncAll p) Q X h := by
  rintro _ rfl f -
  cases f with
  | ok => exact hok
  | fail | late | cut => exact herr .other

theorem syncParentDir_spec (hok : guar h h ∧ Q () h) (herr : ∀ e, guar h h ∧ X e h) :
    wpe (machine may) Eq guar (syncParentDir p) Q X h := by
  rintro _ rfl f -
  cases f with
  | ok => exact hok
  | fail | late | cut => exact herr .other

theorem rename_spec {n : Node Text} (hn : h.disk.node p = some n)
    (hok : guar h ((h.put p none).put q (some n)) ∧ Q () ((h.put p none).put q (some n)))
    (herr : ∀ e, guar h h ∧ X e h) : wpe (machine may) Eq guar (rename p q) Q X h := by
  rintro _ rfl f -
  change guar h (exec (.file (.rename p q)) f h).2 ∧
    outcome Q X (exec (.file (.rename p q)) f h).1 (exec (.file (.rename p q)) f h).2
  cases f with
  | ok =>
    have hother := herr .other
    cases hq : h.disk.node q with
    | none => simpa [exec, FileOp.exec, PamHost.record, PamHost.put, hn, hq] using hok
    | some n' =>
      cases n' with
      | dir => simpa [exec, FileOp.exec, PamHost.record, hn, hq] using hother
      | file | symlink => simpa [exec, FileOp.exec, PamHost.record, PamHost.put, hn, hq] using hok
  | fail | late | cut => exact herr .other

theorem fsRemoveFile_spec (hok : guar h (h.put p none) ∧ Q () (h.put p none))
    (herr : ∀ e, guar h h ∧ X e h) : wpe (machine may) Eq guar (fsRemoveFile p) Q X h := by
  rintro _ rfl f -
  change guar h (exec (.file (.removeFile p)) f h).2 ∧
    outcome Q X (exec (.file (.removeFile p)) f h).1 (exec (.file (.removeFile p)) f h).2
  cases f with
  | ok =>
    have hother := herr .other
    have habsent := herr .notFound
    cases hn : h.disk.node p with
    | none => simpa [exec, FileOp.exec, PamHost.record, hn] using habsent
    | some n =>
      cases n with
      | dir => simpa [exec, FileOp.exec, PamHost.record, hn] using hother
      | file | symlink => simpa [exec, FileOp.exec, PamHost.record, PamHost.put, hn] using hok
  | fail | late | cut => exact herr .other

/-- What is read is recorded. -/
theorem read_spec {Q : Bytes → PamHost → Prop}
    (hok : ∀ b, guar h { h with reads := (p, b) :: h.reads } ∧
      Q b { h with reads := (p, b) :: h.reads })
    (herr : ∀ e, guar h h ∧ X e h) : wpe (machine may) Eq guar (read p) Q X h := by
  rintro _ rfl f -
  change guar h (exec (.file (.read p)) f h).2 ∧
    outcome Q X (exec (.file (.read p)) f h).1 (exec (.file (.read p)) f h).2
  cases f with
  | ok =>
    have hother := herr .other
    have habsent := herr .notFound
    cases hn : h.disk.stat p with
    | none => simpa [exec, FileOp.exec, PamHost.record, hn] using habsent
    | some n =>
      cases n with
      | file b m =>
        simpa [exec, FileOp.exec, FileOp.readNode, PamHost.record, hn] using hok b
      | dir | symlink => simpa [exec, FileOp.exec, FileOp.readNode, PamHost.record, hn] using hother
  | fail | late | cut => exact herr .other

end Operations

/-! ## Reading -/

section Reading

variable {may : PamHost → PamOp → Fault → Prop} {guar : PamHost → PamHost → Prop} {h : PamHost}

theorem openNoFollow_spec {p : Text} {b : Bytes} {m : ℕ} (hg : guar h h)
    (hn : h.disk.node p = some (.file b m)) :
    wpe (machine may) Eq guar (openNoFollow p) (fun n h' => h' = h ∧ n = .file b m)
      (fun e h' => h' = h ∧ e = .other) h := by
  rintro _ rfl f -
  change guar h (exec (.file (.openNoFollow p)) f h).2 ∧
    outcome _ _ (exec (.file (.openNoFollow p)) f h).1 (exec (.file (.openNoFollow p)) f h).2
  cases f with
  | ok => simpa [exec, FileOp.exec, PamHost.record, hn] using hg
  | fail | late | cut => exact ⟨hg, rfl, rfl⟩

/-- Of a regular file, the content and the permissions are found, and nothing changes. -/
theorem openRegularNofollow_spec {p : Text} {b : Bytes} {m : ℕ} (hg : guar h h)
    (hn : h.disk.node p = some (.file b m)) :
    wpe (machine may) Eq guar (openRegularNofollow p)
      (fun r h' => h' = h ∧ r = some (.file b m, m)) (fun _ h' => h' = h) h := by
  refine wpe_look (openNoFollow_spec hg hn) ?_ ?_
  · rintro _ h ⟨rfl, rfl⟩
    refine wpe_seq (P := fun r h' => h' = h ∧ r = .file b m) ((wpe_adapt ..).2 ?_) ?_
    · rintro _ rfl f -
      cases f with
      | ok => exact ⟨hg, rfl, rfl⟩
      | fail | late | cut => exact ⟨hg, rfl⟩
    · rintro _ h ⟨rfl, rfl⟩
      refine (wpe_bind ..).2 ((wpe_ensure ..).2 ⟨fun _ => ⟨rfl, rfl⟩, fun hno => ?_⟩)
      exact absurd rfl hno
  · rintro _ h ⟨rfl, rfl⟩
    rfl

theorem readToString_spec {p : Text} {content : Text} {m : ℕ} (hg : guar h h) :
    wpe (machine may) Eq guar (readToString p (.file (utf8 content) m))
      (fun r h' => h' = h ∧ r = content) (fun _ h' => h' = h) h := by
  refine wpe_look (P := fun b h' => h' = h ∧ b = utf8 content) (F := fun _ h' => h' = h) ?_ ?_ ?_
  · rintro _ rfl f -
    cases f with
    | ok => exact ⟨hg, rfl, rfl⟩
    | fail | late | cut => exact ⟨hg, rfl⟩
  · rintro _ _ ⟨rfl, rfl⟩
    simp only [ofUtf8_utf8]
    exact ⟨rfl, rfl⟩
  · rintro e _ rfl
    exact rfl

theorem unpredictableTempPath_spec {p : Text} {suffix : Bytes} (hg : guar h h) :
    wpe (machine may) Eq guar (unpredictableTempPath p suffix)
      (fun r h' => h' = h ∧ r = tempPath p suffix) (fun _ h' => h' = h) h := by
  rintro _ rfl f -
  cases f with
  | ok => exact ⟨hg, rfl, rfl⟩
  | fail | late | cut => exact ⟨hg, rfl⟩

theorem symlinkMetadata_spec {p : Text} (hg : guar h h) :
    wpe (machine may) Eq guar (symlinkMetadata p)
      (fun n h' => h' = h ∧ h.disk.node p = some n)
      (fun e h' => h' = h ∧ (e = .notFound → h.disk.node p = none)) h := by
  rintro _ rfl f -
  change guar h (exec (.file (.symlinkMetadata p)) f h).2 ∧
    outcome _ _ (exec (.file (.symlinkMetadata p)) f h).1 (exec (.file (.symlinkMetadata p)) f h).2
  cases f with
  | ok => cases hn : h.disk.node p <;> simp [exec, FileOp.exec, PamHost.record, hn, hg]
  | fail | late | cut => exact ⟨hg, rfl, by simp⟩

theorem refuseSymlink_spec {p : Text} (hg : guar h h) :
    wpe (machine may) Eq guar (refuseSymlink p) (fun _ h' => h' = h) (fun _ h' => h' = h) h := by
  refine wpe_look (symlinkMetadata_spec hg) ?_ ?_
  · rintro n _ ⟨rfl, -⟩
    cases n <;> exact rfl
  · rintro e _ ⟨rfl, -⟩
    exact rfl

theorem validated_spec {debug : Text → Text} {what content : Text} {Q : PamHost → Prop}
    {X : Failure → PamHost → Prop} (hok : Q h) (herr : ∀ e, X e h) :
    wpe (machine may) Eq guar (validated debug what content) (fun _ => Q) X h := by
  unfold validated
  cases Config.validateStack content with
  | ok u => exact hok
  | error e => exact herr _

end Reading

/-! ## Replacing a file -/

/-- The assertion does not look at the file, nor at the record of what is unwritten. -/
def Blind (I : PamHost → Prop) (p : Text) : Prop :=
  ∀ h n us, I h → I { h.put p n with unwritten := us }

theorem Blind.put {I : PamHost → Prop} {p : Text} (hI : Blind I p) {h : PamHost} (h₀ : I h)
    (n : Option (Node Text)) : I (h.put p n) := hI h n h.unwritten h₀

theorem put_node_self (h : PamHost) (p : Text) (n : Option (Node Text)) :
    (h.put p n).disk.node p = n := Disk.set_node_same ..

/-- **Replacing a file by way of a sibling**: what holds and does not look at the sibling holds up
to the rename, which puts the whole content with its mode in place. -/
theorem replaceVia_spec {may : PamHost → PamOp → Fault → Prop} {I J : PamHost → Prop}
    {texts : ReplaceTexts} {tmp target : Text} {bytes : Bytes} {mode dm : ℕ} {h : PamHost}
    (hI : Blind I tmp) (hJ : Blind J tmp)
    (hrename : ∀ h, I h → J (h.put target (some (.file bytes mode)))) (h₀ : I h) :
    wpe (machine may) Eq (fun _ h' => I h' ∨ J h') (replaceVia texts tmp target bytes mode dm)
      (fun _ => J) (fun _ h' => I h' ∨ J h') h := by
  refine (wpe_cleanup ..).2 ?_
  have hdiscard : ∀ h, I h ∨ J h →
      wp (machine may) Eq (fun _ h' => I h' ∨ J h') (discard tmp) (fun _ h' => I h' ∨ J h') h := by
    intro h hh
    have hput : I (h.put tmp none) ∨ J (h.put tmp none) := hh.imp (hI.put · none) (hJ.put · none)
    refine (wp_bind ..).2 ((wp_run ..).2 (fsRemoveFile_spec ⟨hput, hput⟩ fun e => ⟨hh, hh⟩))
  -- Up to the rename, the sibling is a file whose bytes and mode are known.
  have hcreated := hI h (some (.file [] dm)) (tmp :: h.unwritten) h₀
  refine wpe_mono (Q := fun _ => J) (E := fun _ h' => I h' ∨ J h') ?_ (fun _ _ => id)
    fun _ h' hh => hdiscard h' hh
  refine wpe_seq (P := fun _ h => I h ∧ h.disk.node tmp = some (.file [] dm)) ((wpe_adapt ..).2
    (createNew_spec (fun _ => ⟨.inl hcreated, hcreated, put_node_self ..⟩)
      fun _ => ⟨.inl h₀, .inl h₀⟩)) fun _ h ⟨h₁, hn₁⟩ => ?_
  refine wpe_seq (P := fun _ h => I h ∧ h.disk.node tmp = some (.file bytes dm)) ((wpe_adapt ..).2
    (writeAll_spec hn₁ ?_ fun _ us _ _ => ⟨.inl (hI _ _ us h₁), .inl (hI _ _ us h₁)⟩))
    fun _ h ⟨h₂, hn₂⟩ => ?_
  · have hwritten := hI h (some (.file ([] ++ bytes) dm)) (h.unwritten.filter (· ≠ tmp)) h₁
    exact ⟨.inl hwritten, hwritten, put_node_self ..⟩
  refine wpe_seq (P := fun _ h => I h ∧ h.disk.node tmp = some (.file bytes mode)) ((wpe_adapt ..).2
    (setPermissions_spec hn₂ ⟨.inl (hI.put h₂ _), hI.put h₂ _, put_node_self ..⟩
      fun _ => ⟨.inl h₂, .inl h₂⟩)) fun _ h ⟨h₃, hn₃⟩ => ?_
  refine wpe_seq (P := fun _ h => I h ∧ h.disk.node tmp = some (.file bytes mode)) ((wpe_adapt ..).2
    (syncAll_spec ⟨.inl h₃, h₃, hn₃⟩ fun _ => ⟨.inl h₃, .inl h₃⟩)) fun _ h ⟨h₄, hn₄⟩ => ?_
  have hrenamed := hrename _ (hI.put h₄ none)
  refine wpe_seq (P := fun _ => J) ((wpe_adapt ..).2
    (rename_spec hn₄ ⟨.inr hrenamed, hrenamed⟩ fun _ => ⟨.inl h₄, .inl h₄⟩)) fun _ h h₅ => ?_
  exact (wpe_adapt ..).2 (syncParentDir_spec ⟨.inr h₅, h₅⟩ fun _ => ⟨.inr h₅, .inr h₅⟩)

end Install

end Tess

import Mathlib.Data.Set.Insert
import Tess.Install.Stack

/-!
# The stack as PAM reads it

PAM cuts a line at its first `#` before it looks for the type, the control and the module, and the
safety check of the installer does not. `loads_cases` says how the two readings of a line can
differ: the module's name ends at the cut, and what stands there goes on.

So a line of an accepted stack is safe unless the name of the module runs into a comment
(`failOpenUnderPam_iff`).
-/

namespace Tess

open Text

namespace Config

/-! ## The documented reading -/

/-- The line up to the comment. -/
def uncommented (raw : Text) : Text := raw.takeWhile (· != '#')

/-- The last component of the module's path. -/
def LastComponent (path name : Text) : Prop := path = name ∨ ∃ dir, path = dir ++ '/' :: name

/-- PAM loads this module under this control. -/
def Loads (raw control path : Text) : Prop := ∃ ty, Splits (uncommented raw) ty control path

def newAuthtokReqd : Text := "new_authtok_reqd".toList

/-- What `optional` is short for. -/
def optionalPairs : List (Text × Text) :=
  [(success, "ok".toList), (newAuthtokReqd, "ok".toList), (default, ignore)]

/-- The keywords, with the pairs they are short for. -/
def keywords : List (Text × List (Text × Text)) :=
  [("required".toList, [(success, "ok".toList), (newAuthtokReqd, "ok".toList), (ignore, ignore),
      (default, "bad".toList)]),
    ("requisite".toList, [(success, "ok".toList), (newAuthtokReqd, "ok".toList), (ignore, ignore),
      (default, "die".toList)]),
    ("sufficient".toList, [(success, "done".toList), (newAuthtokReqd, "done".toList),
      (default, ignore)]),
    (optional, optionalPairs)]

/-- The pairs of a control. -/
def Means (control : Text) (ps : List (Text × Text)) : Prop :=
  (control, ps) ∈ keywords ∨ ∃ inner, control = '[' :: (inner ++ [']']) ∧ IsPairs inner ps

/-- The control may take the action for the code. Without a default, what is not listed is bad. -/
def Takes (control code action : Text) : Prop :=
  ∃ ps, Means control ps ∧
    (MayTake ps code action ∨
      (∀ a, (code, a) ∉ ps) ∧ (∀ a, (default, a) ∉ ps) ∧ action = "bad".toList)

/-- Under the control, every code of the set but success is ignored. -/
def Ignores (codes : Set Text) (control : Text) : Prop :=
  ∀ code ∈ codes, code ≠ success → ∀ action, Takes control code action → action = ignore

/-- Wherever PAM loads the module, its codes but success are ignored. -/
def FailOpenUnderPam (codes : Set Text) (content : Text) : Prop :=
  ∀ raw ∈ lines content, ∀ control path, Loads raw control path →
    LastComponent path moduleFile → Ignores codes control

/-- A comment is glued to the module's name, and hides it. -/
def Hidden (raw control : Text) : Prop :=
  ∃ path glued, Loads raw control path ∧ LastComponent path moduleFile ∧
    (∃ ty, Splits raw ty control (path ++ '#' :: glued)) ∧
    ¬ ModuleNamed (path ++ '#' :: glued) moduleFile

/-- The codes that the module returns. -/
def returnCodes : Set Text := {success, "authinfo_unavail".toList, ignore}

/-! ## The two readings -/

theorem uncommented_append (raw : Text) :
    ∃ comment, raw = uncommented raw ++ comment ∧ (comment = [] ∨ ∃ s, comment = '#' :: s) := by
  refine ⟨raw.dropWhile (· != '#'), List.takeWhile_append_dropWhile.symm, ?_⟩
  cases h : raw.dropWhile (· != '#') with
  | nil => exact .inl rfl
  | cons c s =>
    have hc := List.head?_dropWhile_not (· != '#') raw
    rw [h] at hc
    exact .inr ⟨s, by simpa using hc⟩

/-- What a line splits into, it splits into once. -/
theorem Splits.unique {raw ty ty' control control' path path' : Text}
    (h : Splits raw ty control path) (h' : Splits raw ty' control' path') :
    control = control' ∧ path = path' := by
  have hparse := parseLine_eq_ok.2 ⟨ty, h⟩
  rw [parseLine_eq_ok.2 ⟨ty', h'⟩] at hparse
  simpa [eq_comm] using hparse

/-- A type begins no comment and no directive. -/
theorem IsType.head {ty : Text} (h : IsType ty) : ty.head? ≠ some '#' ∧ ty.head? ≠ some '@' := by
  have htypes : ∀ t ∈ pamTypes, t.head? ≠ some '#' ∧ t.head? ≠ some '@' := by decide +kernel
  rcases h with h | ⟨t, -, rfl⟩
  · exact htypes ty h
  · simp

theorem Splits.effective {raw ty control path : Text} (h : Splits raw ty control path) :
    Effective raw := by
  obtain ⟨lead, gap₁, gap₂, rest, rfl, hlead, hty, htype, -⟩ := h
  have hhead := htype.head
  obtain ⟨c, t, rfl, hc⟩ := hty.head
  have htrim : ∀ s, trim (lead ++ (c :: t ++ s)) = c :: trimEnd (t ++ s) := by
    intro s
    rw [trim, trimStart_append hlead, List.cons_append, trimStart_cons hc]
    exact trimEnd_append_concat hc [] (t ++ s)
  rw [Effective, htrim]
  simpa using hhead

/-- **The two readings of a line** that loads the module agree, or its name runs into the
comment. -/
theorem loads_cases {raw control path : Text} (h : Loads raw control path) :
    (∃ ty, Splits raw ty control path) ∨
      ∃ ty glued, Splits raw ty control (path ++ '#' :: glued) := by
  obtain ⟨ty, lead, gap₁, gap₂, rest, heq, hlead, hty, htype, hgap₁, hne, hcontrol, hgap₂, hpath,
    hbreak⟩ := h
  obtain ⟨comment, hraw, hcomment⟩ := uncommented_append raw
  have hline : raw =
      lead ++ (ty ++ (gap₁ ++ (control ++ (gap₂ ++ (path ++ (rest ++ comment)))))) := by
    rw [hraw, heq]
    simp
  by_cases hends : Break (rest ++ comment)
  · exact .inl ⟨ty, lead, gap₁, gap₂, rest ++ comment, hline, hlead, hty, htype, hgap₁, hne,
      hcontrol, hgap₂, hpath, hends⟩
  · -- Nothing stands between the module and the comment.
    obtain rfl : rest = [] := by
      cases rest with
      | nil => rfl
      | cons d rest => exact absurd (fun c hc => hbreak c (by simpa using hc)) hends
    obtain ⟨s, rfl⟩ := hcomment.resolve_left fun hnil => hends (by simp [hnil, Break])
    refine .inr ⟨ty, s.takeWhile (!isWhitespace ·), lead, gap₁, gap₂, s.dropWhile (!isWhitespace ·),
      ?_, hlead, hty, htype, hgap₁, hne, hcontrol, hgap₂, ⟨by simp, ?_⟩, ?_⟩
    · rw [hline]
      simp
    · intro c hc
      rcases List.mem_append.1 hc with hc | hc
      · exact hpath.2 c hc
      · rcases List.mem_cons.1 hc with rfl | hc
        · decide
        · simpa using List.mem_takeWhile_imp hc
    · exact break_dropWhile s

/-! ## Controls -/

theorem LastComponent.moduleNamed {path : Text} (h : LastComponent path moduleFile) :
    ModuleNamed path moduleFile := by
  rcases h with rfl | ⟨dir, rfl⟩
  · exact ⟨moduleFile, .inr ⟨rfl, by decide⟩, .inl rfl⟩
  · by_cases hdash : dir.head? = some '-'
    · cases dir with
      | nil => simp at hdash
      | cons c dir =>
        obtain rfl : c = '-' := by simpa using hdash
        exact ⟨dir ++ '/' :: moduleFile, .inl rfl, .inr ⟨dir, rfl⟩⟩
    · refine ⟨_, .inr ⟨rfl, ?_⟩, .inr ⟨dir, rfl⟩⟩
      cases dir with
      | nil => simp
      | cons c dir => simpa using hdash

theorem IsPairs.unique {inner : Text} {ps ps' : List (Text × Text)} (h : IsPairs inner ps)
    (h' : IsPairs inner ps') : ps = ps' := by
  have hread : ∀ {ps : List (Text × Text)}, IsPairs inner ps →
      (splitWhitespace inner).map (splitOnce '=') = ps.map some := by
    intro ps hps
    rw [hps.1, List.map_map]
    apply List.map_congr_left
    intro p hp
    exact splitOnce_append (hps.2 p hp) p.2
  have heq := (hread h).symm.trans (hread h')
  exact List.map_injective_iff.2 (fun _ _ => Option.some.inj) heq

/-- No keyword is in brackets. -/
theorem Means.isPairs {inner : Text} {ps : List (Text × Text)}
    (h : Means ('[' :: (inner ++ [']'])) ps) : IsPairs inner ps := by
  have hkeywords : ∀ k ∈ keywords, k.1.head? ≠ some '[' := by decide +kernel
  rcases h with hkey | ⟨inner', heq, hpairs⟩
  · exact absurd rfl (hkeywords _ hkey)
  · obtain rfl : inner = inner' := by simpa using heq
    exact hpairs

theorem means_optional {ps : List (Text × Text)} (h : Means optional ps) : ps = optionalPairs := by
  have honly : ∀ k ∈ keywords, k.1 = optional → k.2 = optionalPairs := by decide +kernel
  rcases h with hkey | ⟨inner, heq, -⟩
  · exact honly _ hkey rfl
  · have hhead : optional.head? ≠ some '[' := by decide
    exact absurd (by rw [heq]; rfl) hhead

/-- A fail-open control ignores every code but success, except that `optional` counts a token that
is to be renewed. -/
theorem FailOpen.ignores {control : Text} (h : FailOpen control) {codes : Set Text}
    (hcodes : control = optional → newAuthtokReqd ∉ codes) : Ignores codes control := by
  intro code hcode hne action htakes
  obtain ⟨ps, hmeans, hact⟩ := htakes
  rcases h with rfl | ⟨inner, ps', rfl, hpairs, hopen⟩
  · have hrenew : code ≠ newAuthtokReqd := fun heq => hcodes rfl (heq ▸ hcode)
    obtain rfl := means_optional hmeans
    rcases hact with (hlisted | ⟨-, hdefault⟩) | ⟨-, hnone, -⟩
    · have : code = default ∧ action = ignore := by
        simpa [optionalPairs, hne, hrenew] using hlisted
      exact this.2
    · have hother : default ≠ success ∧ default ≠ newAuthtokReqd := by decide
      simpa [optionalPairs, hother.1, hother.2] using hdefault
    · exact absurd (by simp [optionalPairs]) (hnone ignore)
  · obtain rfl := hpairs.unique hmeans.isPairs
    rcases hact with hact | ⟨-, hnone, -⟩
    · exact (hopen.mayTake hne).2 action hact
    · exact absurd hopen.1 (hnone ignore)

theorem not_ignores_optional {codes : Set Text} (h : newAuthtokReqd ∈ codes) :
    ¬ Ignores codes optional := by
  intro hignores
  have htakes : Takes optional newAuthtokReqd "ok".toList :=
    ⟨optionalPairs, .inl (by simp [keywords]), .inl (.inl (by simp [optionalPairs]))⟩
  exact absurd (hignores _ h (by decide) _ htakes) (by decide)

/-! ## Accepted stacks -/

/-- A line of an accepted stack that loads the module under a control that is not fail-open has
its name hidden. -/
theorem failOpen_or_hidden {content : Text} (h : validateStack content = .ok ()) {raw : Text}
    (hraw : raw ∈ lines content) {control path : Text} (hloads : Loads raw control path)
    (hmodule : LastComponent path moduleFile) : FailOpen control ∨ Hidden raw control := by
  have hwell : ∀ {ty control path}, Splits raw ty control path →
      ModuleNamed path moduleFile → FailOpen control := by
    intro ty control path hsplits hnamed
    obtain ⟨ty', control', path', hsplits', hopen⟩ :=
      (validateStack_grammar content).1.1 h raw hraw hsplits.effective
    obtain ⟨rfl, rfl⟩ := hsplits.unique hsplits'
    exact hopen hnamed
  rcases loads_cases hloads with ⟨ty, hsplits⟩ | ⟨ty, glued, hsplits⟩
  · exact .inl (hwell hsplits hmodule.moduleNamed)
  · by_cases hnamed : ModuleNamed (path ++ '#' :: glued) moduleFile
    · exact .inl (hwell hsplits hnamed)
    · exact .inr ⟨path, glued, hloads, hmodule, ⟨ty, hsplits⟩, hnamed⟩

/-- **Fail-open under PAM's reading.** In an accepted stack, every code of the module but success
is ignored, except under a control that stands before a hidden name, and, were a token to be
renewed a code of the module, under `optional`. -/
theorem failOpenUnderPam_iff (codes : Set Text) {content : Text}
    (h : validateStack content = .ok ()) :
    FailOpenUnderPam codes content ↔
      (∀ raw ∈ lines content, ∀ control, Hidden raw control → Ignores codes control) ∧
      (newAuthtokReqd ∈ codes → ∀ raw ∈ lines content, ∀ path, Loads raw optional path →
        ¬ LastComponent path moduleFile) := by
  constructor
  · intro hall
    constructor
    · rintro raw hraw control ⟨path, glued, hloads, hmodule, -⟩
      exact hall raw hraw control path hloads hmodule
    · intro hrenew raw hraw path hloads hmodule
      exact not_ignores_optional hrenew (hall raw hraw optional path hloads hmodule)
  · rintro ⟨hhidden, hoptional⟩ raw hraw control path hloads hmodule
    rcases failOpen_or_hidden h hraw hloads hmodule with hopen | hhide
    · apply hopen.ignores
      rintro rfl hrenew
      exact hoptional hrenew raw hraw path hloads hmodule
    · exact hhidden raw hraw control hhide

/-- The line of the installer has no comment. -/
theorem failOpenUnderPam_snippetLine : FailOpenUnderPam returnCodes snippetLine := by
  have hlines : lines snippetLine = [snippetLine] := by decide +kernel
  refine (failOpenUnderPam_iff returnCodes (by decide +kernel)).2 ⟨?_, ?_⟩
  · rintro raw hraw control ⟨path, glued, -, -, ⟨ty, hsplits⟩, -⟩
    obtain rfl : raw = snippetLine := by simpa [hlines] using hraw
    obtain ⟨lead, gap₁, gap₂, rest, heq, -⟩ := hsplits
    have hhash : '#' ∉ snippetLine := by decide
    rw [heq] at hhash
    exact absurd (by simp) hhash
  · intro hrenew
    have hother : newAuthtokReqd ∉ [success, "authinfo_unavail".toList, ignore] := by decide
    exact absurd (by simpa [returnCodes] using hrenew) hother

def gluedComment : Text := "session required pam_tess.so#x\n".toList

/-- The check reads the name `pam_tess.so#x`, and PAM blocks the login. -/
theorem not_failOpenUnderPam :
    ¬ ∀ content, validateStack content = .ok () → FailOpenUnderPam returnCodes content := by
  intro h
  have hloads : Loads "session required pam_tess.so#x".toList "required".toList moduleFile :=
    parseLine_eq_ok.1 (by decide +kernel)
  have htakes : Takes "required".toList "authinfo_unavail".toList "bad".toList := by
    refine ⟨[(success, "ok".toList), (newAuthtokReqd, "ok".toList), (ignore, ignore),
      (default, "bad".toList)], .inl (by simp [keywords]), .inl (.inr ⟨fun a hlisted => ?_, ?_⟩)⟩
    · have hcodes : "authinfo_unavail".toList ∉ [success, newAuthtokReqd, ignore, default] := by
        decide
      exact hcodes (by simpa using List.mem_map_of_mem (f := Prod.fst) hlisted)
    · simp
  have hignored := h gluedComment (by decide +kernel) _ (by decide +kernel) _ _ hloads (.inl rfl)
    "authinfo_unavail".toList (.inr (.inl rfl)) (by decide) _ htakes
  exact absurd hignored (by decide)

end Config

end Tess

import Tess.Install.Config

/-!
# The safety check of a stack

`validateStack` reads every line that is not blank, a comment or a directive, and rejects the stack
at the first one that is malformed, or that is the module's own and not fail-open.

`Splits` is what it means for a line to have a type, a control and a module, and `FailOpen` which
controls are fail-open, both without reference to how the code reads them: `parseLine_eq_ok` and
`controlIsFailOpen_iff` connect the code to them.
-/

namespace Tess

open Text

namespace Config

/-- The types of lines. -/
def pamTypes : List Text := ["auth".toList, "account".toList, "password".toList, "session".toList]

/-- Why a line is malformed. -/
inductive Reason where
  | emptyLine
  | unknownType (ty : Text)
  | unterminatedGroup
  | missingControl
  | missingModule
  deriving DecidableEq

/-- The text of a reason; `debug` is the debug form of a text. -/
def Reason.text (debug : Text → Text) : Reason → Text
  | .emptyLine => "empty line".toList
  | .unknownType ty => "unknown type ".toList ++ debug ty
  | .unterminatedGroup => "unterminated '[' control group".toList
  | .missingControl => "missing control flag".toList
  | .missingModule => "missing module path".toList

inductive ValidationError where
  | malformed (line : ℕ) (reason : Reason) (content : Text)
  | notFailOpen (line : ℕ) (control : Text)
  deriving DecidableEq

/-- The number of the line that the error names. -/
def ValidationError.line : ValidationError → ℕ
  | .malformed line .. => line
  | .notFailOpen line _ => line

/-- The text of an error; `debug` is the debug form of a text. -/
def ValidationError.text (debug : Text → Text) : ValidationError → Text
  | .malformed line reason content =>
    "malformed PAM line ".toList ++ (toString line).toList ++ ": ".toList ++ reason.text debug ++
      " (".toList ++ debug content ++ ")".toList
  | .notFailOpen line control =>
    "pam_tess.so on line ".toList ++ (toString line).toList ++
      " uses a control flag that is not fail-open (".toList ++ debug control ++
      "); a tess failure could block login".toList

/-- What is kept of a line. -/
structure PamLine where
  control : Text
  modulePath : Text
  deriving DecidableEq

/-- The module is, or is a path that ends in, `name`; a leading `-` does not count. -/
def PamLine.moduleIs (line : PamLine) (name : Text) : Bool :=
  let path := (stripPrefix '-' line.modulePath).getD line.modulePath
  path = name || lastPiece '/' path = name

/-- The first token and what follows it. -/
def nextToken (s : Text) : Option (Text × Text) :=
  let s := trimStart s
  if s = [] then none
  else some (s.takeWhile (!isWhitespace ·), s.dropWhile (!isWhitespace ·))

/-- The control of a line, a group in brackets or a token, and what follows it. -/
def parseControl (rest : Text) : Except Reason (Text × Text) :=
  if rest.head? = some '[' then
    match splitOnce ']' rest with
    | none => .error .unterminatedGroup
    | some (group, after) => .ok (group ++ [']'], after)
  else
    match nextToken rest with
    | none => .error .missingControl
    | some token => .ok token

/-- Parse one effective line. -/
def parseLine (line : Text) : Except Reason PamLine :=
  match nextToken (trim line) with
  | none => .error .emptyLine
  | some (ty, afterTy) =>
    if (stripPrefix '-' ty).getD ty ∉ pamTypes then .error (.unknownType ty)
    else
      match parseControl (trimStart afterTy) with
      | .error reason => .error reason
      | .ok (control, afterControl) =>
        match nextToken (trimStart afterControl) with
        | none => .error .missingModule
        | some (path, _) => .ok { control, modulePath := path }

def optional : Text := "optional".toList

def default : Text := "default".toList

def success : Text := "success".toList

def ignore : Text := "ignore".toList

/-- The actions that a control may take on success. -/
def successActions : List Text := ["ok".toList, "done".toList, ignore]

/-- The loop of `controlIsFailOpen`, over the pairs of a group. -/
def pairsFailOpen : Bool → List Text → Bool
  | defaultIsIgnore, [] => defaultIsIgnore
  | defaultIsIgnore, pair :: rest =>
    match splitOnce '=' pair with
    | none => false
    | some (key, value) =>
      let key := trim key
      let value := trim value
      if key = default then
        if value ≠ ignore then false else pairsFailOpen true rest
      else if key = success then
        if value ∉ successActions then false else pairsFailOpen defaultIsIgnore rest
      else if value ≠ ignore then false
      else pairsFailOpen defaultIsIgnore rest

/-- A failure under this control can neither fail a login nor grant one. -/
def controlIsFailOpen (control : Text) : Bool :=
  let control := trim control
  if control = optional then true
  else
    match (stripPrefix '[' control).bind (stripSuffix ']') with
    | none => false
    | some inner => pairsFailOpen false (splitWhitespace inner)

/-- The loop of `validateStack`. -/
def validateFrom : ℕ → List Text → Except ValidationError Unit
  | _, [] => .ok ()
  | idx, raw :: rest =>
    let line := idx + 1
    let trimmed := trim raw
    if trimmed = [] ∨ trimmed.head? = some '#' then validateFrom (idx + 1) rest
    else if trimmed.head? = some '@' then validateFrom (idx + 1) rest
    else
      match parseLine trimmed with
      | .error reason => .error (.malformed line reason raw)
      | .ok parsed =>
        if parsed.moduleIs moduleFile ∧ ¬ controlIsFailOpen parsed.control then
          .error (.notFailOpen line parsed.control)
        else validateFrom (idx + 1) rest

/-- The check that runs before an edit is written. -/
def validateStack (content : Text) : Except ValidationError Unit := validateFrom 0 (lines content)

/-! ## The grammar -/

/-- The line counts: it is not blank, and neither a comment nor a directive. -/
def Effective (raw : Text) : Prop :=
  trim raw ≠ [] ∧ (trim raw).head? ≠ some '#' ∧ (trim raw).head? ≠ some '@'

/-- A type, with or without a leading `-`. -/
def IsType (ty : Text) : Prop := ty ∈ pamTypes ∨ ∃ t ∈ pamTypes, ty = '-' :: t

/-- A group in brackets, up to the first closing one. -/
def IsGroup (control : Text) : Prop := ∃ inner, control = '[' :: (inner ++ [']']) ∧ ']' ∉ inner

/-- A control, and whether white space has to follow it. -/
def IsControl (control gap : Text) : Prop :=
  IsGroup control ∨ Token control ∧ control.head? ≠ some '[' ∧ gap ≠ []

/-- The line has this type, control and module, with white space between. -/
def Splits (raw ty control path : Text) : Prop :=
  ∃ lead gap₁ gap₂ rest,
    raw = lead ++ (ty ++ (gap₁ ++ (control ++ (gap₂ ++ (path ++ rest))))) ∧
    Blank lead ∧ Token ty ∧ IsType ty ∧ Blank gap₁ ∧ gap₁ ≠ [] ∧
    IsControl control gap₂ ∧ Blank gap₂ ∧ Token path ∧ Break rest

/-- The module, after one optional leading `-`, has the last path component `name`. -/
def ModuleNamed (path name : Text) : Prop :=
  ∃ m, (path = '-' :: m ∨ path = m ∧ path.head? ≠ some '-') ∧
    (m = name ∨ ∃ dir, m = dir ++ '/' :: name)

/-- The text is a sequence of words `key=action`. -/
def IsPairs (inner : Text) (ps : List (Text × Text)) : Prop :=
  splitWhitespace inner = ps.map (fun p => p.1 ++ '=' :: p.2) ∧ ∀ p ∈ ps, '=' ∉ p.1

/-- The pairs contain `default=ignore`, and every code but success is ignored. -/
def PairsFailOpen (ps : List (Text × Text)) : Prop :=
  (default, ignore) ∈ ps ∧ (∀ p ∈ ps, p.1 ≠ success → p.2 = ignore) ∧
    ∀ p ∈ ps, p.1 = success → p.2 ∈ successActions

def FailOpen (control : Text) : Prop :=
  control = optional ∨
    ∃ inner ps, control = '[' :: (inner ++ [']']) ∧ IsPairs inner ps ∧ PairsFailOpen ps

/-- The action may be the one taken for the code: it is listed for it, or is a default where the
code is not listed. -/
def MayTake (ps : List (Text × Text)) (code action : Text) : Prop :=
  (code, action) ∈ ps ∨ (∀ a, (code, a) ∉ ps) ∧ (default, action) ∈ ps

/-- The line has its three parts, and is fail-open if it is the module's own. -/
def WellFormed (raw : Text) : Prop :=
  ∃ ty control path, Splits raw ty control path ∧
    (ModuleNamed path moduleFile → FailOpen control)

/-- A line at which the stack is rejected. -/
def Offending (raw : Text) : Prop := Effective raw ∧ ¬ WellFormed raw

/-! ## Tokens of a line -/

theorem nextToken_append {lead t rest : Text} (hl : Blank lead) (ht : Token t) (hr : Break rest) :
    nextToken (lead ++ (t ++ rest)) = some (t, rest) := by
  obtain ⟨c, t', htc, hc⟩ := ht.head
  have hstart : trimStart (lead ++ (t ++ rest)) = t ++ rest := by
    rw [trimStart_append hl, htc, List.cons_append, trimStart_cons hc]
  have hall : ∀ d ∈ t, (!isWhitespace d) = true := fun d hd => by simp [ht.2 d hd]
  have hrest : rest.takeWhile (!isWhitespace ·) = [] ∧ rest.dropWhile (!isWhitespace ·) = rest := by
    cases rest with
    | nil => simp
    | cons d rest =>
      have := hr d rfl
      simp [this]
  rw [nextToken, hstart, if_neg (by simp [htc]), List.takeWhile_append_of_pos hall,
    List.dropWhile_append_of_pos hall, hrest.1, hrest.2, List.append_nil]

theorem nextToken_eq_some {s t rest : Text} :
    nextToken s = some (t, rest) ↔
      ∃ lead, s = lead ++ (t ++ rest) ∧ Blank lead ∧ Token t ∧ Break rest := by
  constructor
  · intro h
    have hne : trimStart s ≠ [] := by
      intro hnil
      simp [nextToken, hnil] at h
    rw [nextToken, if_neg hne] at h
    obtain ⟨ht, hr⟩ := Prod.mk.inj (Option.some.inj h)
    refine ⟨s.takeWhile isWhitespace, ?_, blank_takeWhile s, ⟨?_, ?_⟩, ?_⟩
    · rw [← ht, ← hr, List.takeWhile_append_dropWhile]
      exact (List.takeWhile_append_dropWhile (p := isWhitespace)).symm
    · obtain ⟨c, u, hu⟩ := List.exists_cons_of_ne_nil hne
      have hc := head_trimStart hu
      rw [← ht, hu]
      simp [hc]
    · intro c hc
      rw [← ht] at hc
      simpa using List.mem_takeWhile_imp hc
    · exact hr ▸ break_dropWhile (trimStart s)
  · rintro ⟨lead, rfl, hl, ht, hr⟩
    exact nextToken_append hl ht hr

theorem nextToken_trimStart (s : Text) : nextToken (trimStart s) = nextToken s := by
  rw [nextToken, nextToken, show trimStart (trimStart s) = trimStart s from
    List.dropWhile_idempotent isWhitespace s]

theorem isType_iff {ty : Text} : IsType ty ↔ (stripPrefix '-' ty).getD ty ∈ pamTypes := by
  have hdash : ∀ t ∈ pamTypes, t.head? ≠ some '-' := by decide +kernel
  cases ty with
  | nil => simp [IsType, stripPrefix]
  | cons c t =>
    by_cases hc : c = '-'
    · subst hc
      have hno : '-' :: t ∉ pamTypes := fun h => hdash _ h rfl
      simp [IsType, stripPrefix, hno]
    · simp [IsType, stripPrefix, hc]

/-- The control at the head of the rest of a line, and what follows it. -/
theorem parseControl_eq_ok {rest control after : Text} (hrest : trimStart rest = rest) :
    parseControl rest = .ok (control, after) ↔
      rest = control ++ after ∧
        (IsGroup control ∨ Token control ∧ control.head? ≠ some '[' ∧ Break after) := by
  have hgroup : ∀ {control : Text}, IsGroup control → control.head? = some '[' := by
    rintro _ ⟨inner, rfl, -⟩
    rfl
  by_cases hbracket : rest.head? = some '['
  · constructor
    · intro h
      rw [parseControl, if_pos hbracket] at h
      cases hs : splitOnce ']' rest with
      | none => simp [hs] at h
      | some p =>
        obtain ⟨group, after'⟩ := p
        simp only [hs, Except.ok.injEq, Prod.mk.injEq] at h
        obtain ⟨rfl, rfl⟩ := h
        obtain ⟨rfl, hno⟩ := splitOnce_eq_some.1 hs
        refine ⟨by simp, .inl ?_⟩
        cases group with
        | nil => simp at hbracket
        | cons c inner =>
          obtain rfl : c = '[' := by simpa using hbracket
          exact ⟨inner, rfl, fun hm => hno (by simp [hm])⟩
    · rintro ⟨rfl, ⟨inner, rfl, hno⟩ | ⟨htok, hhead, -⟩⟩
      · have hsplit : splitOnce ']' ('[' :: (inner ++ [']']) ++ after) =
            some ('[' :: inner, after) := by
          rw [splitOnce_eq_some]
          exact ⟨by simp, by simp [hno]⟩
        rw [parseControl, if_pos (by simp), hsplit]
        simp
      · obtain ⟨c, t, rfl, -⟩ := htok.head
        exact absurd (by simpa using hbracket) hhead
  · constructor
    · intro h
      rw [parseControl, if_neg hbracket] at h
      cases hs : nextToken rest with
      | none => simp [hs] at h
      | some p =>
        obtain ⟨token, after'⟩ := p
        simp only [hs, Except.ok.injEq, Prod.mk.injEq] at h
        obtain ⟨rfl, rfl⟩ := h
        obtain ⟨lead, hsplit, hl, htok, hbreak⟩ := nextToken_eq_some.1 hs
        obtain ⟨c, t, rfl, hc⟩ := htok.head
        have heq : rest = c :: t ++ after' := by
          rw [← hrest, hsplit, trimStart_append hl, List.cons_append, trimStart_cons hc]
        exact ⟨heq, .inr ⟨htok, by simpa [heq] using hbracket, hbreak⟩⟩
    · rintro ⟨rfl, hg | ⟨htok, -, hbreak⟩⟩
      · refine absurd ?_ hbracket
        obtain ⟨inner, rfl, -⟩ := hg
        rfl
      · have hnext := nextToken_append (show Blank [] by simp [Blank]) htok hbreak
        rw [parseControl, if_neg hbracket]
        rw [List.nil_append] at hnext
        rw [hnext]

theorem isControl_head {control : Text}
    (h : IsGroup control ∨ Token control ∧ control.head? ≠ some '[') :
    ∃ c, control.head? = some c ∧ isWhitespace c = false := by
  rcases h with ⟨inner, rfl, -⟩ | ⟨ht, -⟩
  · exact ⟨'[', rfl, by decide⟩
  · obtain ⟨c, t, rfl, hc⟩ := ht.head
    exact ⟨c, rfl, hc⟩

/-- Trimming a line keeps its parts. -/
theorem splits_trim {raw ty control path : Text} :
    Splits (trim raw) ty control path ↔ Splits raw ty control path := by
  constructor
  · rintro ⟨lead, gap₁, gap₂, rest, heq, hlead, hty, htype, hgap₁, hne, hcontrol, hgap₂, hpath,
      hbreak⟩
    obtain ⟨a, b, hraw, ha, hb⟩ := trim_spec raw
    refine ⟨a ++ lead, gap₁, gap₂, rest ++ b, ?_, ?_, hty, htype, hgap₁, hne, hcontrol, hgap₂,
      hpath,
      ?_⟩
    · rw [hraw, heq]
      simp
    · intro c hc
      exact (List.mem_append.1 hc).elim (ha c) (hlead c)
    · intro c hc
      cases rest with
      | nil => exact hb c (List.mem_of_mem_head? hc)
      | cons d rest => exact hbreak c (by simpa using hc)
  · rintro ⟨lead, gap₁, gap₂, rest, rfl, hlead, hty, htype, hgap₁, hne, hcontrol, hgap₂, hpath,
      hbreak⟩
    obtain ⟨c, t, htc, hc⟩ := hty.head
    obtain ⟨u, d, hud, hd⟩ := hpath.last
    refine ⟨[], gap₁, gap₂, trimEnd rest, ?_, by simp [Blank], hty, htype, hgap₁, hne, hcontrol,
      hgap₂, hpath, ?_⟩
    · rw [trim, trimStart_append hlead, htc, List.cons_append, trimStart_cons hc, hud]
      -- The last character of the module is no white space, and stops the trimming.
      have hend := trimEnd_append_concat hd (c :: (t ++ (gap₁ ++ (control ++ (gap₂ ++ u))))) rest
      simpa using hend
    · exact break_trimEnd hbreak

/-- **Parsing a line** succeeds exactly with its parts. -/
theorem parseLine_eq_ok {raw control path : Text} :
    parseLine raw = .ok { control, modulePath := path } ↔ ∃ ty, Splits raw ty control path := by
  constructor
  · intro h
    rw [parseLine] at h
    cases hty : nextToken (trim raw) with
    | none => simp [hty] at h
    | some p =>
      obtain ⟨ty, afterTy⟩ := p
      simp only [hty] at h
      split_ifs at h with htype
      cases hcontrol : parseControl (trimStart afterTy) with
      | error reason => simp [hcontrol] at h
      | ok p =>
        obtain ⟨control', after⟩ := p
        simp only [hcontrol] at h
        cases hpath : nextToken (trimStart after) with
        | none => simp [hpath] at h
        | some p =>
          obtain ⟨path', rest⟩ := p
          simp only [hpath, Except.ok.injEq, PamLine.mk.injEq] at h
          obtain ⟨rfl, rfl⟩ := h
          obtain ⟨lead, hraw, hlead, htok, hbreak⟩ := nextToken_eq_some.1 hty
          obtain ⟨hafter, hshape⟩ :=
            (parseControl_eq_ok (List.dropWhile_idempotent isWhitespace afterTy)).1 hcontrol
          rw [nextToken_trimStart] at hpath
          obtain ⟨gap₂, hrest, hgap₂, hptok, hpbreak⟩ := nextToken_eq_some.1 hpath
          have hgap₁ := (List.takeWhile_append_dropWhile (p := isWhitespace) (l := afterTy)).symm
          rw [show afterTy.dropWhile isWhitespace = control' ++ after from hafter] at hgap₁
          refine ⟨ty, splits_trim.1 ⟨lead, afterTy.takeWhile isWhitespace, gap₂, rest, ?_, hlead,
            htok, isType_iff.2 htype, blank_takeWhile _, ?_, ?_, hgap₂, hptok,
            hpbreak⟩⟩
          · rw [hraw, ← hrest, ← hgap₁]
          · obtain ⟨c, hc, hnot⟩ := isControl_head
              (hshape.imp id fun h => (⟨h.1, h.2.1⟩ : Token control' ∧ control'.head? ≠ some '['))
            rw [hgap₁] at hbreak
            refine ne_nil_of_break hbreak ?_ hnot
            rw [List.head?_append, hc]
            rfl
          · refine hshape.imp id fun ⟨hct, hhead, hcb⟩ => ⟨hct, hhead, ?_⟩
            obtain ⟨c, t, rfl, hc⟩ := hptok.head
            rw [hrest] at hcb
            exact ne_nil_of_break hcb rfl hc
  · rintro ⟨ty, h⟩
    obtain ⟨lead, gap₁, gap₂, rest, heq, hlead, hty, htype, hgap₁, hne, hcontrol, hgap₂, hpath,
      hbreak⟩ := splits_trim.2 h
    have hnext := nextToken_append hlead hty
      (break_append hgap₁ hne (control ++ (gap₂ ++ (path ++ rest))))
    have hpathNext := nextToken_append hgap₂ hpath hbreak
    obtain ⟨c, hc, hnot⟩ := isControl_head
      (hcontrol.imp id fun h => (⟨h.1, h.2.1⟩ : Token control ∧ control.head? ≠ some '['))
    have hstart : trimStart (control ++ (gap₂ ++ (path ++ rest))) =
        control ++ (gap₂ ++ (path ++ rest)) := by
      cases control with
      | nil => simp at hc
      | cons d control =>
        obtain rfl : d = c := by simpa using hc
        exact trimStart_cons hnot _
    have hparse : parseControl (control ++ (gap₂ ++ (path ++ rest))) =
        .ok (control, gap₂ ++ (path ++ rest)) :=
      (parseControl_eq_ok hstart).2 ⟨rfl, hcontrol.imp id fun h =>
        ⟨h.1, h.2.1, break_append hgap₂ h.2.2 _⟩⟩
    rw [parseLine, heq, hnext]
    simp only [not_not.2 (isType_iff.1 htype), if_false, trimStart_append hgap₁, hstart, hparse,
      nextToken_trimStart, hpathNext]

/-! ## Fail-open controls -/

theorem default_ne_success : default ≠ success := by decide

/-- A word of a group. -/
def pairText (p : Text × Text) : Text := p.1 ++ '=' :: p.2

/-- The loop over the words of a group of pairs. -/
theorem pairsFailOpen_pairs {ps : List (Text × Text)} (hkeys : ∀ p ∈ ps, '=' ∉ p.1)
    (hwhite : ∀ p ∈ ps, ∀ c ∈ pairText p, isWhitespace c = false) (defaultIsIgnore : Bool) :
    pairsFailOpen defaultIsIgnore (ps.map pairText) = true ↔
      (defaultIsIgnore = true ∨ (default, ignore) ∈ ps) ∧
        (∀ p ∈ ps, p.1 ≠ success → p.2 = ignore) ∧
        ∀ p ∈ ps, p.1 = success → p.2 ∈ successActions := by
  induction ps generalizing defaultIsIgnore with
  | nil => simp [pairsFailOpen]
  | cons p ps ih =>
    obtain ⟨key, value⟩ := p
    have ih := ih (fun p hp => hkeys p (by simp [hp])) fun p hp => hwhite p (by simp [hp])
    have hchars := hwhite (key, value) (by simp)
    have htrim : ∀ s : Text, (∀ c ∈ s, c ∈ pairText (key, value)) → trim s = s := by
      intro s hs
      by_cases hne : s = []
      · rw [hne]
        rfl
      · exact trim_token ⟨hne, fun c hc => hchars c (hs c hc)⟩
    have hkey := htrim key fun c hc => by simp [pairText, hc]
    have hvalue := htrim value fun c hc => by simp [pairText, hc]
    have hsplit : splitOnce '=' (pairText (key, value)) = some (key, value) :=
      splitOnce_append (hkeys (key, value) (by simp)) value
    simp only [List.map_cons, pairsFailOpen, hsplit, hkey, hvalue]
    by_cases hd : key = default
    · subst hd
      by_cases hv : value = ignore
      · simp [hv, ih, default_ne_success]
      · simp [hv, default_ne_success]
    · by_cases hs : key = success
      · subst hs
        by_cases hv : value ∈ successActions
        · simp [hv, ih, hd, Ne.symm hd]
        · simp [hv, hd]
      · by_cases hv : value = ignore
        · simp [hv, ih, hd, hs, Ne.symm hd]
        · simp [hv, hd, hs]

theorem pairs_of_pairsFailOpen {ws : List Text} {defaultIsIgnore : Bool}
    (h : pairsFailOpen defaultIsIgnore ws = true) :
    ∃ ps : List (Text × Text), ws = ps.map pairText ∧ ∀ p ∈ ps, '=' ∉ p.1 := by
  induction ws generalizing defaultIsIgnore with
  | nil => exact ⟨[], rfl, by simp⟩
  | cons w ws ih =>
    rw [pairsFailOpen] at h
    cases hsplit : splitOnce '=' w with
    | none => simp [hsplit] at h
    | some kv =>
      obtain ⟨key, value⟩ := kv
      obtain ⟨rfl, hkey⟩ := splitOnce_eq_some.1 hsplit
      obtain ⟨d, hrest⟩ : ∃ d, pairsFailOpen d ws = true := by
        simp only [hsplit] at h
        split_ifs at h <;> exact ⟨_, h⟩
      obtain ⟨ps, rfl, hps⟩ := ih hrest
      exact ⟨(key, value) :: ps, rfl, by simpa [hkey] using hps⟩

theorem pairsFailOpen_splitWhitespace (inner : Text) :
    pairsFailOpen false (splitWhitespace inner) = true ↔
      ∃ ps, IsPairs inner ps ∧ PairsFailOpen ps := by
  have hwhite : ∀ {ps : List (Text × Text)}, splitWhitespace inner = ps.map pairText →
      ∀ p ∈ ps, ∀ c ∈ pairText p, isWhitespace c = false := by
    intro ps hps p hp
    refine (token_of_mem_splitWhitespace (s := inner) ?_).2
    rw [hps]
    exact List.mem_map_of_mem hp
  constructor
  · intro h
    obtain ⟨ps, hps, hkeys⟩ := pairs_of_pairsFailOpen h
    rw [hps, pairsFailOpen_pairs hkeys (hwhite hps)] at h
    exact ⟨ps, ⟨hps, hkeys⟩, h.1.resolve_left (by simp), h.2⟩
  · rintro ⟨ps, ⟨hps, hkeys⟩, hd, hrest⟩
    have hps : splitWhitespace inner = ps.map pairText := hps
    rw [hps, pairsFailOpen_pairs hkeys (hwhite hps)]
    exact ⟨.inr hd, hrest⟩

/-- **The control evaluator** agrees with the grammar on every text. -/
theorem controlIsFailOpen_iff (control : Text) :
    controlIsFailOpen control = true ↔ FailOpen (trim control) := by
  rw [controlIsFailOpen, FailOpen]
  by_cases hopt : trim control = optional
  · simp [hopt]
  · simp only [hopt, if_false, false_or]
    cases hs : (stripPrefix '[' (trim control)).bind (stripSuffix ']') with
    | none =>
      refine iff_of_false (by simp) ?_
      rintro ⟨inner, ps, heq, -⟩
      have hsome : (stripPrefix '[' (trim control)).bind (stripSuffix ']') = some inner := by
        rw [stripPrefix_eq_some.2 heq]
        exact stripSuffix_eq_some.2 rfl
      simp [hs] at hsome
    | some inner =>
      obtain ⟨t, ht, hinner⟩ := Option.bind_eq_some_iff.1 hs
      rw [stripPrefix_eq_some] at ht
      rw [stripSuffix_eq_some] at hinner
      subst hinner
      rw [pairsFailOpen_splitWhitespace, ht]
      simp

/-- Whichever of a code's pairs wins, and whether or not it is listed, a code other than success is
ignored. -/
theorem PairsFailOpen.mayTake {ps : List (Text × Text)} (h : PairsFailOpen ps) {code : Text}
    (hcode : code ≠ success) : (∃ action, MayTake ps code action) ∧
      ∀ action, MayTake ps code action → action = ignore := by
  obtain ⟨hdefault, hother, -⟩ := h
  constructor
  · by_cases hlisted : ∃ a, (code, a) ∈ ps
    · obtain ⟨a, ha⟩ := hlisted
      exact ⟨a, .inl ha⟩
    · exact ⟨ignore, .inr ⟨fun a ha => hlisted ⟨a, ha⟩, hdefault⟩⟩
  · rintro action (ha | ⟨-, ha⟩)
    · exact hother _ ha hcode
    · exact hother _ ha default_ne_success

/-! ## Validation -/

theorem moduleIs_iff {line : PamLine} {name : Text} (hname : '/' ∉ name) :
    line.moduleIs name = true ↔ ModuleNamed line.modulePath name := by
  have hpath : ∀ m : Text, (m = name ∨ lastPiece '/' m = name) ↔
      m = name ∨ ∃ dir, m = dir ++ '/' :: name := by
    intro m
    rw [lastPiece_eq hname]
    simp
  rw [PamLine.moduleIs, ModuleNamed]
  simp only [Bool.or_eq_true, decide_eq_true_eq, hpath]
  cases line.modulePath with
  | nil => simp [stripPrefix]
  | cons c path =>
    by_cases hc : c = '-'
    · simp [stripPrefix, hc]
    · simp [stripPrefix, hc]

theorem trim_control {control gap : Text} (h : IsControl control gap) : trim control = control := by
  rcases h with ⟨inner, rfl, -⟩ | ⟨ht, -⟩
  · rw [trim, trimStart_cons (by decide), ← List.cons_append, trimEnd_concat (by decide)]
  · exact trim_token ht

/-- What one line does to the check. -/
theorem wellFormed_iff (raw : Text) :
    WellFormed raw ↔ ∃ line, parseLine (trim raw) = .ok line ∧
      ¬ (line.moduleIs moduleFile = true ∧ ¬ controlIsFailOpen line.control = true) := by
  have hname : '/' ∉ moduleFile := by decide
  constructor
  · rintro ⟨ty, control, path, hsplits, hopen⟩
    refine ⟨⟨control, path⟩, parseLine_eq_ok.2 ⟨ty, splits_trim.2 hsplits⟩, ?_⟩
    rintro ⟨hmodule, hnot⟩
    rw [moduleIs_iff hname] at hmodule
    obtain ⟨_, _, _, _, -, -, -, -, -, -, hcontrol, -⟩ := hsplits
    rw [controlIsFailOpen_iff, trim_control hcontrol] at hnot
    exact hnot (hopen hmodule)
  · rintro ⟨⟨control, path⟩, hparse, hok⟩
    obtain ⟨ty, hsplits⟩ := parseLine_eq_ok.1 hparse
    refine ⟨ty, control, path, splits_trim.1 hsplits, fun hmodule => ?_⟩
    by_contra hnot
    refine hok ⟨(moduleIs_iff hname).2 hmodule, ?_⟩
    obtain ⟨_, _, _, _, -, -, -, -, -, -, hcontrol, -⟩ := hsplits
    rwa [controlIsFailOpen_iff, trim_control hcontrol]

/-- The check goes on after a line that is not offending, and stops at one that is. -/
theorem validateFrom_cons (idx : ℕ) (raw : Text) (rest : List Text) :
    (¬ Offending raw ∧ validateFrom idx (raw :: rest) = validateFrom (idx + 1) rest) ∨
    (Offending raw ∧ ∃ e, validateFrom idx (raw :: rest) = .error e ∧ e.line = idx + 1) := by
  rw [validateFrom]
  by_cases hskip : trim raw = [] ∨ (trim raw).head? = some '#'
  · refine .inl ⟨fun h => ?_, by simp [hskip]⟩
    exact hskip.elim h.1.1 h.1.2.1
  · by_cases hat : (trim raw).head? = some '@'
    · refine .inl ⟨fun h => h.1.2.2 hat, by simp [hat]⟩
    · obtain ⟨hne, hhash⟩ := not_or.1 hskip
      have heffective : Effective raw := ⟨hne, hhash, hat⟩
      simp only [hskip, hat, if_false]
      cases hparse : parseLine (trim raw) with
      | error reason =>
        refine .inr ⟨⟨heffective, fun hwell => ?_⟩, _, rfl, rfl⟩
        obtain ⟨line, hline, -⟩ := (wellFormed_iff raw).1 hwell
        simp [hparse] at hline
      | ok line =>
        by_cases hbad : line.moduleIs moduleFile = true ∧ ¬ controlIsFailOpen line.control = true
        · refine .inr ⟨⟨heffective, fun hwell => ?_⟩, .notFailOpen (idx + 1) line.control, ?_, rfl⟩
          · obtain ⟨line', hline, hok⟩ := (wellFormed_iff raw).1 hwell
            cases hparse.symm.trans hline
            exact hok hbad
          · simp only [if_pos hbad]
        · refine .inl ⟨fun hoff => hoff.2 ?_, ?_⟩
          · exact (wellFormed_iff raw).2 ⟨line, hparse, hbad⟩
          · simp only [if_neg hbad]

theorem validateFrom_ok {idx : ℕ} {ls : List Text} :
    validateFrom idx ls = .ok () ↔ ∀ raw ∈ ls, ¬ Offending raw := by
  induction ls generalizing idx with
  | nil => simp [validateFrom]
  | cons raw rest ih =>
    rcases validateFrom_cons idx raw rest with ⟨hok, heq⟩ | ⟨hoff, e, heq, -⟩
    · simp [heq, ih, hok]
    · simp [heq, hoff]

/-- The line that an error names is offending, and the first one that is. -/
theorem validateFrom_error {idx : ℕ} {ls : List Text} {e : ValidationError}
    (h : validateFrom idx ls = .error e) :
    ∃ pre raw post, ls = pre ++ raw :: post ∧ e.line = idx + pre.length + 1 ∧ Offending raw ∧
      ∀ raw' ∈ pre, ¬ Offending raw' := by
  induction ls generalizing idx with
  | nil => simp [validateFrom] at h
  | cons raw rest ih =>
    rcases validateFrom_cons idx raw rest with ⟨hok, heq⟩ | ⟨hoff, e', heq, hline⟩
    · obtain ⟨pre, raw', post, rfl, hline, hoff, hpre⟩ := ih (heq ▸ h)
      refine ⟨raw :: pre, raw', post, rfl, ?_, hoff, ?_⟩
      · rw [hline, List.length_cons]
        omega
      · simpa [hok] using hpre
    · obtain rfl : e' = e := Except.error.inj (heq.symm.trans h)
      exact ⟨[], raw, rest, rfl, hline, hoff, by simp⟩

/-- **The grammar of the safety check.** A stack is accepted exactly when each of its effective
lines is well formed; otherwise the error names the first line that is not. A control is fail-open
exactly when the grammar says so, and then every code but success is ignored. -/
theorem validateStack_grammar (content : Text) :
    (validateStack content = .ok () ↔
      ∀ raw ∈ lines content, Effective raw → WellFormed raw) ∧
    (∀ e, validateStack content = .error e →
      ∃ pre raw post, lines content = pre ++ raw :: post ∧ e.line = pre.length + 1 ∧
        Offending raw ∧ ∀ raw' ∈ pre, ¬ Offending raw') ∧
    (∀ control, controlIsFailOpen control = true ↔ FailOpen (trim control)) ∧
    ∀ ps, PairsFailOpen ps → ∀ code, code ≠ success →
      (∃ action, MayTake ps code action) ∧ ∀ action, MayTake ps code action → action = ignore := by
  refine ⟨?_, fun e h => ?_, controlIsFailOpen_iff, fun ps h code hcode => h.mayTake hcode⟩
  · rw [validateStack, validateFrom_ok]
    simp [Offending]
  · obtain ⟨pre, raw, post, hsplit, hline, hoff, hpre⟩ := validateFrom_error h
    exact ⟨pre, raw, post, hsplit, by omega, hoff, hpre⟩

end Config

end Tess

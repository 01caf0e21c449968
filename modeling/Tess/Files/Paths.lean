import Tess.Formats.Text

/-!
# Paths

A path is the sequence of its components: separators in a row count as one, and a `.` counts only
in front. A name is what can be one component as it stands. The file that a name leads to from a
directory is a child of that directory, another name leads to another child, and the part of a name
after its last dot is its extension.
-/

namespace Files

inductive Component where
  | rootDir
  | curDir
  | parentDir
  | normal (name : String)
  deriving DecidableEq

abbrev PathBuf := List Component

/-- What stands between the separators. -/
def pieces (s : String) : List String := (s.toList.splitOn '/').map String.ofList

def Component.ofPiece (piece : String) : Option Component :=
  if piece = "" ∨ piece = "." then none
  else if piece = ".." then some .parentDir
  else some (.normal piece)

/-- What a path starts with, before its pieces: the root, or a `.` in front. -/
def leading (s : String) : PathBuf :=
  if s.toList.head? = some '/' then [.rootDir]
  else if (pieces s).head? = some "." then [.curDir]
  else []

def components (s : String) : PathBuf := leading s ++ (pieces s).filterMap Component.ofPiece

/-- A path that starts at the root replaces the directory it is joined to. -/
def join (dir : PathBuf) (s : String) : PathBuf :=
  if (components s).head? = some .rootDir ∨ dir = [] then components s
  else dir ++ (components s).filter (· ≠ .curDir)

def Component.display : Component → String
  | .rootDir => ""
  | .curDir => "."
  | .parentDir => ".."
  | .normal name => name

def display (p : PathBuf) : String :=
  if p = [.rootDir] then "/" else "/".intercalate (p.map Component.display)

def fileName (p : PathBuf) : Option String :=
  match p.getLast? with
  | some (.normal name) => some name
  | _ => none

def withFileName (p : PathBuf) (name : String) : PathBuf :=
  join (if (fileName p).isSome then p.dropLast else p) name

/-- A name cut at its last dot. A name whose only dot is in front is not cut. -/
def rsplitFileAtDot (file : String) : Option String × Option String :=
  if file = ".." then (some file, none)
  else
    match Text.splitOnce '.' file.toList.reverse with
    | none => (none, some file)
    | some (_, []) => (some file, none)
    | some (after, before) =>
      (some (String.ofList before.reverse), some (String.ofList after.reverse))

def fileStem (p : PathBuf) : Option String :=
  (fileName p).bind fun file => (rsplitFileAtDot file).1.or (rsplitFileAtDot file).2

def extension (p : PathBuf) : Option String :=
  (fileName p).bind fun file => (rsplitFileAtDot file).1.bind fun _ => (rsplitFileAtDot file).2

/-! ## Names -/

/-- A string that is one component as it stands. -/
def IsName (s : String) : Prop := s ≠ "" ∧ s ≠ "." ∧ s ≠ ".." ∧ '/' ∉ s.toList

instance (s : String) : Decidable (IsName s) := inferInstanceAs (Decidable (_ ∧ _))

theorem pieces_of_notMem {s : String} (h : '/' ∉ s.toList) : pieces s = [s] := by
  rw [pieces, List.splitOn_eq_singleton h, List.map_singleton, String.ofList_toList]

/-- No piece holds a separator. -/
theorem notMem_of_mem_splitOn {c : Char} {s piece : List Char} (h : piece ∈ s.splitOn c) :
    c ∉ piece := by
  induction s generalizing piece with
  | nil =>
    rw [List.splitOn_nil, List.mem_singleton] at h
    simp [h]
  | cons d s ih =>
    rw [List.splitOn_cons_eq_if_modifyHead] at h
    obtain ⟨p, ps, hps⟩ := List.exists_cons_of_ne_nil (List.splitOn_ne_nil c s)
    rw [hps] at h ih
    split at h
    · rcases List.mem_cons.1 h with rfl | h
      · exact List.not_mem_nil
      · exact ih h
    · rename_i hd
      rcases List.mem_cons.1 h with rfl | h
      · rw [List.mem_cons, not_or]
        exact ⟨fun hc => hd (by simp [hc]), ih List.mem_cons_self⟩
      · exact ih (List.mem_cons_of_mem _ h)

theorem mem_leading {s : String} {c : Component} (h : c ∈ leading s) :
    c = .rootDir ∨ c = .curDir := by
  unfold leading at h
  split at h
  · exact .inl (List.mem_singleton.1 h)
  · split at h
    · exact .inr (List.mem_singleton.1 h)
    · cases h

theorem slash_notMem_of_normal {s name : String} (h : .normal name ∈ components s) :
    '/' ∉ name.toList := by
  rcases List.mem_append.1 h with h | h
  · rcases mem_leading h with h | h <;> cases h
  · obtain ⟨piece, hpiece, h⟩ := List.mem_filterMap.1 h
    obtain ⟨cs, hcs, rfl⟩ := List.mem_map.1 hpiece
    unfold Component.ofPiece at h
    split at h
    · cases h
    · split at h <;> cases h
      rw [String.toList_ofList]
      exact notMem_of_mem_splitOn hcs

/-- A string is its own only component where it is a name. -/
theorem components_eq_singleton_iff {s : String} : components s = [.normal s] ↔ IsName s := by
  constructor
  · intro h
    have hslash : '/' ∉ s.toList := slash_notMem_of_normal (by rw [h]; simp)
    refine ⟨?_, ?_, ?_, hslash⟩ <;> rintro rfl <;> revert h <;> decide
  · rintro ⟨hempty, hdot, hdots, hslash⟩
    have hroot : s.toList.head? ≠ some '/' := fun h => hslash (List.mem_of_head? h)
    simp [components, leading, pieces_of_notMem hslash, Component.ofPiece, *]

theorem IsName.append {s t : String} (hs : IsName s) (ht : '/' ∉ t.toList) : IsName (s ++ t) := by
  obtain ⟨hempty, hdot, hdots, hslash⟩ := hs
  rw [ne_eq, ← String.toList_inj] at hempty hdot hdots
  have hchars : ∀ u, s ++ t = u → s.toList ++ t.toList = u.toList := by
    rintro u rfl
    exact String.toList_append.symm
  refine ⟨fun h => ?_, fun h => ?_, fun h => ?_, ?_⟩
  · exact hempty (List.append_eq_nil_iff.1 (hchars _ h)).1
  · rcases List.append_eq_singleton_iff.1 (hchars _ h) with ⟨hs, -⟩ | ⟨hs, -⟩
    · exact hempty hs
    · exact hdot hs
  · rcases List.append_eq_cons_iff.1 (hchars _ h) with ⟨hs, -⟩ | ⟨l, hs, hl⟩
    · exact hempty hs
    · rcases List.singleton_eq_append_iff.1 hl with ⟨rfl, -⟩ | ⟨rfl, -⟩
      · exact hdot hs
      · exact hdots hs
  · rw [String.toList_append, List.mem_append, not_or]
    exact ⟨hslash, ht⟩

/-! ## The children of a directory -/

def child (dir : PathBuf) (name : String) : PathBuf := dir ++ [.normal name]

theorem child_inj {dir : PathBuf} {a b : String} : child dir a = child dir b ↔ a = b := by
  simp [child]

theorem child_ne_self (dir : PathBuf) (name : String) : child dir name ≠ dir := by
  simp [child]

@[simp] theorem fileName_child (dir : PathBuf) (name : String) :
    fileName (child dir name) = some name := by
  simp [fileName, child]

theorem join_of_isName (dir : PathBuf) {name : String} (h : IsName name) :
    join dir name = child dir name := by
  rw [join, components_eq_singleton_iff.2 h]
  by_cases hd : dir = [] <;> simp [child, hd]

theorem withFileName_child (dir : PathBuf) (old : String) {name : String} (h : IsName name) :
    withFileName (child dir old) name = child dir name := by
  rw [withFileName, fileName_child, join_of_isName _ h]
  simp [child]

/-- What stands before the last dot and after it. -/
theorem rsplitFileAtDot_append {stem ext : String} (hs : stem ≠ "") (he : ext ≠ "")
    (hdot : '.' ∉ ext.toList) : rsplitFileAtDot (stem ++ "." ++ ext) = (some stem, some ext) := by
  have hrev : (stem ++ "." ++ ext).toList.reverse =
      ext.toList.reverse ++ '.' :: stem.toList.reverse := by simp
  have hsplit : Text.splitOnce '.' (ext.toList.reverse ++ '.' :: stem.toList.reverse) =
      some (ext.toList.reverse, stem.toList.reverse) :=
    Text.splitOnce_append (by simpa using hdot) _
  have hdots : stem ++ "." ++ ext ≠ ".." := by
    intro h
    have hlen : (stem ++ "." ++ ext).length = 2 := by rw [h]; rfl
    have hone : ".".length = 1 := rfl
    rw [String.length_append, String.length_append, hone] at hlen
    rw [ne_eq, ← String.length_eq_zero_iff] at hs he
    omega
  rw [rsplitFileAtDot, if_neg hdots, hrev, hsplit]
  cases h : stem.toList.reverse with
  | nil => exact absurd (by simpa using h) hs
  | cons c l => simp [← h]

theorem fileStem_child (dir : PathBuf) {stem ext : String} (hs : stem ≠ "") (he : ext ≠ "")
    (hdot : '.' ∉ ext.toList) : fileStem (child dir (stem ++ "." ++ ext)) = some stem := by
  simp [fileStem, rsplitFileAtDot_append hs he hdot]

theorem extension_child (dir : PathBuf) {stem ext : String} (hs : stem ≠ "") (he : ext ≠ "")
    (hdot : '.' ∉ ext.toList) : extension (child dir (stem ++ "." ++ ext)) = some ext := by
  simp [extension, rsplitFileAtDot_append hs he hdot]

/-- A name that has an extension is its stem, a dot and the extension. -/
theorem eq_append_of_extension {dir : PathBuf} {name stem ext : String}
    (hs : fileStem (child dir name) = some stem) (he : extension (child dir name) = some ext) :
    stem ≠ "" ∧ name = stem ++ "." ++ ext := by
  simp only [fileStem, extension, fileName_child, Option.bind_some, rsplitFileAtDot] at hs he
  split at he
  · cases he
  · rename_i hdots
    rw [if_neg hdots] at hs
    cases hsplit : Text.splitOnce '.' name.toList.reverse with
    | none => simp [hsplit] at he
    | some parts =>
      obtain ⟨after, before⟩ := parts
      obtain ⟨hname, -⟩ := Text.splitOnce_eq_some.1 hsplit
      cases before with
      | nil => simp [hsplit] at he
      | cons c before =>
        obtain rfl : String.ofList (c :: before).reverse = stem := by simpa [hsplit] using hs
        obtain rfl : String.ofList after.reverse = ext := by simpa [hsplit] using he
        have hchars : name.toList = (after ++ '.' :: c :: before).reverse := by
          rw [← hname, List.reverse_reverse]
        refine ⟨by simp [← String.toList_inj], String.toList_inj.1 ?_⟩
        simp [hchars]

end Files

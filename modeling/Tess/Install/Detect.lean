import Tess.Graphs.Bounded
import Tess.Install.Calls

/-!
# Finding the module directory

The PAM modules live where a stock one is. `detect_module_dir` of `install/mod.rs` looks for it
below the library roots, to a bounded depth and through real directories only: a link may lead
anywhere, back up as well, and it is never followed.

A file tree is what the search sees of one: the listing of each directory that can be read. A
listing may hold entries that could not be read, and entries whose type is not known.
-/

namespace Tess

open Files Text Graphs

namespace Install

inductive FileType where
  | file
  | dir
  | symlink
  | other
  deriving DecidableEq

/-- An entry, with its type if that can be told. A link is a `symlink`, whatever it leads to. -/
structure DirEntry where
  fileName : Text
  fileType : Option FileType
  deriving DecidableEq

structure FileTree where
  isDir : Text → Bool
  readDir : Text → Option (List (Option DirEntry))

/-! ## The search -/

/-- The loop over the entries of a directory: the directory itself, if the needle is there, or the
stack with the subdirectories on top. -/
def scan (needle : Text) (maxDepth : ℕ) (dir : Text) (depth : ℕ) :
    List DirEntry → List (Text × ℕ) → Text ⊕ List (Text × ℕ)
  | [], frontier => .inr frontier
  | entry :: entries, frontier =>
    let path := joinPath dir entry.fileName
    -- an entry whose type cannot be told is neither
    if entry.fileType = some .file ∧ entry.fileName = needle then .inl dir
    else if entry.fileType = some .dir ∧ depth < maxDepth then
      scan needle maxDepth dir depth entries ((path, depth + 1) :: frontier)
    else scan needle maxDepth dir depth entries frontier

def subdirs (dir : Text) (entries : List DirEntry) : List Text :=
  (entries.filter fun entry => entry.fileType = some .dir).map fun entry =>
    joinPath dir entry.fileName

def IsNeedle (needle : Text) (entry : DirEntry) : Prop :=
  entry.fileType = some .file ∧ entry.fileName = needle

theorem scan_found {needle dir : Text} {maxDepth depth : ℕ} {entries : List DirEntry}
    {frontier : List (Text × ℕ)} (h : ∃ entry ∈ entries, IsNeedle needle entry) :
    scan needle maxDepth dir depth entries frontier = .inl dir := by
  induction entries generalizing frontier with
  | nil =>
    obtain ⟨entry, hentry, -⟩ := h
    cases hentry
  | cons entry entries ih =>
    rw [scan]
    split_ifs with hneedle hdir
    · rfl
    · exact ih (by simpa [hneedle, IsNeedle] using h)
    · exact ih (by simpa [hneedle, IsNeedle] using h)

theorem scan_not_found {needle dir : Text} {maxDepth depth : ℕ} {entries : List DirEntry}
    {frontier : List (Text × ℕ)} (h : ¬ ∃ entry ∈ entries, IsNeedle needle entry) :
    scan needle maxDepth dir depth entries frontier =
      .inr (if depth < maxDepth then
        ((subdirs dir entries).map fun path => (path, depth + 1)).reverse ++ frontier
        else frontier) := by
  induction entries generalizing frontier with
  | nil => simp [scan, subdirs]
  | cons entry entries ih =>
    have hne : ¬ (entry.fileType = some .file ∧ entry.fileName = needle) :=
      fun he => h ⟨entry, List.mem_cons_self, he⟩
    have hrest : ¬ ∃ entry ∈ entries, IsNeedle needle entry := by
      rintro ⟨e, he, hneedle⟩
      exact h ⟨e, List.mem_cons_of_mem _ he, hneedle⟩
    rw [scan, if_neg hne]
    by_cases hdir : entry.fileType = some .dir
    · by_cases hdepth : depth < maxDepth
      · rw [if_pos ⟨hdir, hdepth⟩, ih hrest]
        simp [hdepth, hdir, subdirs]
      · rw [if_neg fun h => hdepth h.2, ih hrest]
        simp [hdepth]
    · rw [if_neg fun h => hdir h.1, ih hrest]
      simp [hdir, subdirs]

namespace FileTree

variable (tree : FileTree)

/-- The entries of a directory that can be read, as far as they can. -/
def entries (dir : Text) : List DirEntry := ((tree.readDir dir).getD []).filterMap id

/-- The real directories in a directory. -/
def next (dir : Text) : List Text := subdirs dir (tree.entries dir)

def Contains (needle dir : Text) : Prop := ∃ entry ∈ tree.entries dir, IsNeedle needle entry

variable {tree} {needle dir : Text} {maxDepth depth : ℕ} {frontier : List (Text × ℕ)}

/-- What the loop over a directory comes to: the needle is there, or the directory is visited. -/
theorem scan_entries (tree : FileTree) (needle dir : Text) (maxDepth depth : ℕ)
    (frontier : List (Text × ℕ)) :
    (tree.Contains needle dir ∧
      scan needle maxDepth dir depth (tree.entries dir) frontier = .inl dir) ∨
    ¬ tree.Contains needle dir ∧ scan needle maxDepth dir depth (tree.entries dir) frontier =
      .inr (visit tree.next maxDepth dir depth frontier) := by
  by_cases h : tree.Contains needle dir
  · exact .inl ⟨h, scan_found h⟩
  · exact .inr ⟨h, scan_not_found h⟩

theorem entries_of_unreadable (h : tree.readDir dir = none) : tree.entries dir = [] := by
  rw [entries, h]
  rfl

theorem entries_of_readable {listing : List (Option DirEntry)}
    (h : tree.readDir dir = some listing) : tree.entries dir = listing.filterMap id := by
  rw [entries, h]
  rfl

/-- A directory that cannot be read adds nothing to the stack. -/
theorem visit_of_unreadable (h : tree.readDir dir = none) :
    visit tree.next maxDepth dir depth frontier = frontier := by
  rw [visit, next, entries_of_unreadable h]
  simp [subdirs]

/-- A loop that ends without the needle has visited the directory. -/
theorem eq_visit_of_scan {listing : List (Option DirEntry)} {frontier' : List (Text × ℕ)}
    (h : tree.readDir dir = some listing)
    (hscan : scan needle maxDepth dir depth (listing.filterMap id) frontier = .inr frontier') :
    frontier' = visit tree.next maxDepth dir depth frontier := by
  rw [← entries_of_readable h] at hscan
  obtain ⟨-, hfound⟩ | ⟨-, hvisit⟩ := scan_entries tree needle dir maxDepth depth frontier
  · rw [hfound] at hscan
    cases hscan
  · rw [hvisit] at hscan
    exact (Sum.inr.inj hscan).symm

/-- The loop over the stack. -/
def search (tree : FileTree) (needle : Text) (maxDepth : ℕ) (frontier : List (Text × ℕ)) :
    Option Text :=
  match frontier with
  | [] => none
  | (dir, depth) :: frontier =>
    match _hread : tree.readDir dir with
    | none => tree.search needle maxDepth frontier
    | some listing =>
      match _hscan : scan needle maxDepth dir depth (listing.filterMap id) frontier with
      | .inl found => some found
      | .inr frontier => tree.search needle maxDepth frontier
termination_by weight tree.next maxDepth frontier
decreasing_by
  · rw [weight_visit, visit_of_unreadable _hread]
    exact Nat.lt_succ_self _
  · rw [weight_visit, eq_visit_of_scan _hread _hscan]
    exact Nat.lt_succ_self _

/-- `find_module_dir`. -/
def findModuleDir (tree : FileTree) (root needle : Text) (maxDepth : ℕ) : Option Text :=
  tree.search needle maxDepth [(root, 0)]

/-- An answer is right for a stack: none where the stack leads to no needle, and otherwise the
directory of one that it leads to. -/
inductive Answers (tree : FileTree) (needle : Text) (maxDepth : ℕ) (frontier : List (Text × ℕ)) :
    Option Text → Prop
  | none (h : ∀ dir, Ahead tree.next maxDepth frontier dir → ¬ tree.Contains needle dir) :
      Answers tree needle maxDepth frontier none
  | some {dir : Text} (hahead : Ahead tree.next maxDepth frontier dir)
      (h : tree.Contains needle dir) : Answers tree needle maxDepth frontier (some dir)

/-- A directory without the needle may be visited. -/
theorem Answers.of_visit {found : Option Text} (hdir : ¬ tree.Contains needle dir)
    (h : tree.Answers needle maxDepth (visit tree.next maxDepth dir depth frontier) found) :
    tree.Answers needle maxDepth ((dir, depth) :: frontier) found := by
  cases h with
  | none h =>
    apply Answers.none
    intro d hd
    obtain rfl | hd := ahead_cons_iff.1 hd
    · exact hdir
    · exact h d hd
  | some hahead h => exact .some (ahead_cons_iff.2 (.inr hahead)) h

theorem search_answers (tree : FileTree) (needle : Text) (maxDepth : ℕ)
    (frontier : List (Text × ℕ)) :
    tree.Answers needle maxDepth frontier (tree.search needle maxDepth frontier) := by
  fun_induction search tree needle maxDepth frontier with
  | case1 => exact .none fun dir h => absurd h not_ahead_nil
  | case2 dir depth frontier hread ih =>
    have hdir : ¬ tree.Contains needle dir := by
      rintro ⟨entry, hentry, -⟩
      rw [entries_of_unreadable hread] at hentry
      cases hentry
    apply Answers.of_visit hdir
    rwa [visit_of_unreadable hread]
  | case3 dir depth frontier listing hread found hscan =>
    rw [← entries_of_readable hread] at hscan
    obtain ⟨h, hfound⟩ | ⟨-, hvisit⟩ := scan_entries tree needle dir maxDepth depth frontier
    · obtain rfl : dir = found := Sum.inl.inj (hfound.symm.trans hscan)
      exact .some (ahead_cons_iff.2 (.inl rfl)) h
    · rw [hvisit] at hscan
      cases hscan
  | case4 dir depth frontier listing hread frontier' hscan ih =>
    rw [← entries_of_readable hread] at hscan
    obtain ⟨-, hfound⟩ | ⟨h, hvisit⟩ := scan_entries tree needle dir maxDepth depth frontier
    · rw [hfound] at hscan
      cases hscan
    · obtain rfl := Sum.inr.inj (hvisit.symm.trans hscan)
      exact .of_visit h ih

theorem findModuleDir_answers (tree : FileTree) (root needle : Text) (maxDepth : ℕ) :
    tree.Answers needle maxDepth [(root, 0)] (tree.findModuleDir root needle maxDepth) :=
  search_answers tree needle maxDepth [(root, 0)]

theorem ahead_root_iff {root : Text} :
    Ahead tree.next maxDepth [(root, 0)] dir ↔ Within tree.next maxDepth root dir := by
  simp [Ahead]

/-- **The search finds what there is to find.** A directory is found if and only if one that holds
the needle is within `maxDepth` real directories that can be read, and the one found is such a
directory. -/
theorem findModuleDir_iff (tree : FileTree) (root needle : Text) (maxDepth : ℕ) :
    ((tree.findModuleDir root needle maxDepth).isSome ↔
      ∃ dir, Within tree.next maxDepth root dir ∧ tree.Contains needle dir) ∧
    ∀ dir, tree.findModuleDir root needle maxDepth = some dir →
      Within tree.next maxDepth root dir ∧ tree.Contains needle dir := by
  have h := findModuleDir_answers tree root needle maxDepth
  generalize tree.findModuleDir root needle maxDepth = found at h ⊢
  cases h with
  | none h =>
    constructor
    · constructor
      · intro hsome
        cases hsome
      · rintro ⟨dir, hdir, hneedle⟩
        exact absurd hneedle (h dir (ahead_root_iff.2 hdir))
    · intro dir hdir
      cases hdir
  | @some dir hahead h =>
    have hdir := ahead_root_iff.1 hahead
    refine ⟨iff_of_true rfl ⟨dir, hdir, h⟩, fun d hd => ?_⟩
    obtain rfl := Option.some.inj hd
    exact ⟨hdir, h⟩

end FileTree

/-! ## The library roots -/

def pamSearchRoots : List Text :=
  ["/lib".toList, "/usr/lib".toList, "/lib64".toList, "/usr/lib64".toList]

def pamSearchMaxDepth : ℕ := 6

def stockModule : Text := "pam_permit.so".toList

namespace FileTree

variable (tree : FileTree)

/-- The loop of `detectModuleDir`. -/
def detectIn : List Text → Except Failure Text
  | [] => .error ["could not locate the PAM module directory (no pam_permit.so under ".toList ++
      (", ".toList).intercalate pamSearchRoots ++ ")".toList]
  | root :: roots =>
    if tree.isDir root then
      match tree.findModuleDir root stockModule pamSearchMaxDepth with
      | some dir => .ok dir
      | none => detectIn roots
    else detectIn roots

def detectModuleDir : Except Failure Text := tree.detectIn pamSearchRoots

def resolveModuleDir (explicit : Option Text) : Except Failure Text :=
  explicit.elim tree.detectModuleDir .ok

/-- A root below which there is a directory of modules. -/
def Holds (root dir : Text) : Prop :=
  tree.isDir root ∧ Within tree.next pamSearchMaxDepth root dir ∧ tree.Contains stockModule dir

/-- The roots are searched one after the other, and the first directory that is found is it. -/
theorem detectIn_cases (tree : FileTree) (roots : List Text) :
    ((∃ e, tree.detectIn roots = .error e) ∧ ∀ root ∈ roots, ∀ dir, ¬ tree.Holds root dir) ∨
      ∃ dir, tree.detectIn roots = .ok dir ∧ ∃ root ∈ roots, tree.Holds root dir := by
  induction roots with
  | nil => exact .inl ⟨⟨_, rfl⟩, fun root h => absurd h List.not_mem_nil⟩
  | cons root roots ih =>
    have hrest (hroot : ∀ dir, ¬ tree.Holds root dir)
        (heq : tree.detectIn (root :: roots) = tree.detectIn roots) :
        ((∃ e, tree.detectIn (root :: roots) = .error e) ∧
          ∀ root' ∈ root :: roots, ∀ dir, ¬ tree.Holds root' dir) ∨
        ∃ dir, tree.detectIn (root :: roots) = .ok dir ∧
          ∃ root' ∈ root :: roots, tree.Holds root' dir := by
      rw [heq]
      obtain ⟨he, hnone⟩ | ⟨dir, hok, root', hroot', hdir⟩ := ih
      · exact .inl ⟨he, List.forall_mem_cons.2 ⟨hroot, hnone⟩⟩
      · exact .inr ⟨dir, hok, root', List.mem_cons_of_mem _ hroot', hdir⟩
    by_cases hisDir : tree.isDir root = true
    · have h := findModuleDir_answers tree root stockModule pamSearchMaxDepth
      cases hfind : tree.findModuleDir root stockModule pamSearchMaxDepth with
      | none =>
        rw [hfind] at h
        cases h with
        | none h =>
          apply hrest
          · rintro dir ⟨-, hdir, hneedle⟩
            exact h dir (ahead_root_iff.2 hdir) hneedle
          · rw [detectIn, if_pos hisDir, hfind]
      | some dir =>
        rw [hfind] at h
        cases h with
        | some hahead h =>
          refine .inr ⟨dir, ?_, root, List.mem_cons_self, hisDir, ahead_root_iff.1 hahead, h⟩
          rw [detectIn, if_pos hisDir, hfind]
    · apply hrest
      · rintro dir ⟨h, -⟩
        exact hisDir h
      · rw [detectIn, if_neg hisDir]

/-- **The module directory is where a stock module is**, below one of the roots; there is an error
if and only if none of them has one. -/
theorem detectModuleDir_spec (tree : FileTree) :
    ((∃ e, tree.detectModuleDir = .error e) ↔
      ∀ root ∈ pamSearchRoots, ∀ dir, ¬ tree.Holds root dir) ∧
    ∀ dir, tree.detectModuleDir = .ok dir → ∃ root ∈ pamSearchRoots, tree.Holds root dir := by
  obtain ⟨⟨e, he⟩, hnone⟩ | ⟨dir, hok, root, hroot, hdir⟩ := detectIn_cases tree pamSearchRoots
  · rw [detectModuleDir, he]
    refine ⟨iff_of_true ⟨e, rfl⟩ hnone, fun dir hdir => ?_⟩
    cases hdir
  · rw [detectModuleDir, hok]
    refine ⟨iff_of_false ?_ fun h => h root hroot dir hdir, fun d hd => ?_⟩
    · rintro ⟨e, he⟩
      cases he
    · obtain rfl := Except.ok.inj hd
      exact ⟨root, hroot, hdir⟩

end FileTree

end Install

end Tess

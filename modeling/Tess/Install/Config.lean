import Tess.Formats.Brackets
import Tess.Formats.Text

/-!
# The managed block of a service file

The installer keeps its line of a `pam.d` file between two marker lines. `addBlock` and
`removeBlock` edit the text, `hasBlock` looks for the block.

Both scanners judge a line by what is left after trimming its end, `lineKind`, and both are the scan
for the first bracketed block of the lines (`markerByteSpan_eq`, `markerLineIndices_eq`). So one
turn of the loop of `removeBlock` cuts an innermost block out of the text (`spliceBlock_cases`).
-/

namespace Tess

open Brackets Text

namespace Config

def beginMarker : Text := "# >>> tess >>>".toList

def endMarker : Text := "# <<< tess <<<".toList

/-- The file name of the module. -/
def moduleFile : Text := "pam_tess.so".toList

/-- The one session line the installer adds. -/
def snippetLine : Text := "session optional pam_tess.so".toList

def blockCommentLines : List Text :=
  ["# Managed by `tess install` — remove with `tess install --uninstall`. `optional` means a tess".toList,
    "# failure is ignored and login proceeds with the keyring left locked; it can never lock you out.".toList]

/-- The text of the managed block. -/
def blockText : Text :=
  beginMarker ++ '\n' :: (['\n'].intercalate blockCommentLines ++
    '\n' :: (snippetLine ++ '\n' :: (endMarker ++ ['\n'])))

/-- The loop of `markerByteSpan`: where the last opening marker begins, and where the line does. -/
def markerByteSpanFrom : Option ℕ → ℕ → List Text → Option (ℕ × ℕ)
  | _, _, [] => none
  | start, offset, line :: rest =>
    let trimmed := trimEnd (trimEndMatches (fun c => c = '\n' || c = '\r') line)
    if trimmed = beginMarker then
      markerByteSpanFrom (some offset) (offset + byteLen line) rest
    else if trimmed = endMarker then
      match start with
      | some start => some (start, offset + byteLen line)
      | none => markerByteSpanFrom none (offset + byteLen line) rest
    else markerByteSpanFrom start (offset + byteLen line) rest

/-- The bytes from the opening marker's line to the end of the closing marker's. -/
def markerByteSpan (content : Text) : Option (ℕ × ℕ) :=
  markerByteSpanFrom none 0 (splitInclusive content)

/-- The loop of `markerLineIndices`. -/
def markerLineIndicesFrom : Option ℕ → ℕ → List Text → Option (ℕ × ℕ)
  | _, _, [] => none
  | start, idx, line :: rest =>
    let trimmed := trimEnd (trimEndMatches (· = '\r') (trimEnd line))
    if trimmed = beginMarker then markerLineIndicesFrom (some idx) (idx + 1) rest
    else if trimmed = endMarker then
      match start with
      | some start => some (start, idx)
      | none => markerLineIndicesFrom none (idx + 1) rest
    else markerLineIndicesFrom start (idx + 1) rest

/-- The indices of the markers' lines. -/
def markerLineIndices (content : Text) : Option (ℕ × ℕ) :=
  markerLineIndicesFrom none 0 (lines content)

def hasBlock (content : Text) : Bool := (markerLineIndices content).isSome

/-- One turn of the loop of `removeBlock`. -/
def spliceBlock (content : Text) : Option Text :=
  (markerByteSpan content).map fun span => sliceTo span.1 content ++ sliceFrom span.2 content

/-! ## What the scanners see -/

/-- A line opens or closes a block, or is of the stack. -/
def lineKind (line : Text) : Kind :=
  if trimEnd line = beginMarker then .opener
  else if trimEnd line = endMarker then .closer
  else .plain

theorem trimmed_line (line : Text) :
    trimEnd (trimEndMatches (fun c => c = '\n' || c = '\r') line) = trimEnd line := by
  apply trimEnd_trimEndMatches
  intro c hc
  have : c = '\n' ∨ c = '\r' := by simpa using hc
  rcases this with rfl | rfl <;> decide

theorem trimmed_stripped (line : Text) :
    trimEnd (trimEndMatches (· = '\r') (trimEnd (stripLineEnding line))) = trimEnd line := by
  rw [trimEnd_trimEndMatches (fun c hc => ?_), trimEnd_stripLineEnding]
  · exact List.rdropWhile_idempotent ..
  · obtain rfl : c = '\r' := by simpa using hc
    decide

theorem markerByteSpanFrom_eq (start : Option ℕ) (offset : ℕ) (ls : List Text) :
    markerByteSpanFrom start offset ls = scan lineKind byteLen start offset ls := by
  induction ls generalizing start offset with
  | nil => rfl
  | cons l ls ih =>
    simp only [markerByteSpanFrom, trimmed_line, scan, lineKind]
    split_ifs with hb he
    · exact ih ..
    · cases start with
      | none => exact ih ..
      | some start => rfl
    · exact ih ..

theorem markerByteSpan_eq (content : Text) :
    markerByteSpan content = scan lineKind byteLen none 0 (splitInclusive content) :=
  markerByteSpanFrom_eq ..

theorem markerLineIndicesFrom_eq (start : Option ℕ) (idx : ℕ) (ls : List Text) :
    markerLineIndicesFrom start idx (ls.map stripLineEnding) =
      (scan lineKind (fun _ => 1) start idx ls).map fun span => (span.1, span.2 - 1) := by
  induction ls generalizing start idx with
  | nil => rfl
  | cons l ls ih =>
    simp only [List.map_cons, markerLineIndicesFrom, trimmed_stripped, scan, lineKind]
    split_ifs with hb he
    · exact ih ..
    · cases start with
      | none => exact ih ..
      | some start => rfl
    · exact ih ..

theorem markerLineIndices_eq (content : Text) :
    markerLineIndices content =
      (scan lineKind (fun _ => 1) none 0 (splitInclusive content)).map
        fun span => (span.1, span.2 - 1) :=
  markerLineIndicesFrom_eq ..

/-- The text has no managed block. -/
def BlockFree (content : Text) : Prop := Blockless lineKind (splitInclusive content)

theorem markerByteSpan_eq_none {content : Text} :
    markerByteSpan content = none ↔ BlockFree content := by
  rw [markerByteSpan_eq, scan_eq_none, BlockFree]

theorem hasBlock_eq_false {content : Text} : hasBlock content = false ↔ BlockFree content := by
  rw [hasBlock, Option.isSome_eq_false_iff, Option.isNone_iff_eq_none, markerLineIndices_eq,
    Option.map_eq_none_iff, scan_eq_none, BlockFree]

/-- One turn of the loop finds no block, or cuts out the first one and leaves the other lines. -/
theorem spliceBlock_cases (content : Text) :
    (spliceBlock content = none ∧ BlockFree content) ∨
    ∃ pre block post, splitInclusive content = pre ++ (block ++ post) ∧
      Blockless lineKind pre ∧ Block lineKind block ∧
      spliceBlock content = some (pre ++ post).flatten := by
  rcases @scan_cases _ lineKind byteLen 0 (splitInclusive content) with ⟨hs, hb⟩ |
    ⟨pre, block, post, hsplit, hpre, hb, hs⟩
  · exact .inl ⟨by rw [spliceBlock, markerByteSpan_eq, hs]; rfl, hb⟩
  · refine .inr ⟨pre, block, post, hsplit, hpre, hb, ?_⟩
    have hcontent : content = pre.flatten ++ (block.flatten ++ post.flatten) := by
      rw [← flatten_splitInclusive content, hsplit]
      simp
    simp only [spliceBlock, markerByteSpan_eq, hs, Option.map_some, Nat.zero_add,
      ← byteLen_flatten]
    congr 1
    have hto : sliceTo (byteLen pre.flatten) content = pre.flatten := by
      rw [hcontent, sliceTo_append]
    have hfrom : sliceFrom (byteLen (pre ++ block).flatten) content = post.flatten := by
      rw [hcontent, ← List.append_assoc, ← List.flatten_append, sliceFrom_append]
    rw [hto, hfrom, List.flatten_append]

theorem spliceBlock_lt {content next : Text} (h : spliceBlock content = some next) :
    next.length < content.length := by
  rcases spliceBlock_cases content with ⟨hs, -⟩ | ⟨pre, block, post, hsplit, -, hb, hs⟩
  · simp [hs] at h
  · obtain rfl : (pre ++ post).flatten = next := Option.some.inj (hs.symm.trans h)
    obtain ⟨o, mid, c, rfl, -⟩ := hb
    have hne : o ≠ [] := (isLines_splitInclusive content).ne_nil (by simp [hsplit])
    have hpos := List.length_pos_iff.2 hne
    have hlen := congrArg (fun ls => ls.flatten.length) hsplit
    simp only [flatten_splitInclusive] at hlen
    rw [hlen]
    simp only [List.flatten_append, List.length_append, List.flatten_cons]
    omega

/-- Cut blocks out until none is found. -/
def removeBlock (content : Text) : Text :=
  match _h : spliceBlock content with
  | none => content
  | some next => removeBlock next
termination_by content.length
decreasing_by exact spliceBlock_lt _h

/-- Strip the blocks and append a fresh one. -/
def addBlock (content : Text) : Text :=
  let base := removeBlock content
  if base = [] then blockText
  else
    let out := if base.getLast? = some '\n' then base else base ++ ['\n']
    out ++ blockText

end Config

end Tess

import Mathlib.Data.List.Basic
import Mathlib.Data.List.DropRight
import Mathlib.Algebra.Ring.Nat
import Mathlib.Tactic.Common

/-!
# Text, as lists of characters

The string functions of the standard library that the programs use. Lengths and offsets are in
bytes, and a slice takes the characters that lie before, or from, an offset; where an offset is the
length of a prefix, slicing splits the text there (`sliceTo_append`, `sliceFrom_append`).

A text is the concatenation of its lines (`flatten_splitInclusive`), and lines of which only the
last may lack its newline are those of their concatenation (`splitInclusive_flatten`).
-/

abbrev Text := List Char

namespace Text

/-- The white space of Unicode. -/
def isWhitespace (c : Char) : Bool :=
  let n := c.val
  (9 ≤ n && n ≤ 13) || n = 0x20 || n = 0x85 || n = 0xA0 || n = 0x1680 ||
    (0x2000 ≤ n && n ≤ 0x200A) || n = 0x2028 || n = 0x2029 || n = 0x202F || n = 0x205F ||
    n = 0x3000

/-! ## Trimming -/

def trimStart (s : Text) : Text := s.dropWhile isWhitespace

def trimEndMatches (p : Char → Bool) (s : Text) : Text := s.rdropWhile p

def trimEnd (s : Text) : Text := trimEndMatches isWhitespace s

def trim (s : Text) : Text := trimEnd (trimStart s)

theorem trimEnd_append_whitespace (s : Text) {c : Char} (h : isWhitespace c) :
    trimEnd (s ++ [c]) = trimEnd s :=
  List.rdropWhile_concat_pos _ _ _ h

/-- Trimming some white space first changes nothing. -/
theorem trimEnd_trimEndMatches {p : Char → Bool} (h : ∀ c, p c → isWhitespace c) (s : Text) :
    trimEnd (trimEndMatches p s) = trimEnd s := by
  induction s using List.reverseRecOn with
  | nil => rfl
  | append_singleton s c ih =>
    by_cases hc : p c
    · rw [trimEndMatches, List.rdropWhile_concat_pos _ _ _ hc, trimEnd_append_whitespace s (h c hc)]
      exact ih
    · rw [trimEndMatches, List.rdropWhile_concat_neg _ _ _ hc]

/-! ## Lengths and slices, in bytes -/

def byteLen (s : Text) : ℕ := (s.map Char.utf8Size).sum

@[simp] theorem byteLen_nil : byteLen [] = 0 := rfl

@[simp] theorem byteLen_cons (c : Char) (s : Text) : byteLen (c :: s) = c.utf8Size + byteLen s := by
  simp [byteLen]

@[simp] theorem byteLen_append (s t : Text) : byteLen (s ++ t) = byteLen s + byteLen t := by
  simp [byteLen]

theorem byteLen_flatten (ls : List Text) : byteLen ls.flatten = (ls.map byteLen).sum := by
  induction ls with
  | nil => rfl
  | cons l ls ih => simp [ih]

/-- The text before the offset. -/
def sliceTo : ℕ → Text → Text
  | _, [] => []
  | n, c :: s => if c.utf8Size ≤ n then c :: sliceTo (n - c.utf8Size) s else []

/-- The text from the offset on. -/
def sliceFrom : ℕ → Text → Text
  | _, [] => []
  | n, c :: s => if c.utf8Size ≤ n then sliceFrom (n - c.utf8Size) s else c :: s

theorem sliceTo_append (s t : Text) : sliceTo (byteLen s) (s ++ t) = s := by
  induction s with
  | nil =>
    cases t with
    | nil => rfl
    | cons c t =>
      have := c.utf8Size_pos
      rw [List.nil_append, byteLen_nil, sliceTo, if_neg (by omega)]
  | cons c s ih => simp [sliceTo, ih]

theorem sliceFrom_append (s t : Text) : sliceFrom (byteLen s) (s ++ t) = t := by
  induction s with
  | nil =>
    cases t with
    | nil => rfl
    | cons c t =>
      have := c.utf8Size_pos
      rw [List.nil_append, byteLen_nil, sliceFrom, if_neg (by omega)]
  | cons c s ih => simp [sliceFrom, ih]

/-! ## Bytes -/

def utf8 (s : Text) : List UInt8 := s.flatMap String.utf8EncodeChar

def ofUtf8 (b : List UInt8) : Option Text := b.toByteArray.utf8Decode?.map Array.toList

@[simp] theorem ofUtf8_utf8 (s : Text) : ofUtf8 (utf8 s) = some s := by
  have h : (utf8 s).toByteArray = s.utf8Encode := rfl
  rw [ofUtf8, h, List.utf8Decode?_utf8Encode]
  simp

theorem length_utf8 (s : Text) : (utf8 s).length = byteLen s := by
  rw [utf8, byteLen, List.length_flatMap]
  simp only [String.length_utf8EncodeChar]

/-- One byte for a character below 128, and otherwise bytes from 128 on. -/
theorem utf8EncodeChar_cases (c : Char) :
    c.toNat < 128 ∧ String.utf8EncodeChar c = [UInt8.ofNat c.toNat] ∨
      128 ≤ c.toNat ∧ ∃ b ∈ String.utf8EncodeChar c, 128 ≤ b.toNat := by
  have hn : c.val.toNat = c.toNat := rfl
  have hlt : c.toNat < 1114112 := by
    rcases c.valid with h | h <;> omega
  unfold String.utf8EncodeChar
  simp only [hn]
  split_ifs with h₁ h₂ h₃
  · exact .inl ⟨by omega, rfl⟩
  all_goals
    -- The first byte says how many there are.
    refine .inr ⟨by omega, _, List.mem_cons_self, ?_⟩
    rw [UInt8.toNat_ofNat']
    omega

theorem utf8_ascii {s : Text} (h : ∀ c ∈ s, c.toNat < 128) :
    utf8 s = s.map fun c => UInt8.ofNat c.toNat := by
  induction s with
  | nil => rfl
  | cons c s ih =>
    simp only [List.mem_cons, forall_eq_or_imp] at h
    rw [utf8, List.flatMap_cons, ← utf8, ih h.2, List.map_cons]
    rcases utf8EncodeChar_cases c with ⟨-, hc⟩ | ⟨hc, -⟩
    · rw [hc]
      rfl
    · omega

/-- A text of bytes below 128 is one of characters below 128. -/
theorem ascii_of_utf8 {s : Text} (h : ∀ b ∈ utf8 s, b.toNat < 128) : ∀ c ∈ s, c.toNat < 128 := by
  intro c hc
  rcases utf8EncodeChar_cases c with ⟨hlt, -⟩ | ⟨-, b, hb, hge⟩
  · exact hlt
  · have := h b (List.mem_flatMap.2 ⟨c, hc, hb⟩)
    omega

theorem utf8_injective : Function.Injective utf8 := fun s t h => by
  simpa using congrArg ofUtf8 h

/-! ## Lines -/

/-- `split_inclusive('\n')`: the lines, with their newlines. -/
def splitInclusive : Text → List Text
  | [] => []
  | c :: s =>
    if c = '\n' then [c] :: splitInclusive s
    else
      match splitInclusive s with
      | [] => [[c]]
      | l :: ls => (c :: l) :: ls

def stripSuffix (c : Char) (s : Text) : Option Text :=
  if s.getLast? = some c then some s.dropLast else none

/-- Strip a newline, and a carriage return before it. -/
def stripLineEnding (l : Text) : Text :=
  match stripSuffix '\n' l with
  | none => l
  | some l => (stripSuffix '\r' l).getD l

/-- The lines, without their line endings. -/
def lines (s : Text) : List Text := (splitInclusive s).map stripLineEnding

/-- The line ends with its only newline. -/
def Terminated (l : Text) : Prop := ∃ s, l = s ++ ['\n'] ∧ '\n' ∉ s

/-- The line is the rest of a text after its last newline. -/
def Unterminated (l : Text) : Prop := l ≠ [] ∧ '\n' ∉ l

/-- Lines of a text: all but the last are terminated. -/
def IsLines (ls : List Text) : Prop :=
  (∀ l ∈ ls, Terminated l ∨ Unterminated l) ∧ ls.Pairwise fun l _ => Terminated l

theorem IsLines.sublist {ls ls' : List Text} (h : IsLines ls) (hs : ls'.Sublist ls) :
    IsLines ls' :=
  ⟨fun l hl => h.1 l (hs.subset hl), h.2.sublist hs⟩

theorem Terminated.ne_nil {l : Text} (h : Terminated l) : l ≠ [] := by
  obtain ⟨s, rfl, -⟩ := h
  simp

theorem IsLines.ne_nil {ls : List Text} (h : IsLines ls) {l : Text} (hl : l ∈ ls) : l ≠ [] :=
  (h.1 l hl).elim Terminated.ne_nil And.left

theorem flatten_splitInclusive (s : Text) : (splitInclusive s).flatten = s := by
  induction s with
  | nil => rfl
  | cons c s ih =>
    rw [splitInclusive]
    split_ifs with hc
    · simp [ih]
    · cases hs : splitInclusive s with
      | nil => simpa [hs] using ih
      | cons l ls => simpa [hs] using ih

theorem Terminated.cons {l : Text} (h : Terminated l) {c : Char} (hc : c ≠ '\n') :
    Terminated (c :: l) := by
  obtain ⟨s, rfl, hs⟩ := h
  exact ⟨c :: s, rfl, by simp [hc.symm, hs]⟩

theorem Unterminated.cons {l : Text} (h : Unterminated l) {c : Char} (hc : c ≠ '\n') :
    Unterminated (c :: l) :=
  ⟨by simp, by simp [hc.symm, h.2]⟩

theorem isLines_splitInclusive (s : Text) : IsLines (splitInclusive s) := by
  induction s with
  | nil => exact ⟨by simp [splitInclusive], .nil⟩
  | cons c s ih =>
    obtain ⟨hall, hpair⟩ := ih
    rw [splitInclusive]
    split_ifs with hc
    · have hterm : Terminated [c] := ⟨[], by simp [hc], by simp⟩
      refine ⟨fun l hl => ?_, List.pairwise_cons.2 ⟨fun _ _ => hterm, hpair⟩⟩
      rcases List.mem_cons.1 hl with rfl | hl
      · exact .inl hterm
      · exact hall l hl
    · cases hs : splitInclusive s with
      | nil => exact ⟨by simp [Unterminated, Ne.symm hc], by simp⟩
      | cons l ls =>
        rw [hs] at hall hpair
        obtain ⟨hfirst, hrest⟩ := List.pairwise_cons.1 hpair
        refine ⟨fun l' hl => ?_, List.pairwise_cons.2 ⟨fun l' hl => (hfirst l' hl).cons hc, hrest⟩⟩
        rcases List.mem_cons.1 hl with rfl | hl
        · exact (hall l (by simp)).imp (·.cons hc) (·.cons hc)
        · exact hall l' (by simp [hl])

theorem splitInclusive_terminated {l : Text} (h : Terminated l) (s : Text) :
    splitInclusive (l ++ s) = l :: splitInclusive s := by
  obtain ⟨t, rfl, ht⟩ := h
  induction t with
  | nil => simp [splitInclusive]
  | cons c t ih =>
    simp only [List.mem_cons, not_or] at ht
    have ih := ih ht.2
    simp only [List.append_assoc, List.cons_append, List.nil_append] at ih ⊢
    rw [splitInclusive, if_neg (Ne.symm ht.1), ih]

theorem splitInclusive_unterminated {l : Text} (h : Unterminated l) : splitInclusive l = [l] := by
  obtain ⟨hne, hl⟩ := h
  induction l with
  | nil => exact absurd rfl hne
  | cons c l ih =>
    simp only [List.mem_cons, not_or] at hl
    rw [splitInclusive, if_neg (Ne.symm hl.1)]
    cases l with
    | nil => rfl
    | cons d l => rw [ih (by simp) hl.2]

theorem splitInclusive_flatten {ls : List Text} (h : IsLines ls) :
    splitInclusive ls.flatten = ls := by
  induction ls with
  | nil => rfl
  | cons l ls ih =>
    have hrest := ih (h.sublist (List.sublist_cons_self ..))
    obtain ⟨hall, hpair⟩ := h
    rcases hall l (by simp) with hl | hl
    · rw [List.flatten_cons, splitInclusive_terminated hl, hrest]
    · cases ls with
      | nil => simpa using splitInclusive_unterminated hl
      | cons l' ls =>
        obtain ⟨s, rfl, -⟩ := (List.pairwise_cons.1 hpair).1 l' (by simp)
        exact absurd (by simp) hl.2

/-- The text is empty or ends with a newline. -/
def EndsLine (s : Text) : Prop := s = [] ∨ s.getLast? = some '\n'

theorem EndsLine.terminated {s : Text} (h : EndsLine s) {l : Text} (hl : l ∈ splitInclusive s) :
    Terminated l := by
  obtain ⟨hall, hpair⟩ := isLines_splitInclusive s
  obtain ⟨ls, ls', hls⟩ := List.append_of_mem hl
  cases ls' with
  | cons l' ls' =>
    rw [hls] at hpair
    exact (List.pairwise_cons.1 (List.pairwise_append.1 hpair).2.1).1 l' (by simp)
  | nil =>
    -- The last line ends as the text does.
    refine (hall l hl).resolve_right fun ⟨hne, hno⟩ => ?_
    have hs : s = ls.flatten ++ l := by
      rw [← flatten_splitInclusive s, hls]
      simp
    rcases h with rfl | h
    · simp [hne] at hs
    · rw [hs, List.getLast?_append_of_ne_nil _ hne] at h
      exact hno (List.mem_of_getLast? h)

/-- A text that ends a line keeps its lines when text is appended. -/
theorem splitInclusive_append {s : Text} (h : EndsLine s) (t : Text) :
    splitInclusive (s ++ t) = splitInclusive s ++ splitInclusive t := by
  have happend : ∀ {ls : List Text}, (∀ l ∈ ls, Terminated l) →
      splitInclusive (ls.flatten ++ t) = ls ++ splitInclusive t := by
    intro ls hls
    induction ls with
    | nil => rfl
    | cons l ls ih =>
      rw [List.flatten_cons, List.append_assoc, splitInclusive_terminated (hls l (by simp)),
        ih fun l' hl => hls l' (by simp [hl]), List.cons_append]
  have hs := happend fun l hl => h.terminated hl
  rwa [flatten_splitInclusive] at hs

/-- What does not look at white space at the end does not look at the line ending. -/
theorem map_stripLineEnding {β : Type} {f : Text → β}
    (hf : ∀ s c, isWhitespace c = true → f (s ++ [c]) = f s) (l : Text) :
    f (stripLineEnding l) = f l := by
  have hstrip : ∀ {c : Char} {s t : Text}, isWhitespace c → stripSuffix c s = some t →
      f t = f s := by
    intro c s t hc hs
    obtain ⟨hlast, rfl⟩ : s.getLast? = some c ∧ s.dropLast = t := by
      simpa [stripSuffix] using hs
    rw [← hf s.dropLast c hc, List.dropLast_append_getLast? c hlast]
  have hnewline : isWhitespace '\n' = true := by decide
  have hreturn : isWhitespace '\r' = true := by decide
  rw [stripLineEnding]
  cases hn : stripSuffix '\n' l with
  | none => rfl
  | some t =>
    rw [← hstrip hnewline hn]
    cases hr : stripSuffix '\r' t with
    | none => simp [hr]
    | some u => simpa [hr] using hstrip hreturn hr

/-- Line endings are white space. -/
theorem trimEnd_stripLineEnding (l : Text) : trimEnd (stripLineEnding l) = trimEnd l :=
  map_stripLineEnding (fun s _ hc => trimEnd_append_whitespace s hc) l

theorem trim_append_whitespace (s : Text) {c : Char} (h : isWhitespace c) :
    trim (s ++ [c]) = trim s := by
  rw [trim, trim, trimStart, List.dropWhile_append]
  split_ifs with hs
  · have hnil : trimStart s = [] := List.isEmpty_iff.1 hs
    simp [hnil, h]
  · exact trimEnd_append_whitespace _ h

theorem trim_stripLineEnding (l : Text) : trim (stripLineEnding l) = trim l :=
  map_stripLineEnding (fun s _ hc => trim_append_whitespace s hc) l

/-! ## Prefixes, suffixes and separators -/

def stripPrefix (c : Char) : Text → Option Text
  | [] => none
  | d :: s => if d = c then some s else none

theorem stripPrefix_eq_some {c : Char} {s t : Text} : stripPrefix c s = some t ↔ s = c :: t := by
  cases s <;> simp [stripPrefix]

theorem stripSuffix_eq_some {c : Char} {s t : Text} : stripSuffix c s = some t ↔ s = t ++ [c] := by
  constructor
  · intro h
    obtain ⟨hlast, rfl⟩ : s.getLast? = some c ∧ s.dropLast = t := by simpa [stripSuffix] using h
    exact (List.dropLast_append_getLast? c hlast).symm
  · rintro rfl
    simp [stripSuffix]

/-- What stands before and after the first separator. -/
def splitOnce (c : Char) (s : Text) : Option (Text × Text) :=
  if c ∈ s then some (s.takeWhile (· != c), (s.dropWhile (· != c)).tail) else none

theorem forall_bne {c : Char} {s : Text} (h : c ∉ s) : ∀ d ∈ s, (d != c) = true := by
  intro d hd
  rw [bne_iff_ne]
  rintro rfl
  exact h hd

theorem splitOnce_append {c : Char} {s : Text} (h : c ∉ s) (t : Text) :
    splitOnce c (s ++ c :: t) = some (s, t) := by
  have hs := forall_bne h
  rw [splitOnce, if_pos (by simp), List.takeWhile_append_of_pos hs, List.dropWhile_append_of_pos hs]
  simp

theorem splitOnce_eq_some {c : Char} {s k v : Text} :
    splitOnce c s = some (k, v) ↔ s = k ++ c :: v ∧ c ∉ k := by
  constructor
  · intro h
    have hmem : c ∈ s := by
      by_contra hn
      simp [splitOnce, hn] at h
    obtain ⟨a, b, rfl, ha⟩ := List.eq_append_cons_of_mem hmem
    rw [splitOnce_append ha] at h
    cases h
    exact ⟨rfl, ha⟩
  · rintro ⟨rfl, hk⟩
    exact splitOnce_append hk v

/-- The last of the pieces between separators: `rsplit(c).next()`. -/
def lastPiece (c : Char) (s : Text) : Text := s.rtakeWhile (· != c)

theorem lastPiece_eq {c : Char} {s name : Text} (h : c ∉ name) :
    lastPiece c s = name ↔ s = name ∨ ∃ dir, s = dir ++ c :: name := by
  have hall := forall_bne h
  have hafter : ∀ dir, lastPiece c (dir ++ c :: name) = name := by
    intro dir
    induction name using List.reverseRecOn with
    | nil => simp [lastPiece]
    | append_singleton name d ih =>
      have hd := hall d (by simp)
      rw [lastPiece, ← List.cons_append, ← List.append_assoc,
        List.rtakeWhile_concat_pos (· != c) _ _ hd]
      congr 1
      exact ih (fun hc => h (by simp [hc])) fun e he => hall e (by simp [he])
  constructor
  · intro hs
    have hsplit := List.rdropWhile_append_rtakeWhile (p := (· != c)) (l := s)
    rw [show s.rtakeWhile (· != c) = name from hs] at hsplit
    rcases List.eq_nil_or_concat' (s.rdropWhile (· != c)) with hd | ⟨dir, d, hd⟩
    · left
      rw [← hsplit, hd, List.nil_append]
    · right
      have hlast := List.rdropWhile_last_not (· != c) s (by rw [hd]; simp)
      have hdc : d = c := by simpa only [hd, List.getLast_append_singleton, bne_iff_ne, not_not]
        using hlast
      exact ⟨dir, by rw [← hsplit, hd, hdc]; simp⟩
  · rintro (rfl | ⟨dir, rfl⟩)
    · exact List.rtakeWhile_eq_self_iff.2 hall
    · exact hafter dir

/-! ## Words -/

def Blank (s : Text) : Prop := ∀ c ∈ s, isWhitespace c = true

/-- One or more characters, none of them white space. -/
def Token (s : Text) : Prop := s ≠ [] ∧ ∀ c ∈ s, isWhitespace c = false

/-- No token goes on here. -/
def Break (s : Text) : Prop := ∀ c, s.head? = some c → isWhitespace c = true

def splitWhitespace (s : Text) : List Text := (s.splitOnP isWhitespace).filter (· ≠ [])

theorem Token.head {t : Text} (h : Token t) : ∃ c t', t = c :: t' ∧ isWhitespace c = false := by
  obtain ⟨hne, hall⟩ := h
  cases t with
  | nil => exact absurd rfl hne
  | cons c t => exact ⟨c, t, rfl, hall c (by simp)⟩

theorem Token.last {t : Text} (h : Token t) : ∃ t' c, t = t' ++ [c] ∧ isWhitespace c = false := by
  obtain ⟨hne, hall⟩ := h
  obtain ⟨t', c, rfl⟩ := (List.eq_nil_or_concat' t).resolve_left hne
  exact ⟨t', c, rfl, hall c (by simp)⟩

theorem token_of_mem_splitWhitespace {s t : Text} (h : t ∈ splitWhitespace s) : Token t := by
  obtain ⟨hmem, hne⟩ := List.mem_filter.1 h
  refine ⟨by simpa using hne, ?_⟩
  clear h hne
  induction s generalizing t with
  | nil => simp_all
  | cons c s ih =>
    rw [List.splitOnP_cons_eq_if_modifyHead] at hmem
    split_ifs at hmem with hc
    · rcases List.mem_cons.1 hmem with rfl | hmem
      · simp
      · exact ih hmem
    · obtain ⟨u, us, hu⟩ := List.exists_cons_of_ne_nil (List.splitOnP_ne_nil isWhitespace s)
      rw [hu, List.modifyHead_cons] at hmem
      rcases List.mem_cons.1 hmem with rfl | hmem
      · intro d hd
        rcases List.mem_cons.1 hd with rfl | hd
        · simpa using hc
        · exact ih (by simp [hu]) d hd
      · exact ih (by simp [hu, hmem])

theorem trimStart_append {a : Text} (h : Blank a) (s : Text) : trimStart (a ++ s) = trimStart s :=
  List.dropWhile_append_of_pos h

theorem trimStart_cons {c : Char} (h : isWhitespace c = false) (s : Text) :
    trimStart (c :: s) = c :: s := by
  simp [trimStart, h]

theorem head_trimStart {s t : Text} {c : Char} (h : trimStart s = c :: t) :
    isWhitespace c = false := by
  have := List.head?_dropWhile_not isWhitespace s
  rw [show s.dropWhile isWhitespace = c :: t from h] at this
  simpa using this

theorem trimEnd_concat {c : Char} (h : isWhitespace c = false) (s : Text) :
    trimEnd (s ++ [c]) = s ++ [c] :=
  List.rdropWhile_concat_neg _ _ _ (by simp [h])

/-- Trimming the end goes no further than a character that is no white space. -/
theorem trimEnd_append_concat {c : Char} (h : isWhitespace c = false) (s t : Text) :
    trimEnd (s ++ [c] ++ t) = s ++ [c] ++ trimEnd t := by
  induction t using List.reverseRecOn with
  | nil => rw [List.append_nil, trimEnd_concat h, show trimEnd [] = [] from rfl, List.append_nil]
  | append_singleton t d ih =>
    rw [← List.append_assoc]
    cases hd : isWhitespace d with
    | true => rw [trimEnd_append_whitespace _ hd, trimEnd_append_whitespace _ hd, ih]
    | false => rw [trimEnd_concat hd, trimEnd_concat hd, List.append_assoc]

theorem trim_trim (s : Text) : trim (trim s) = trim s := by
  cases hs : trimStart s with
  | nil =>
    have htrim : trim s = [] := by
      rw [trim, hs]
      rfl
    rw [htrim]
    rfl
  | cons c t =>
    have hc := head_trimStart hs
    have hend : trimEnd (c :: t) = c :: trimEnd t := trimEnd_append_concat hc [] t
    have htrim : trim s = c :: trimEnd t := by rw [trim, hs, hend]
    rw [htrim, trim, trimStart_cons hc, ← hend]
    exact List.rdropWhile_idempotent ..

theorem break_append {gap : Text} (hb : Blank gap) (hne : gap ≠ []) (s : Text) :
    Break (gap ++ s) := by
  cases gap with
  | nil => exact absurd rfl hne
  | cons c gap =>
    intro d hd
    obtain rfl : c = d := by simpa using hd
    exact hb c (by simp)

/-- A token ends where it has been dropped. -/
theorem break_dropWhile (s : Text) : Break (s.dropWhile (!isWhitespace ·)) := by
  intro c hc
  have := List.head?_dropWhile_not (!isWhitespace ·) s
  rw [hc] at this
  simpa using this

/-- What begins without white space is not where a token ends. -/
theorem ne_nil_of_break {gap s : Text} (hb : Break (gap ++ s)) {c : Char}
    (hs : s.head? = some c) (hc : isWhitespace c = false) : gap ≠ [] := by
  rintro rfl
  rw [hb c hs] at hc
  cases hc

theorem break_trimEnd {s : Text} (h : Break s) : Break (trimEnd s) := by
  intro c hc
  obtain ⟨t, ht⟩ := List.rdropWhile_prefix isWhitespace s
  apply h c
  rw [← ht, List.head?_append, show (s.rdropWhile isWhitespace).head? = some c from hc]
  rfl

theorem blank_takeWhile (s : Text) : Blank (s.takeWhile isWhitespace) := by
  intro c hc
  exact List.mem_takeWhile_imp hc

/-- Trimming takes white space away at both ends. -/
theorem trim_spec (s : Text) : ∃ a b, s = a ++ (trim s ++ b) ∧ Blank a ∧ Blank b := by
  refine ⟨s.takeWhile isWhitespace, (trimStart s).rtakeWhile isWhitespace, ?_,
    blank_takeWhile s, fun c hc => List.mem_rtakeWhile_imp hc⟩
  rw [trim, trimEnd, trimEndMatches, List.rdropWhile_append_rtakeWhile]
  exact (List.takeWhile_append_dropWhile (p := isWhitespace)).symm

theorem trim_token {t : Text} (h : Token t) : trim t = t := by
  obtain ⟨c, t', ht, hc⟩ := h.head
  obtain ⟨u, d, hu, hd⟩ := h.last
  rw [trim, ht, trimStart_cons hc, ← ht, hu, trimEnd_concat hd]

end Text

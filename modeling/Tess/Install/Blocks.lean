import Tess.Install.Config

/-!
# Adding and removing the managed block

`removeBlock` keeps the lines outside the matched pairs of markers (`removeBlock_eq_outside`), and
`addBlock` appends the one block of its result to a text that ends a line (`addBlock_eq`).

Pairs of markers may enclose one another. Cutting the inner block out makes the markers around it
a block, and the lines between them go as well: only a text without such nesting loses nothing but
its innermost blocks.
-/

namespace Tess

open Brackets Text

namespace Config

/-! ## Removing -/

theorem removeBlock_of_none {content : Text} (h : spliceBlock content = none) :
    removeBlock content = content := by
  rw [removeBlock]
  split
  · rfl
  · rename_i next hs
    simp [h] at hs

theorem removeBlock_of_some {content next : Text} (h : spliceBlock content = some next) :
    removeBlock content = removeBlock next := by
  rw [removeBlock]
  split
  · rename_i hs
    simp [h] at hs
  · rename_i next' hs
    rw [Option.some.inj (h.symm.trans hs)]

theorem removeBlock_of_blockFree {content : Text} (h : BlockFree content) :
    removeBlock content = content := by
  rcases spliceBlock_cases content with ⟨hs, -⟩ | ⟨pre, block, post, hsplit, -, hb, -⟩
  · exact removeBlock_of_none hs
  · obtain ⟨o, mid, c, rfl, ho, hc, -⟩ := hb
    rw [BlockFree, hsplit] at h
    have hblock := (List.pairwise_append.1 (List.pairwise_append.1 h).2.1).1
    exact absurd ⟨ho, hc⟩ ((List.pairwise_cons.1 hblock).1 c (by simp))

theorem kept_sublist (ls : List Text) (kept : ℕ → Bool) :
    ((ls.zipIdx.filter fun line => kept line.2).map Prod.fst).Sublist ls := by
  have hsub := (List.filter_sublist (p := fun line : Text × ℕ => kept line.2)
    (l := ls.zipIdx)).map Prod.fst
  simpa using hsub

/-- Some of the lines of a text are lines. -/
theorem isLines_kept (content : Text) (kept : ℕ → Bool) :
    IsLines (((splitInclusive content).zipIdx.filter fun line => kept line.2).map Prod.fst) :=
  (isLines_splitInclusive content).sublist (kept_sublist _ kept)

theorem outside_sublist (ls : List Text) : (outside lineKind ls).Sublist ls :=
  kept_sublist ls fun k => ¬ Within (pairs lineKind [] ls.zipIdx) k

theorem isLines_outside (content : Text) : IsLines (outside lineKind (splitInclusive content)) :=
  (isLines_splitInclusive content).sublist (outside_sublist _)

/-- Removing keeps the lines outside the pairs of markers. -/
theorem removeBlock_eq_outside (content : Text) :
    removeBlock content = (outside lineKind (splitInclusive content)).flatten := by
  induction hn : content.length using Nat.strong_induction_on generalizing content with
  | _ n ih =>
    rcases spliceBlock_cases content with ⟨hs, hb⟩ | ⟨pre, block, post, hsplit, hpre, hb, hs⟩
    · rw [removeBlock_of_none hs, outside_of_blockless hb, flatten_splitInclusive]
    · have hlines : splitInclusive (pre ++ post).flatten = pre ++ post := by
        apply splitInclusive_flatten
        apply (isLines_splitInclusive content).sublist
        rw [hsplit]
        exact List.Sublist.append_left (List.sublist_append_right ..) _
      rw [removeBlock_of_some hs, ih _ (hn ▸ spliceBlock_lt hs) _ rfl, hlines, hsplit,
        outside_block hpre hb]

theorem splitInclusive_removeBlock (content : Text) :
    splitInclusive (removeBlock content) = outside lineKind (splitInclusive content) := by
  rw [removeBlock_eq_outside, splitInclusive_flatten (isLines_outside content)]

theorem blockFree_removeBlock (content : Text) : BlockFree (removeBlock content) := by
  rw [BlockFree, splitInclusive_removeBlock]
  exact blockless_outside ..

/-- **Removing is one pass of bracket matching.** No text lets the loop run for ever; what it
leaves are the lines outside the matched pairs of markers, without a block; and the two scanners
agree. -/
theorem removeBlock_single_pass :
    WellFounded (fun next content => spliceBlock content = some next) ∧ ∀ content,
      removeBlock content = (outside lineKind (splitInclusive content)).flatten ∧
      markerByteSpan (removeBlock content) = none ∧ hasBlock (removeBlock content) = false ∧
      removeBlock (removeBlock content) = removeBlock content ∧
      (hasBlock content = false → removeBlock content = content) ∧
      (hasBlock content = true ↔ (markerByteSpan content).isSome = true) := by
  constructor
  · exact Subrelation.wf (fun h => spliceBlock_lt h) (measure List.length).wf
  · intro content
    have hfree := blockFree_removeBlock content
    refine ⟨removeBlock_eq_outside content, markerByteSpan_eq_none.2 hfree,
      hasBlock_eq_false.2 hfree, removeBlock_of_blockFree hfree,
      fun h => removeBlock_of_blockFree (hasBlock_eq_false.1 h), ?_⟩
    rw [← not_iff_not, Bool.not_eq_true, hasBlock_eq_false, Bool.not_eq_true,
      Option.isSome_eq_false_iff, Option.isNone_iff_eq_none, markerByteSpan_eq_none]

/-! ## What removing deletes -/

/-- What removing leaves are lines of the text, and those it drops are of innermost blocks. -/
def OnlyInnermostRemoved (content : Text) : Prop :=
  ∃ kept : ℕ → Bool,
    removeBlock content =
      (((splitInclusive content).zipIdx.filter fun line => kept line.2).map Prod.fst).flatten ∧
    ∀ k < (splitInclusive content).length, kept k = false →
      InInnermost lineKind (splitInclusive content) k

/-- Outside the innermost blocks, no closing marker comes after an opening one. -/
def UnnestedMarkers (content : Text) : Prop := Unnested lineKind (splitInclusive content)

theorem OnlyInnermostRemoved.unnestedMarkers {content : Text} (h : OnlyInnermostRemoved content) :
    UnnestedMarkers content := by
  obtain ⟨kept, hremove, hdropped⟩ := h
  refine unnested_of_kept kept ?_ hdropped
  have hfree := blockFree_removeBlock content
  rwa [BlockFree, hremove, splitInclusive_flatten (isLines_kept content kept)] at hfree

/-- **Stray markers**: removing deletes nothing but innermost blocks exactly when no markers
outside them are left to pair. -/
theorem onlyInnermostRemoved_iff (content : Text) :
    OnlyInnermostRemoved content ↔ UnnestedMarkers content := by
  constructor
  · exact OnlyInnermostRemoved.unnestedMarkers
  · intro h
    refine ⟨fun k => ¬ Within (pairs lineKind [] (splitInclusive content).zipIdx) k,
      removeBlock_eq_outside content, fun k _ hk => h.inInnermost ?_⟩
    simpa using hk

/-- A block whose lines enclose another one. -/
def nested : Text :=
  [beginMarker, "auth required pam_unix.so".toList, beginMarker, snippetLine, endMarker, endMarker]
    |>.flatMap (· ++ ['\n'])

/-- The line between the first two markers is in no innermost block, and is deleted. -/
theorem not_onlyInnermostRemoved_nested : ¬ OnlyInnermostRemoved nested := by
  intro h
  have hkinds : ((splitInclusive nested).map lineKind)[0]? = some .opener ∧
      ((splitInclusive nested).map lineKind)[5]? = some .closer := by decide +kernel
  have hinner : ¬ InInnermost lineKind (splitInclusive nested) 0 ∧
      ¬ InInnermost lineKind (splitInclusive nested) 5 := by decide +kernel
  exact hinner.2 (h.unnestedMarkers 0 5 (by decide) hkinds.1 hkinds.2 hinner.1)

/-! ## Adding -/

/-- The text, with a newline at its end unless it is empty. -/
def terminate (s : Text) : Text :=
  if s = [] ∨ s.getLast? = some '\n' then s else s ++ ['\n']

theorem endsLine_terminate (s : Text) : EndsLine (terminate s) := by
  rw [terminate]
  split_ifs with h
  · exact h
  · exact .inr (by simp)

theorem terminate_of_endsLine {s : Text} (h : EndsLine s) : terminate s = s := if_pos h

/-- Ending the last line leaves what does not look at its end. -/
theorem map_terminate {β : Type} {f : Text → β} (hf : ∀ l, f (l ++ ['\n']) = f l) (s : Text) :
    (splitInclusive (terminate s)).map f = (splitInclusive s).map f := by
  rw [terminate]
  split_ifs with h
  · rfl
  · obtain ⟨hne, hlast⟩ := not_or.1 h
    have hlines := isLines_splitInclusive s
    have hs : splitInclusive s ≠ [] := fun h => hne (by rw [← flatten_splitInclusive s, h]; rfl)
    obtain ⟨ls, l, hsplit⟩ := (List.eq_nil_or_concat' _).resolve_left hs
    rw [hsplit] at hlines
    obtain ⟨hterminated, -, hbefore⟩ := List.pairwise_append.1 hlines.2
    have hl : Unterminated l := by
      refine (hlines.1 l (by simp)).resolve_left fun ⟨t, ht, _⟩ => hlast ?_
      rw [← flatten_splitInclusive s, hsplit, ht]
      simp
    have hended : IsLines (ls ++ [l ++ ['\n']]) := by
      have hlt : Terminated (l ++ ['\n']) := ⟨l, rfl, hl.2⟩
      refine ⟨fun l' hl' => ?_, List.pairwise_append.2 ⟨hterminated, by simp, fun l' hl' _ _ =>
        hbefore l' hl' l (by simp)⟩⟩
      rcases List.mem_append.1 hl' with hl' | hl'
      · exact hlines.1 l' (by simp [hl'])
      · rw [List.mem_singleton.1 hl']
        exact .inl hlt
    have hflat : s ++ ['\n'] = (ls ++ [l ++ ['\n']]).flatten := by
      rw [← flatten_splitInclusive s, hsplit]
      simp
    rw [hflat, splitInclusive_flatten hended, hsplit]
    simp [hf]

theorem kinds_terminate (s : Text) :
    (splitInclusive (terminate s)).map lineKind = (splitInclusive s).map lineKind := by
  apply map_terminate
  intro l
  simp only [lineKind, trimEnd_append_whitespace l (show isWhitespace '\n' = true by decide)]

theorem blockFree_terminate {s : Text} : BlockFree (terminate s) ↔ BlockFree s := by
  rw [BlockFree, BlockFree, ← blockless_map, kinds_terminate, blockless_map]

theorem addBlock_eq (content : Text) :
    addBlock content = terminate (removeBlock content) ++ blockText := by
  simp only [addBlock, terminate]
  split_ifs <;> simp_all

/-- The lines of the block: two markers, two comments and the session line. -/
def blockLines : List Text :=
  (beginMarker :: (blockCommentLines ++ [snippetLine, endMarker])).map (· ++ ['\n'])

theorem blockText_lines : splitInclusive blockText = blockLines ∧
    blockLines.map lineKind = [.opener, .plain, .plain, .plain, .closer] ∧
    blockText.getLast? = some '\n' := by
  decide +kernel

theorem block_blockText : Block lineKind (splitInclusive blockText) := by
  obtain ⟨hlines, hkinds, -⟩ := blockText_lines
  simp only [blockLines, List.map_cons, List.map_nil, List.cons_append,
    List.nil_append, blockCommentLines, List.cons.injEq, and_true] at hlines hkinds
  obtain ⟨ho, hplain₁, hplain₂, hplain₃, hc⟩ := hkinds
  refine hlines ▸ ⟨_, [_, _, _], _, rfl, ho, hc, ?_⟩
  intro line hline
  simp only [List.mem_cons, List.not_mem_nil, or_false] at hline
  rcases hline with rfl | rfl | rfl
  · exact hplain₁
  · exact hplain₂
  · exact hplain₃

theorem length_blockText : (splitInclusive blockText).length = 5 := by
  rw [blockText_lines.1]
  rfl

/-- The text that the block is appended to. -/
theorem blockFree_base (content : Text) : BlockFree (terminate (removeBlock content)) :=
  blockFree_terminate.2 (blockFree_removeBlock content)

theorem splitInclusive_addBlock (content : Text) :
    splitInclusive (addBlock content) =
      splitInclusive (terminate (removeBlock content)) ++ splitInclusive blockText := by
  rw [addBlock_eq, splitInclusive_append (endsLine_terminate _)]

theorem removeBlock_addBlock (content : Text) :
    removeBlock (addBlock content) = terminate (removeBlock content) := by
  have hout := outside_block (blockFree_base content) block_blockText []
  rw [List.append_nil, List.append_nil, outside_of_blockless (blockFree_base content)] at hout
  rw [removeBlock_eq_outside, splitInclusive_addBlock, hout, flatten_splitInclusive]

theorem addBlock_addBlock (content : Text) : addBlock (addBlock content) = addBlock content := by
  rw [addBlock_eq, removeBlock_addBlock, terminate_of_endsLine (endsLine_terminate _), addBlock_eq]

theorem removeBlock_addBlock_of_blockFree {content : Text} (hfree : BlockFree content)
    (hend : EndsLine content) : removeBlock (addBlock content) = content := by
  rw [removeBlock_addBlock, removeBlock_of_blockFree hfree, terminate_of_endsLine hend]

theorem hasBlock_addBlock (content : Text) : hasBlock (addBlock content) = true := by
  rw [← Bool.not_eq_false, hasBlock_eq_false, BlockFree, splitInclusive_addBlock]
  intro h
  obtain ⟨o, mid, c, hsplit, ho, hc, -⟩ := block_blockText
  rw [hsplit] at h
  exact (List.pairwise_cons.1 (List.pairwise_append.1 h).2.1).1 c (by simp) ⟨ho, hc⟩

theorem getLast?_addBlock (content : Text) : (addBlock content).getLast? = some '\n' := by
  have hlast := blockText_lines.2.2
  have hne : blockText ≠ [] := fun h => absurd (h ▸ hlast) (by simp)
  rw [addBlock_eq, List.getLast?_append_of_ne_nil _ hne, hlast]

/-- **The laws of adding**, for every text: adding twice is adding once; the result ends a line,
and its one matched pair of markers are the first and the last of its last five lines; removing
gives back the text without its blocks, its last line ended. -/
theorem addBlock_laws (content : Text) :
    addBlock (addBlock content) = addBlock content ∧
    (addBlock content).getLast? = some '\n' ∧
    (∃ base n, addBlock content = base ++ blockText ∧
      (splitInclusive (addBlock content)).length = n + 5 ∧
      pairs lineKind [] (splitInclusive (addBlock content)).zipIdx = [(n, n + 4)] ∧
      markerByteSpan (addBlock content) = some (byteLen base, byteLen (addBlock content))) ∧
    removeBlock (addBlock content) = terminate (removeBlock content) ∧
    (hasBlock content = false → EndsLine content → removeBlock (addBlock content) = content) := by
  have hbase := blockFree_base content
  refine ⟨addBlock_addBlock content, getLast?_addBlock content,
    ⟨_, (splitInclusive (terminate (removeBlock content))).length, addBlock_eq content, ?_, ?_, ?_⟩,
    removeBlock_addBlock content,
    fun h => removeBlock_addBlock_of_blockFree (hasBlock_eq_false.1 h)⟩
  · rw [splitInclusive_addBlock, List.length_append, length_blockText]
  · rw [splitInclusive_addBlock, pairs_block_end hbase block_blockText, length_blockText]
    simp
  · obtain ⟨start, hs⟩ := scan_append_blockless byteLen hbase 0 (splitInclusive blockText)
    rw [markerByteSpan_eq, splitInclusive_addBlock, hs, scan_block byteLen block_blockText,
      ← byteLen_flatten, ← byteLen_flatten, flatten_splitInclusive, flatten_splitInclusive,
      Nat.zero_add, addBlock_eq, byteLen_append]

end Config

end Tess

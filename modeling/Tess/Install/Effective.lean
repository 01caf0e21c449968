import Tess.Install.Blocks
import Tess.Install.Writers

/-!
# The lines that count, before and after an edit

The safety check looks at the effective lines of a stack only (`validateStack_iff`). Adding the block
appends one of them and keeps the others (`effectiveLines_addBlock`), and removing it leaves some of
them. So a stack that an installation has committed is one that an uninstallation may commit.
-/

namespace Tess

open Files Effects Text Brackets

namespace Config

/-- A line, trimmed, is neither blank nor a comment. -/
def Counts (line : Text) : Prop := line ≠ [] ∧ line.head? ≠ some '#'

instance (line : Text) : Decidable (Counts line) := inferInstanceAs (Decidable (_ ∧ _))

/-- The trimmed lines that are neither blank nor comments. -/
def effectiveLines (content : Text) : List Text := ((lines content).map trim).filter Counts

theorem effectiveLines_eq (content : Text) :
    effectiveLines content = ((splitInclusive content).map trim).filter Counts := by
  rw [effectiveLines, lines, List.map_map]
  congr 2
  funext l
  exact trim_stripLineEnding l

theorem offending_trim (raw : Text) : Offending (trim raw) ↔ Offending raw := by
  have hwell : WellFormed (trim raw) ↔ WellFormed raw := by
    simp only [WellFormed, splits_trim]
  rw [Offending, Offending, Effective, Effective, trim_trim, hwell]

/-- The check looks at the effective lines only. -/
theorem validateStack_iff (content : Text) :
    validateStack content = .ok () ↔ ∀ line ∈ effectiveLines content, ¬ Offending line := by
  rw [validateStack, validateFrom_ok, effectiveLines]
  constructor
  · intro h line hline
    obtain ⟨hmem, -⟩ := List.mem_filter.1 hline
    obtain ⟨raw, hraw, rfl⟩ := List.mem_map.1 hmem
    exact fun hoff => h raw hraw ((offending_trim raw).1 hoff)
  · intro h raw hraw hoff
    have hcounts : Counts (trim raw) := ⟨hoff.1.1, hoff.1.2.1⟩
    refine h (trim raw) (List.mem_filter.2 ⟨List.mem_map_of_mem hraw, ?_⟩)
      ((offending_trim raw).2 hoff)
    simpa using hcounts

theorem effectiveLines_addBlock (content : Text) :
    effectiveLines (addBlock content) = effectiveLines (removeBlock content) ++ [snippetLine] := by
  have hblock : ((splitInclusive blockText).map trim).filter Counts = [snippetLine] := by
    decide +kernel
  have hend : ∀ l, trim (l ++ ['\n']) = trim l := fun l => trim_append_whitespace l (by decide)
  rw [effectiveLines_eq, effectiveLines_eq, splitInclusive_addBlock, List.map_append,
    List.filter_append, hblock, map_terminate hend]

theorem effectiveLines_removeBlock (content : Text) :
    (effectiveLines (removeBlock content)).Sublist (effectiveLines content) := by
  rw [effectiveLines_eq, effectiveLines_eq, splitInclusive_removeBlock]
  exact ((outside_sublist _).map trim).filter _

theorem validateStack_addBlock (content : Text) :
    validateStack (addBlock content) = .ok () ↔ validateStack (removeBlock content) = .ok () := by
  have hsnippet : ¬ Offending snippetLine := by
    have hok : validateStack snippetLine = .ok () := by decide +kernel
    have hlines : effectiveLines snippetLine = [snippetLine] := by decide +kernel
    simpa [hlines] using (validateStack_iff snippetLine).1 hok
  rw [validateStack_iff, validateStack_iff, effectiveLines_addBlock]
  simp only [List.mem_append, List.mem_singleton, or_imp, forall_and, forall_eq]
  exact and_iff_left hsnippet

theorem validateStack_removeBlock {content : Text} (h : validateStack content = .ok ()) :
    validateStack (removeBlock content) = .ok () := by
  rw [validateStack_iff] at h ⊢
  intro line hline
  exact h line ((effectiveLines_removeBlock content).subset hline)

end Config

end Tess

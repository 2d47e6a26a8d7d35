import SchemaForge.Generation.Tidy
import SchemaForge.Proofs.Text.Pieces

/-
The lines of a tidied text. Tidying takes the blanks off the end of every line and leaves out empty lines. All that a
line has before these blanks stays a line of the text (`mem_lines_tidyChars`). So a part that begins a line and does not
end in a blank still begins one, whatever stands around it (`exists_line`).
-/

namespace SchemaForge.Generation

open Text

variable {cs line start : List Char} {lines : List (List Char)} {run : Nat}

/-- Every line that is kept is one of the lines, without its blank tail. -/
theorem mem_limitBlankRuns (h : line ∈ limitBlankRuns run lines) : ∃ l ∈ lines, line = dropTail isBlank l := by
  induction lines generalizing run with
  | nil => cases h
  | cons first later ih =>
    have hlater : ∀ {run}, line ∈ limitBlankRuns run later → ∃ l ∈ first :: later, line = dropTail isBlank l := by
      intro run hline
      obtain ⟨l, hl, hkept⟩ := ih hline
      exact ⟨l, List.mem_cons_of_mem _ hl, hkept⟩
    rw [limitBlankRuns] at h
    split at h
    · rename_i hempty
      split at h
      · rcases List.mem_cons.mp h with rfl | h
        · exact ⟨first, List.mem_cons_self .., hempty.symm⟩
        · exact hlater h
      · exact hlater h
    · rcases List.mem_cons.mp h with rfl | h
      · exact ⟨first, List.mem_cons_self .., rfl⟩
      · exact hlater h

theorem mem_limitBlankRuns_of_ne_nil (hline : line ∈ lines) (hkept : dropTail isBlank line ≠ []) :
    dropTail isBlank line ∈ limitBlankRuns run lines := by
  induction lines generalizing run with
  | nil => cases hline
  | cons first later ih =>
    rw [limitBlankRuns]
    rcases List.mem_cons.mp hline with rfl | hline
    · split
      · rename_i hempty
        exact absurd hempty hkept
      · exact List.mem_cons_self ..
    · split
      · split
        · exact List.mem_cons_of_mem _ (ih hline)
        · exact ih hline
      · exact List.mem_cons_of_mem _ (ih hline)

theorem mem_lines_tidyChars (hline : line ∈ splitAt '\n' cs) (hkept : dropTail isBlank line ≠ []) :
    dropTail isBlank line ∈ splitAt '\n' (tidyChars cs) := by
  have hmem : dropTail isBlank line ∈ limitBlankRuns 0 (splitAt '\n' cs) := mem_limitBlankRuns_of_ne_nil hline hkept
  have hcut : ∀ l ∈ limitBlankRuns 0 (splitAt '\n' cs), '\n' ∉ l := by
    intro l hl hnewline
    obtain ⟨l', hl', rfl⟩ := mem_limitBlankRuns hl
    exact absurd (not_mem_of_mem_splitWhere hl' ((dropTail_isPrefix _ _).mem hnewline)) (by decide)
  rw [← splitAt_joinWith (List.ne_nil_of_mem hmem) hcut] at hmem
  exact (mem_splitWhere_append hkept (by simp)).mpr ((mem_splitWhere_dropEnds hkept).mpr hmem)

theorem toList_tidy (raw : String) : (tidy raw).toList = tidyChars raw.toList := String.toList_ofList

/-- What a line begins with stays where it is. What follows is cut off at the end of the line, or at the blanks before
    it. -/
theorem exists_line (before rest : List Char) (hstart : '\n' ∉ start) (hkept : dropTail isBlank start = start)
    (hne : start ≠ []) :
    ∃ after, start ++ after ∈ splitAt '\n' (tidyChars (before ++ '\n' :: (start ++ rest))) ∧ after <+: rest ∧
      '\n' ∉ after := by
  let goesOn : Char → Bool := fun c => !(c == '\n')
  have hcut : (start ++ rest).takeWhile goesOn = start ++ rest.takeWhile goesOn := by
    refine List.takeWhile_append_of_pos fun c hc => ?_
    have hc' : c ≠ '\n' := fun h => hstart (h ▸ hc)
    simpa [goesOn] using hc'
  have hline : start ++ rest.takeWhile goesOn ∈ splitAt '\n' (before ++ '\n' :: (start ++ rest)) := by
    obtain ⟨later, hpieces⟩ : ∃ later, splitAt '\n' (start ++ rest) = (start ++ rest).takeWhile goesOn :: later :=
      splitWhere_eq_cons (· == '\n') (start ++ rest)
    rw [splitAt_append_cons, hpieces, hcut]
    exact List.mem_append_right _ (List.mem_cons_self ..)
  have htrimmed := dropTail_append hkept (rest.takeWhile goesOn)
  have hleads := dropTail_isPrefix isBlank (rest.takeWhile goesOn)
  have hleft : start ++ dropTail isBlank (rest.takeWhile goesOn) ≠ [] := by
    intro hnil
    exact hne (List.append_eq_nil_iff.mp hnil).1
  refine ⟨_, ?_, hleads.trans (List.takeWhile_prefix goesOn), fun h => ?_⟩
  · rw [← htrimmed] at hleft ⊢
    exact mem_lines_tidyChars hline hleft
  · have hnewline : goesOn '\n' = true := List.all_eq_true.mp List.all_takeWhile _ (hleads.mem h)
    cases hnewline

end SchemaForge.Generation

import SchemaForge.Proofs.Text.Pieces
import SchemaForge.Text.Blank

/-
Lists with commas between their words. Reading takes a text of blanks for no words, and cuts any other text at its
commas; blanks around a word do not count. However the words are spaced, the list that is read is the one that was
written (`commaList_intercalate`), and no comma can be missing or stand behind the last word.
-/

namespace SchemaForge.Text

/-- The words of a list. -/
def commaList (cs : List Char) : List (List Char) :=
  if cs.all isBlank then [] else (splitAt ',' cs).map (dropEnds isBlank)

/-- A word of a list: not empty, and without blanks and commas. -/
structure ListWord (word : List Char) : Prop where
  ne_nil : word ≠ []
  solid : ∀ c ∈ word, isBlank c = false
  single : ',' ∉ word

variable {before after gap word : List Char} {words : List (List Char)}

theorem comma_not_mem_of_blank (h : ∀ c ∈ gap, isBlank c = true) : ',' ∉ gap := by
  intro hmem
  have := h _ hmem
  revert this
  decide

/-- Blanks around a word are trimmed, and nothing of the word is. -/
theorem dropEnds_around (hbefore : ∀ c ∈ before, isBlank c = true) (hafter : ∀ c ∈ after, isBlank c = true)
    (hword : ListWord word) : dropEnds isBlank (before ++ word ++ after) = word := by
  cases word with
  | nil => exact absurd rfl hword.ne_nil
  | cons c rest =>
    have hfirst : isBlank c = false := hword.solid c (List.mem_cons_self ..)
    have hnone : dropTail isBlank after = [] := dropTail_eq_nil_iff.mpr hafter
    have hfront : (before ++ (c :: rest) ++ after).dropWhile isBlank = (c :: rest) ++ after := by
      rw [List.append_assoc, List.dropWhile_append_of_pos hbefore, List.cons_append,
        List.dropWhile_cons_of_neg (Bool.eq_false_iff.mp hfirst)]
    rw [dropEnds, hfront, dropTail_append (dropTail_of_forall hword.solid), hnone, List.append_nil]

theorem map_dropEnds_splitAt (hne : words ≠ []) (hwords : ∀ w ∈ words, ListWord w)
    (hbefore : ∀ c ∈ before, isBlank c = true) (hgap : ∀ c ∈ gap, isBlank c = true)
    (hafter : ∀ c ∈ after, isBlank c = true) :
    (splitAt ',' (before ++ (',' :: gap).intercalate words ++ after)).map (dropEnds isBlank) = words := by
  induction words generalizing before with
  | nil => exact absurd rfl hne
  | cons w words ih =>
    obtain ⟨hw, hwords⟩ := List.forall_mem_cons.mp hwords
    have hpiece : ',' ∉ before ++ w := fun hc =>
      (List.mem_append.mp hc).elim (comma_not_mem_of_blank hbefore) hw.single
    cases words with
    | nil =>
      have hwhole : ',' ∉ before ++ w ++ after := fun hc =>
        (List.mem_append.mp hc).elim hpiece (comma_not_mem_of_blank hafter)
      rw [List.intercalate_singleton, splitAt_of_not_mem hwhole, List.map_singleton, dropEnds_around hbefore hafter hw]
    | cons next words =>
      have hcut : before ++ (',' :: gap).intercalate (w :: next :: words) ++ after =
          (before ++ w) ++ ',' :: (gap ++ (',' :: gap).intercalate (next :: words) ++ after) := by
        rw [List.intercalate_cons_cons]
        simp only [List.append_assoc, List.cons_append]
      have hfirst : dropEnds isBlank (before ++ w) = w := by
        have hnone : ∀ c ∈ ([] : List Char), isBlank c = true := fun c hc => by cases hc
        have := dropEnds_around hbefore hnone hw
        rwa [List.append_nil] at this
      rw [hcut, splitAt_append_cons, splitAt_of_not_mem hpiece, List.map_append, List.map_singleton, hfirst,
        ih (List.cons_ne_nil next words) hwords hgap, List.singleton_append]

/-- A list is read as the words it was written with. -/
theorem commaList_intercalate (hwords : ∀ w ∈ words, ListWord w) (hbefore : ∀ c ∈ before, isBlank c = true)
    (hgap : ∀ c ∈ gap, isBlank c = true) (hafter : ∀ c ∈ after, isBlank c = true) :
    commaList (before ++ (',' :: gap).intercalate words ++ after) = words := by
  unfold commaList
  cases words with
  | nil =>
    refine if_pos (List.all_eq_true.mpr fun c hc => ?_)
    rw [List.intercalate_nil, List.append_nil] at hc
    exact (List.mem_append.mp hc).elim (hbefore c) (hafter c)
  | cons w words =>
    obtain ⟨c, hc⟩ := List.exists_mem_of_ne_nil w (hwords w (List.mem_cons_self ..)).ne_nil
    have hsome : ¬ (before ++ (',' :: gap).intercalate (w :: words) ++ after).all isBlank = true := by
      intro hall
      have hmem : c ∈ (',' :: gap).intercalate (w :: words) := by
        cases words with
        | nil => rwa [List.intercalate_singleton]
        | cons next words =>
          rw [List.intercalate_cons_cons]
          exact List.mem_append_left _ (List.mem_append_left _ hc)
      have hblank := List.all_eq_true.mp hall c (List.mem_append_left _ (List.mem_append_right _ hmem))
      rw [(hwords w (List.mem_cons_self ..)).solid c hc] at hblank
      cases hblank
    rw [if_neg hsome, map_dropEnds_splitAt (List.cons_ne_nil w words) hwords hbefore hgap hafter]

end SchemaForge.Text

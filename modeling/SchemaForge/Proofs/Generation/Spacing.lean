import SchemaForge.Proofs.Generation.Lines

/-
The spacing of a tidied text. Of a text, tidying keeps the lines that are not blank, each without the blanks at its end
and with the number of blank lines that follow it (`keptLines`). It writes them one below the other, with as many empty
lines between two of them as there were blank ones, but two at most (`spaced`), and one line end behind the last.

The count of blank lines that runs along the text starts again at every line that is kept, so each gap is cut by itself
(`limitBlankRuns_eq`). Where the lines are joined, empty ones are line ends alone, and those before the first line and
behind the last are trimmed (`dropEnds_joinWith`). Lines that are kept are kept again with the gaps they were given, so
a tidied text stays as it is (`tidy_spacing`).
-/

namespace SchemaForge.Generation

open Text

/-- A line that is kept, and how many blank lines follow it. -/
structure KeptLine where
  text : List Char
  after : Nat

/-- A line of blanks, or an empty one. -/
def isBlankLine (line : List Char) : Bool := line.all isBlank

def keptLines : List (List Char) → List KeptLine
  | [] => []
  | line :: rest =>
    if isBlankLine line then keptLines rest
    else ⟨dropTail isBlank line, (rest.takeWhile isBlankLine).length⟩ :: keptLines rest

/-- The lines with their gaps between them, and none behind the last. -/
def spaced : List KeptLine → List (List Char)
  | [] => []
  | [line] => [line.text]
  | line :: next :: rest => line.text :: (List.replicate (min line.after 2) [] ++ spaced (next :: rest))

/-- The lines with a gap behind each. -/
def gapped (lines : List KeptLine) : List (List Char) :=
  lines.flatMap (fun line => line.text :: List.replicate (min line.after 2) [])

variable {lines : List (List Char)} {line : List Char} {k : KeptLine} {ks : List KeptLine}

theorem spaced_cons (hne : ks ≠ []) :
    spaced (k :: ks) = k.text :: (List.replicate (min k.after 2) [] ++ spaced ks) := by
  cases ks with
  | nil => exact absurd rfl hne
  | cons next ks => rfl

/-! ## Which lines are kept -/

theorem isBlankLine_iff : isBlankLine line = true ↔ dropTail isBlank line = [] := by
  rw [dropTail_eq_nil_iff, isBlankLine, List.all_eq_true]

theorem limitBlankRuns_eq (run : Nat) (lines : List (List Char)) :
    limitBlankRuns run lines =
      List.replicate (min (lines.takeWhile isBlankLine).length (2 - run)) [] ++ gapped (keptLines lines) := by
  induction lines generalizing run with
  | nil =>
    rw [List.takeWhile_nil, List.length_nil, Nat.zero_min]
    rfl
  | cons line rest ih =>
    rw [limitBlankRuns, keptLines]
    by_cases hblank : isBlankLine line = true
    · rw [isBlankLine_iff.mp hblank, if_pos hblank, List.takeWhile_cons_of_pos hblank, List.length_cons]
      simp only
      split
      · rename_i hrun
        have hcount : min ((rest.takeWhile isBlankLine).length + 1) (2 - run) =
            min (rest.takeWhile isBlankLine).length (2 - (run + 1)) + 1 := by omega
        rw [ih, hcount, List.replicate_succ, List.cons_append]
      · have hcount : min ((rest.takeWhile isBlankLine).length + 1) (2 - run) =
            min (rest.takeWhile isBlankLine).length (2 - (run + 1)) := by omega
        rw [ih, hcount]
    · have hkept : dropTail isBlank line ≠ [] := fun h => hblank (isBlankLine_iff.mpr h)
      rw [if_neg hblank, List.takeWhile_cons_of_neg hblank, List.length_nil, Nat.zero_min]
      split
      · rename_i hempty
        exact absurd hempty hkept
      · rw [ih]
        rfl

theorem texts_keptLines (lines : List (List Char)) :
    (keptLines lines).map (·.text) = (lines.filter (fun line => !isBlankLine line)).map (dropTail isBlank) := by
  induction lines with
  | nil => rfl
  | cons line rest ih =>
    rw [keptLines]
    by_cases hblank : isBlankLine line = true
    · rw [if_pos hblank, ih, List.filter_cons_of_neg (by simp [hblank])]
    · rw [if_neg hblank, List.map_cons, ih, List.filter_cons_of_pos (by simp [hblank]), List.map_cons]

/-- A line as it is written: no blank at its end, and no line end in it. -/
structure KeptLine.Proper (k : KeptLine) : Prop where
  ne_nil : k.text ≠ []
  trimmed : dropTail isBlank k.text = k.text
  single : '\n' ∉ k.text

theorem proper_keptLines (cs : List Char) : ∀ k ∈ keptLines (splitAt '\n' cs), k.Proper := by
  intro k hk
  have htext : k.text ∈ (keptLines (splitAt '\n' cs)).map (·.text) := List.mem_map_of_mem hk
  rw [texts_keptLines] at htext
  obtain ⟨line, hline, heq⟩ := List.mem_map.mp htext
  obtain ⟨hmem, hblank⟩ := List.mem_filter.mp hline
  have hblank : ¬ isBlankLine line = true := by simpa using hblank
  refine ⟨fun hnil => hblank (isBlankLine_iff.mpr (heq.trans hnil)), ?_, fun hnewline => ?_⟩
  · rw [← heq, dropTail_dropTail]
  · cases not_mem_of_mem_splitWhere hmem ((dropTail_isPrefix isBlank line).mem (heq ▸ hnewline))

/-! ## How they are written -/

theorem joinWith_gap_end (text : List Char) (n : Nat) :
    joinWith ['\n'] (text :: List.replicate n []) = text ++ List.replicate n '\n' := by
  induction n generalizing text with
  | zero => simp [joinWith]
  | succ n ih =>
    rw [List.replicate_succ, joinWith_cons (List.cons_ne_nil _ _), ih, List.replicate_succ]
    simp

theorem joinWith_gap (text : List Char) (n : Nat) (hne : lines ≠ []) :
    joinWith ['\n'] (text :: (List.replicate n [] ++ lines)) =
      text ++ List.replicate (n + 1) '\n' ++ joinWith ['\n'] lines := by
  induction n generalizing text with
  | zero => simp [joinWith_cons hne]
  | succ n ih =>
    rw [List.replicate_succ, List.cons_append, joinWith_cons (List.cons_ne_nil _ _), ih]
    simp [List.replicate_succ]

theorem gapped_cons (k : KeptLine) (ks : List KeptLine) :
    gapped (k :: ks) = k.text :: (List.replicate (min k.after 2) [] ++ gapped ks) := by
  rw [gapped, List.flatMap_cons, List.cons_append]
  rfl

/-- A joined text begins as its first line does. -/
theorem joinWith_eq_cons (hk : k.Proper) (rest : List (List Char)) :
    ∃ c cs, joinWith ['\n'] (k.text :: rest) = c :: cs ∧ c ≠ '\n' := by
  cases htext : k.text with
  | nil => exact absurd htext hk.ne_nil
  | cons c text =>
    refine ⟨c, _, joinWith_cons_cons _ _ _, ?_⟩
    rintro rfl
    exact hk.single (htext ▸ List.mem_cons_self ..)

theorem spaced_eq_cons (k : KeptLine) (ks : List KeptLine) : ∃ rest, spaced (k :: ks) = k.text :: rest := by
  cases ks with
  | nil => exact ⟨_, rfl⟩
  | cons next ks => exact ⟨_, rfl⟩

/-- The gap behind the last line is trimmed. -/
theorem dropTail_joinWith_gapped (hproper : ∀ k ∈ ks, k.Proper) :
    dropTail (· == '\n') (joinWith ['\n'] (gapped ks)) = joinWith ['\n'] (spaced ks) := by
  induction ks with
  | nil => rfl
  | cons k ks ih =>
    obtain ⟨hk, hks⟩ := List.forall_mem_cons.mp hproper
    rw [gapped_cons]
    cases ks with
    | nil =>
      have htext : dropTail (· == '\n') k.text = k.text := by
        refine dropTail_of_forall fun c hc => ?_
        rw [beq_eq_false_iff_ne]
        rintro rfl
        exact hk.single hc
      have hgap : dropTail (· == '\n') (List.replicate (min k.after 2) '\n') = [] :=
        dropTail_eq_nil_iff.mpr fun c hc => beq_iff_eq.mpr (List.eq_of_mem_replicate hc)
      show dropTail _ (joinWith _ (k.text :: (List.replicate _ [] ++ []))) = k.text
      rw [List.append_nil, joinWith_gap_end, dropTail_append htext, hgap, List.append_nil]
    | cons next ks =>
      have hrest : joinWith ['\n'] (spaced (next :: ks)) ≠ [] := by
        obtain ⟨rest, hspaced⟩ := spaced_eq_cons next ks
        obtain ⟨c, cs, hjoined, -⟩ := joinWith_eq_cons (hks next (List.mem_cons_self ..)) rest
        rw [hspaced, hjoined]
        exact List.cons_ne_nil c cs
      have hspaced : spaced (next :: ks) ≠ [] := by
        intro hnil
        rw [hnil] at hrest
        exact hrest rfl
      have ih := ih hks
      rw [joinWith_gap _ _ (gapped_cons next ks ▸ List.cons_ne_nil _ _), dropTail_append_of_ne_nil (ih ▸ hrest), ih,
        spaced_cons (List.cons_ne_nil next ks), joinWith_gap _ _ hspaced]

/-- And so are the empty lines before the first one. -/
theorem dropEnds_joinWith (n : Nat) (hproper : ∀ k ∈ ks, k.Proper) :
    dropEnds (· == '\n') (joinWith ['\n'] (List.replicate n [] ++ gapped ks)) = joinWith ['\n'] (spaced ks) := by
  cases ks with
  | nil =>
    have hends : ∀ c ∈ joinWith ['\n'] (List.replicate n [] ++ gapped []), (c == '\n') = true := by
      intro c hc
      rcases mem_joinWith hc with hc | ⟨part, hpart, hc⟩
      · exact beq_iff_eq.mpr (List.mem_singleton.mp hc)
      · rw [gapped, List.flatMap_nil, List.append_nil] at hpart
        rw [List.eq_of_mem_replicate hpart] at hc
        cases hc
    rw [dropEnds, List.dropWhile_eq_nil_iff.mpr hends]
    rfl
  | cons k ks =>
    have hgapped : gapped (k :: ks) ≠ [] := gapped_cons k ks ▸ List.cons_ne_nil _ _
    have hjoined : joinWith ['\n'] (List.replicate n [] ++ gapped (k :: ks)) =
        List.replicate n '\n' ++ joinWith ['\n'] (gapped (k :: ks)) := by
      cases n with
      | zero => rfl
      | succ n => exact joinWith_gap [] n hgapped
    obtain ⟨c, cs, hfirst, hc⟩ := joinWith_eq_cons (hproper k (List.mem_cons_self ..))
      (List.replicate (min k.after 2) [] ++ gapped ks)
    rw [← gapped_cons] at hfirst
    have hfront : (joinWith ['\n'] (gapped (k :: ks))).dropWhile (· == '\n') = joinWith ['\n'] (gapped (k :: ks)) := by
      rw [hfirst]
      exact List.dropWhile_cons_of_neg (by simpa using hc)
    rw [dropEnds, hjoined, List.dropWhile_append_of_pos fun c hc => beq_iff_eq.mpr (List.eq_of_mem_replicate hc),
      hfront, dropTail_joinWith_gapped hproper]

theorem tidyChars_eq (cs : List Char) :
    tidyChars cs = joinWith ['\n'] (spaced (keptLines (splitAt '\n' cs))) ++ ['\n'] := by
  rw [tidyChars, limitBlankRuns_eq, dropEnds_joinWith _ (proper_keptLines cs)]

/-! ## The lines of a tidied text -/

theorem mem_spaced (h : line ∈ spaced ks) : line = [] ∨ ∃ k ∈ ks, line = k.text := by
  induction ks with
  | nil => cases h
  | cons k ks ih =>
    have hfirst : k.text = [] ∨ ∃ k' ∈ k :: ks, k.text = k'.text := Or.inr ⟨k, List.mem_cons_self .., rfl⟩
    cases ks with
    | nil => exact List.mem_singleton.mp h ▸ hfirst
    | cons next ks =>
      rw [spaced_cons (List.cons_ne_nil next ks), List.mem_cons, List.mem_append] at h
      rcases h with rfl | hgap | hrest
      · exact hfirst
      · exact Or.inl (List.eq_of_mem_replicate hgap)
      · exact (ih hrest).imp_right fun ⟨k', hk', hline⟩ => ⟨k', List.mem_cons_of_mem _ hk', hline⟩

theorem not_isBlankLine_of_proper (hk : k.Proper) : isBlankLine k.text = false := by
  rw [Bool.eq_false_iff, Ne, isBlankLine_iff, hk.trimmed]
  exact hk.ne_nil

theorem filter_spaced (hproper : ∀ k ∈ ks, k.Proper) :
    (spaced ks).filter (fun line => !isBlankLine line) = ks.map (·.text) := by
  induction ks with
  | nil => rfl
  | cons k ks ih =>
    obtain ⟨hk, hks⟩ := List.forall_mem_cons.mp hproper
    have hkept : (!isBlankLine k.text) = true := by rw [not_isBlankLine_of_proper hk, Bool.not_false]
    cases ks with
    | nil => exact List.filter_cons_of_pos hkept
    | cons next ks =>
      have hgap : (List.replicate (min k.after 2) []).filter (fun line => !isBlankLine line) = [] :=
        List.filter_replicate_of_neg (by decide)
      rw [spaced_cons (List.cons_ne_nil next ks), List.filter_cons_of_pos (p := fun line => !isBlankLine line) hkept,
        List.filter_append, hgap, List.nil_append, ih hks, List.map_cons (l := next :: ks)]

/-- Behind the last line end stands one empty piece more. -/
theorem splitAt_tidyChars (cs : List Char) :
    ∃ front, splitAt '\n' (tidyChars cs) = front ++ [[]] ∧
      (front = spaced (keptLines (splitAt '\n' cs)) ∨ front = [[]] ∧ keptLines (splitAt '\n' cs) = []) := by
  have hproper := proper_keptLines cs
  refine ⟨splitAt '\n' (joinWith ['\n'] (spaced (keptLines (splitAt '\n' cs)))), ?_, ?_⟩
  · rw [tidyChars_eq]
    exact splitAt_append_cons '\n' _ []
  · cases hks : keptLines (splitAt '\n' cs) with
    | nil => exact Or.inr ⟨rfl, rfl⟩
    | cons k ks =>
      rw [hks] at hproper
      obtain ⟨rest, hspaced⟩ := spaced_eq_cons k ks
      refine Or.inl (splitAt_joinWith (hspaced ▸ List.cons_ne_nil _ _) fun line hline => ?_)
      rcases mem_spaced hline with rfl | ⟨k', hk', rfl⟩
      · exact List.not_mem_nil
      · exact (hproper k' hk').single

theorem keptLines_gap (n : Nat) (lines : List (List Char)) :
    keptLines (List.replicate n [] ++ lines) = keptLines lines := by
  induction n with
  | zero => rfl
  | succ n ih => exact ih

theorem takeWhile_gap (n : Nat) (hkept : isBlankLine line = false) :
    ((List.replicate n [] ++ line :: lines).takeWhile isBlankLine).length = n := by
  rw [List.takeWhile_append_of_pos fun gap hgap => by rw [List.eq_of_mem_replicate hgap]; rfl,
    List.takeWhile_cons_of_neg (Bool.eq_false_iff.mp hkept), List.append_nil, List.length_replicate]

/-- Lines that were written with their gaps are kept and written the same way again. -/
theorem spaced_keptLines_spaced (hne : ks ≠ []) (hproper : ∀ k ∈ ks, k.Proper) :
    keptLines (spaced ks ++ [[]]) ≠ [] ∧ spaced (keptLines (spaced ks ++ [[]])) = spaced ks := by
  induction ks with
  | nil => exact absurd rfl hne
  | cons k ks ih =>
    obtain ⟨hk, hks⟩ := List.forall_mem_cons.mp hproper
    have hkept := not_isBlankLine_of_proper hk
    have hagain : ∀ later, keptLines (k.text :: later) =
        ⟨k.text, (later.takeWhile isBlankLine).length⟩ :: keptLines later := by
      intro later
      rw [keptLines, if_neg (Bool.eq_false_iff.mp hkept), hk.trimmed]
    cases ks with
    | nil =>
      show keptLines (k.text :: [[]]) ≠ [] ∧ spaced (keptLines (k.text :: [[]])) = [k.text]
      rw [hagain]
      exact ⟨List.cons_ne_nil _ _, rfl⟩
    | cons next ks =>
      obtain ⟨hsome, hsame⟩ := ih (List.cons_ne_nil next ks) hks
      obtain ⟨rest, hspaced⟩ := spaced_eq_cons next ks
      have hgap : ((List.replicate (min k.after 2) [] ++ (spaced (next :: ks) ++ [[]])).takeWhile isBlankLine).length =
          min k.after 2 := by
        rw [hspaced]
        exact takeWhile_gap _ (not_isBlankLine_of_proper (hks next (List.mem_cons_self ..)))
      rw [spaced_cons (List.cons_ne_nil next ks), List.cons_append, List.append_assoc, hagain, hgap, keptLines_gap,
        spaced_cons hsome, hsame, Nat.min_assoc, Nat.min_self]
      exact ⟨List.cons_ne_nil _ _, rfl⟩

theorem tidyChars_tidyChars (cs : List Char) : tidyChars (tidyChars cs) = tidyChars cs := by
  obtain ⟨front, hlines, hfront⟩ := splitAt_tidyChars cs
  have hsame : spaced (keptLines (front ++ [[]])) = spaced (keptLines (splitAt '\n' cs)) := by
    by_cases hnone : keptLines (splitAt '\n' cs) = []
    · have hempty : front = [] ∨ front = [[]] := hfront.imp (fun h => h.trans (congrArg spaced hnone)) And.left
      rw [hnone]
      rcases hempty with rfl | rfl <;> rfl
    · rw [hfront.resolve_right fun h => hnone h.2]
      exact (spaced_keptLines_spaced hnone (proper_keptLines cs)).2
  rw [tidyChars_eq (tidyChars cs), hlines, hsame, tidyChars_eq]

/-- Tidying keeps the lines that are not blank, in order and without the blanks at their ends. Between two of them it
    leaves as many empty lines as there were blank ones, but two at most, and none before the first or behind the last,
    which ends with the only line end at the end of the text. So no line ends in a blank, and a tidied text stays as it
    is. -/
theorem tidy_spacing (s : String) :
    (tidy s).toList = joinWith ['\n'] (spaced (keptLines (splitAt '\n' s.toList))) ++ ['\n'] ∧
      (splitAt '\n' (tidy s).toList).filter (fun line => !isBlankLine line) =
        ((splitAt '\n' s.toList).filter (fun line => !isBlankLine line)).map (dropTail isBlank) ∧
      (∀ line ∈ splitAt '\n' (tidy s).toList, ∀ c ∈ line.getLast?, isBlank c = false) ∧ tidy (tidy s) = tidy s := by
  obtain ⟨front, hlines, hfront⟩ := splitAt_tidyChars s.toList
  have hproper := proper_keptLines s.toList
  rw [toList_tidy]
  refine ⟨tidyChars_eq _, ?_, fun line hline c hc => ?_, ?_⟩
  · rw [hlines, List.filter_append, ← texts_keptLines]
    rcases hfront with rfl | ⟨rfl, hnone⟩
    · rw [filter_spaced hproper]
      exact List.append_nil _
    · rw [hnone]
      rfl
  · have hkept : line = [] ∨ ∃ k ∈ keptLines (splitAt '\n' s.toList), line = k.text := by
      rw [hlines, List.mem_append, List.mem_singleton] at hline
      rcases hline with hline | rfl
      · rcases hfront with rfl | ⟨rfl, -⟩
        · exact mem_spaced hline
        · exact Or.inl (List.mem_singleton.mp hline)
      · exact Or.inl rfl
    rcases hkept with rfl | ⟨k, hk, rfl⟩
    · cases hc
    · obtain ⟨before, hbefore⟩ := List.getLast?_eq_some_iff.mp hc
      exact last_dropTail ((hproper k hk).trimmed.trans hbefore)
  · rw [tidy, toList_tidy, tidyChars_tidyChars]
    rfl

example : tidy "\n\t\na \n\n \n\u2003\n  b\n\nc\u3000\n \n" = "a\n\n\n  b\n\nc\n" := by decide

end SchemaForge.Generation

import Mathlib.Data.List.DropRight
import SchemaForge.Proofs.Naming.Cuts
import SchemaForge.Proofs.Naming.Styles

/-
A name in words. Making one underscore of many and trimming leaves the pieces of a text that are not empty
(`dropEnds_collapse_joinWith`). So a name in words is its pieces in lower case with an underscore between them
(`snakeChars_eq_joinWith`), its pieces are again those it was made of (`lowerPieces_snakeChars`), and it stays as it is
when it is converted once more (`snakeChars_by_cuts`).
-/

namespace SchemaForge.Naming

open Text

/-! ## Collapsing and trimming -/

section Collapsing

variable {cs w : List Char} {parts : List (List Char)}

theorem collapse_underscore_cons (cs : List Char) :
    collapse ('_' :: cs) = '_' :: (collapse cs).dropWhile (· == '_') := by
  induction cs with
  | nil => rfl
  | cons c cs ih =>
    rw [collapse_cons]
    by_cases hc : c = '_'
    · rw [hc, if_pos (by rfl), ih, List.dropWhile_cons_of_pos (by rfl), List.dropWhile_idempotent]
    · have hhead : ((c :: cs).head? == some '_') = false := by simpa using hc
      rw [hhead, Bool.and_false, if_neg Bool.false_ne_true, collapse_cons, beq_eq_false_iff_ne.mpr hc, Bool.false_and,
        if_neg Bool.false_ne_true, List.dropWhile_cons_of_neg (by simpa using hc)]

theorem collapse_append (hw : '_' ∉ w) (cs : List Char) : collapse (w ++ cs) = w ++ collapse cs := by
  induction w with
  | nil => rfl
  | cons c w ih =>
    obtain ⟨hc, hw⟩ := List.ne_and_not_mem_of_not_mem_cons hw
    rw [List.cons_append, collapse_cons, beq_eq_false_iff_ne.mpr (Ne.symm hc), Bool.false_and,
      if_neg Bool.false_ne_true, ih hw]
    rfl

theorem dropEnds_append_of_not_mem (hne : w ≠ []) (hw : '_' ∉ w) (cs : List Char) :
    dropEnds (· == '_') (w ++ cs) = w ++ dropTail (· == '_') cs := by
  have hplain : ∀ c ∈ w, (c == '_') = false := by
    intro c hc
    rw [beq_eq_false_iff_ne]
    rintro rfl
    exact hw hc
  have hfront : (w ++ cs).dropWhile (· == '_') = w ++ cs := by
    cases w with
    | nil => exact absurd rfl hne
    | cons c w => exact List.dropWhile_cons_of_neg (Bool.eq_false_iff.mp (hplain c (List.mem_cons_self ..)))
  rw [dropEnds, hfront, dropTail_append (dropTail_of_forall hplain)]

theorem dropEnds_collapse_joinWith (hparts : ∀ part ∈ parts, '_' ∉ part) :
    dropEnds (· == '_') (collapse (joinWith ['_'] parts)) = joinWith ['_'] (parts.filter (fun w => !w.isEmpty)) := by
  induction parts with
  | nil => rfl
  | cons part parts ih =>
    obtain ⟨hpart, hparts⟩ := List.forall_mem_cons.mp hparts
    have ih := ih hparts
    cases part with
    | nil =>
      rw [List.filter_cons_of_neg (by simp), ← ih]
      cases parts with
      | nil => rfl
      | cons next parts =>
        show dropEnds _ (collapse ('_' :: joinWith ['_'] (next :: parts))) = _
        rw [collapse_underscore_cons, dropEnds, List.dropWhile_cons_of_pos (by rfl), List.dropWhile_idempotent]
        rfl
    | cons c part =>
      rw [List.filter_cons_of_pos (by simp)]
      cases parts with
      | nil =>
        show dropEnds _ (collapse (c :: part)) = c :: part
        rw [← List.append_nil (c :: part), collapse_append hpart,
          dropEnds_append_of_not_mem (List.cons_ne_nil c part) hpart]
        rfl
      | cons next parts =>
        have hrest : dropTail (· == '_') ((collapse (joinWith ['_'] (next :: parts))).dropWhile (· == '_')) =
            joinWith ['_'] ((next :: parts).filter (fun w => !w.isEmpty)) := ih
        rw [joinWith_cons (List.cons_ne_nil next parts), List.append_assoc, collapse_append hpart,
          List.singleton_append, collapse_underscore_cons,
          dropEnds_append_of_not_mem (List.cons_ne_nil c part) hpart, dropTail_cons, hrest]
        cases hwords : (next :: parts).filter (fun w => !w.isEmpty) with
        | nil => simp [joinWith]
        | cons v vs =>
          have hv : v ∈ (next :: parts).filter (fun w => !w.isEmpty) := hwords ▸ List.mem_cons_self ..
          cases v with
          | nil => simp at hv
          | cons d v =>
            rw [joinWith_cons (List.cons_ne_nil _ _), joinWith_cons_cons, List.append_assoc]
            rfl

end Collapsing

/-! ## A name in words -/

section Words

variable {cs : List Char}

/-- The pieces of a name that are not empty, in lower case. -/
def lowerPieces (cs : List Char) : List (List Char) := ((pieces cs).filter (fun w => !w.isEmpty)).map lower

theorem isLetter_of_mem_pieces (h : ∀ c ∈ cs, isNameChar c = true) {w : List Char} (hw : w ∈ pieces cs) {c : Char}
    (hc : c ∈ w) : isNameChar c = true ∧ isEdge c = false := by
  rw [← splitAt_cut] at hw
  have hplain := not_mem_of_mem_splitWhere hw hc
  have hcut := (mem_splitWhere (p := (· == '_')) hplain).mp ⟨w, hw, hc⟩
  rcases mem_cut h hcut with rfl | hletter
  · cases hplain
  · exact hletter

theorem lower_of_mem_pieces (h : ∀ c ∈ cs, isNameChar c = true) {w : List Char} (hw : w ∈ pieces cs) :
    lower w = w.map Char.toLower :=
  lower_of_ascii fun _ hc => lt_128_of_isNameChar (isLetter_of_mem_pieces h hw hc).1

theorem snakeChars_eq_joinWith (h : ∀ c ∈ cs, isNameChar c = true) :
    snakeChars cs = joinWith ['_'] (lowerPieces cs) := by
  have hascii := lt_128_of_mem_cut h
  have hsplit : splitAt '_' ((cutHumps (cutAcronyms (unhyphen cs))).map Char.toLower) =
      (pieces cs).map (List.map Char.toLower) := by
    rw [← splitAt_cut]
    refine splitWhere_map fun c hc => ?_
    have hne := toLower_ne_underscore (hascii c hc)
    simpa [bne] using hne
  have hplain : ∀ w ∈ (pieces cs).map (List.map Char.toLower), '_' ∉ w := by
    intro w hw hmem
    rw [← hsplit] at hw
    cases not_mem_of_mem_splitWhere hw hmem
  have hempty : (fun w : List Char => !w.isEmpty) ∘ List.map Char.toLower = fun w => !w.isEmpty := by
    funext w
    simp
  unfold snakeChars lowerPieces
  rw [lower_of_ascii hascii, ← joinWith_splitAt '_' (List.map _ _), hsplit, dropEnds_collapse_joinWith hplain,
    List.filter_map, hempty]
  refine congrArg _ (List.map_congr_left fun w hw => ?_)
  rw [lower_of_mem_pieces h (List.mem_filter.mp hw).1]

theorem word_of_mem_lowerPieces (h : ∀ c ∈ cs, isNameChar c = true) {w : List Char} (hw : w ∈ lowerPieces cs) :
    w ≠ [] ∧ ∀ c ∈ w, isWordChar c = true := by
  obtain ⟨piece, hpiece, rfl⟩ := List.mem_map.mp hw
  obtain ⟨hpiece, hne⟩ := List.mem_filter.mp hpiece
  rw [lower_of_mem_pieces h hpiece]
  refine ⟨by simpa using hne, fun c hc => ?_⟩
  obtain ⟨d, hd, rfl⟩ := List.mem_map.mp hc
  obtain ⟨hname, hedge⟩ := isLetter_of_mem_pieces h hpiece hd
  exact isWordChar_toLower hname hedge

theorem splitAt_snakeChars (h : ∀ c ∈ cs, isNameChar c = true) (hne : lowerPieces cs ≠ []) :
    splitAt '_' (snakeChars cs) = lowerPieces cs := by
  rw [snakeChars_eq_joinWith h]
  refine splitAt_joinWith hne fun w hw hmem => ?_
  cases (word_of_mem_lowerPieces h hw).2 _ hmem

theorem not_doubled_snakeChars (h : ∀ c ∈ cs, isNameChar c = true) : ¬ ['_', '_'] <:+: snakeChars cs := by
  rintro ⟨before, after, hsnake⟩
  have hne : lowerPieces cs ≠ [] := by
    intro hnil
    rw [snakeChars_eq_joinWith h, hnil] at hsnake
    simp [joinWith] at hsnake
  have hempty : [] ∈ splitAt '_' (snakeChars cs) := by
    rw [← hsnake, List.append_assoc]
    show [] ∈ splitWhere _ (before ++ '_' :: '_' :: after)
    rw [splitWhere_append_cons (p := (· == '_')) BEq.rfl, splitWhere, if_pos BEq.rfl]
    simp
  rw [splitAt_snakeChars h hne] at hempty
  exact (word_of_mem_lowerPieces h hempty).1 rfl

/-- A text of small letters and digits is cut at its underscores only. -/
theorem pieces_of_small (h : ∀ c ∈ cs, c = '_' ∨ isWordChar c = true) : pieces cs = splitAt '_' cs := by
  have hsmall : ∀ c ∈ cs, isUpper c = false := by
    intro c hc
    rw [Bool.eq_false_iff]
    intro hupper
    rcases h c hc with rfl | hword
    · cases hupper
    · rw [not_isWordChar_of_isUpper hupper] at hword
      cases hword
  unfold splitAt
  induction cs with
  | nil => rfl
  | cons a cs ih =>
    obtain ⟨ha, hcs⟩ := List.forall_mem_cons.mp h
    obtain ⟨hupper, hsmall⟩ := List.forall_mem_cons.mp hsmall
    have hcapital : meetsCapital a cs = false := by
      cases cs with
      | nil => exact Bool.and_false _
      | cons b cs =>
        show (isWordChar a && isUpper b) = false
        rw [hsmall b (List.mem_cons_self ..), Bool.and_false]
    have hedge : isEdge a = (a == '_') := by
      rcases ha with rfl | ha
      · rfl
      · have hhyphen : a ≠ '-' := by
          rintro rfl
          cases ha
        simp [isEdge, hhyphen]
    rw [pieces, splitWhere, ih hcs hsmall, hedge, hcapital, meetsWord_of_not hupper]
    rfl

theorem lowerPieces_snakeChars (h : ∀ c ∈ cs, isNameChar c = true) : lowerPieces (snakeChars cs) = lowerPieces cs := by
  have hwords := fun w hw => word_of_mem_lowerPieces h (w := w) hw
  by_cases hne : lowerPieces cs = []
  · rw [snakeChars_eq_joinWith h, hne]
    rfl
  have hsmall : ∀ c ∈ snakeChars cs, c = '_' ∨ isWordChar c = true := by
    intro c hc
    rw [snakeChars_eq_joinWith h] at hc
    rcases mem_joinWith hc with hc | ⟨w, hw, hc⟩
    · exact Or.inl (List.mem_singleton.mp hc)
    · exact Or.inr ((hwords w hw).2 c hc)
  have hfilter : (lowerPieces cs).filter (fun w => !w.isEmpty) = lowerPieces cs :=
    List.filter_eq_self.mpr fun w hw => by simpa using (hwords w hw).1
  have hlower : ∀ w ∈ lowerPieces cs, lower w = w := by
    intro w hw
    rw [lower_of_ascii fun c hc => lt_128_of_isWordChar ((hwords w hw).2 c hc)]
    refine (List.map_congr_left fun c hc => ?_).trans (List.map_id w)
    exact toLower_of_isWordChar ((hwords w hw).2 c hc)
  conv => lhs; unfold lowerPieces
  rw [pieces_of_small hsmall, splitAt_snakeChars h hne, hfilter]
  exact (List.map_congr_left hlower).trans (List.map_id _)

theorem isNameChar_of_mem_snakeChars (h : ∀ c ∈ cs, isNameChar c = true) :
    ∀ c ∈ snakeChars cs, isNameChar c = true := by
  intro c hc
  rw [snakeChars_eq_joinWith h] at hc
  rcases mem_joinWith hc with hc | ⟨w, hw, hc⟩
  · rw [List.mem_singleton.mp hc]
    rfl
  · have hletter := (isLetter_of_isWordChar ((word_of_mem_lowerPieces h hw).2 c hc)).1
    exact ((Bool.and_eq_true _ _).mp hletter).1

/-- Writing a name in words, step by step over the whole of it, comes to the same as cutting it where two neighbours
    call for it: the pieces that are not empty, in lower case with an underscore between them. So no letter or digit is
    lost, added or moved, underscores stand alone and between letters, and a name in words stays as it is. -/
theorem snakeChars_by_cuts (h : ∀ c ∈ cs, isNameChar c = true) :
    (∀ out, ReplacedBySteps cs out ↔ out = joinWith ['_'] (lowerPieces cs)) ∧
      snakeChars cs = joinWith ['_'] (lowerPieces cs) ∧
      (snakeChars cs).filter (· != '_') = (letters cs).map Char.toLower ∧
      (snakeChars cs).head? ≠ some '_' ∧ (snakeChars cs).getLast? ≠ some '_' ∧ ¬ ['_', '_'] <:+: snakeChars cs ∧
      snakeChars (snakeChars cs) = snakeChars cs := by
  have hjoined := snakeChars_eq_joinWith h
  refine ⟨fun out => ?_, hjoined, letters_snakeChars h, fun hhead => ?_, fun hlast => ?_, not_doubled_snakeChars h, ?_⟩
  · rw [replacedBySteps_iff, hjoined]
  · obtain ⟨rest, hrest⟩ := List.head?_eq_some_iff.mp hhead
    cases head_dropEnds (p := (· == '_')) hrest
  · obtain ⟨before, hbefore⟩ := List.getLast?_eq_some_iff.mp hlast
    cases last_dropEnds (p := (· == '_')) hbefore
  · rw [snakeChars_eq_joinWith (isNameChar_of_mem_snakeChars h), lowerPieces_snakeChars h, hjoined]

/-- A run of capitals that ends in a word, a number before a capital, and hyphens. -/
theorem words_of_an_acronym :
    (∀ c ∈ "-userID__HTTPServer2Go-XYz_".toList, isNameChar c = true) ∧
      snakeChars "-userID__HTTPServer2Go-XYz_".toList = "user_id_http_server2_go_x_yz".toList ∧
      ReplacedBySteps "-userID__HTTPServer2Go-XYz_".toList "user_id_http_server2_go_x_yz".toList := by
  have h : ∀ c ∈ "-userID__HTTPServer2Go-XYz_".toList, isNameChar c = true :=
    List.all_eq_true.mp (by decide)
  obtain ⟨hsteps, hsnake, -⟩ := snakeChars_by_cuts h
  have hjoined : joinWith ['_'] (lowerPieces "-userID__HTTPServer2Go-XYz_".toList) =
      "user_id_http_server2_go_x_yz".toList := by decide +kernel
  exact ⟨h, hsnake.trans hjoined, (hsteps _).mpr hjoined.symm⟩

end Words

end SchemaForge.Naming

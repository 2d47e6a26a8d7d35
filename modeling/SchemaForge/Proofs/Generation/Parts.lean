import SchemaForge.Proofs.Generation.Spacing

/-
Tidying a text that is put together from parts. Lines that follow a kept line are counted apart from those before it
(`keptLines_append_cons`), so what stands before a kept line is written the same whatever comes after
(`joinWith_spaced_append`).

Three things follow. Parts with a gap between them are tidied one by one, and the gap is cut to two empty lines
(`tidyChars_append`, `tidyChars_stack`). Lines without blanks at their ends stay as they are (`tidyChars_joinWith`).
And a word within a line is left alone, so that two texts that differ in one word are tidied to two texts that differ
in it (`exists_tidyChars_word`).
-/

namespace SchemaForge

namespace Text

variable {p : Char → Bool} {cs ds first start : List Char} {front back : List (List Char)}

/-- Where two texts meet, the last piece of the one and the first of the other are one. -/
theorem splitWhere_append (hcs : splitWhere p cs = front ++ [start]) (hds : splitWhere p ds = first :: back) :
    splitWhere p (cs ++ ds) = front ++ (start ++ first) :: back := by
  induction cs generalizing front start with
  | nil =>
    obtain ⟨rfl, hstart⟩ := List.append_inj' (show [] ++ [[]] = front ++ [start] from hcs) rfl
    rw [List.nil_append, hds, ← List.singleton_inj.mp hstart]
    rfl
  | cons c cs ih =>
    obtain ⟨front', start', hpieces⟩ : ∃ front' start', splitWhere p cs = front' ++ [start'] :=
      ⟨_, _, (List.dropLast_append_getLast (splitWhere_ne_nil p cs)).symm⟩
    have ih := ih hpieces
    rw [splitWhere, hpieces] at hcs
    rw [List.cons_append, splitWhere, ih]
    split
    · rename_i hc
      rw [if_pos hc] at hcs
      obtain ⟨rfl, hstart⟩ := List.append_inj' (show ([] :: front') ++ [start'] = front ++ [start] from hcs) rfl
      rw [List.singleton_inj.mp hstart, List.cons_append]
    · rename_i hc
      rw [if_neg hc] at hcs
      cases front' with
      | nil =>
        obtain ⟨rfl, hstart⟩ := List.append_inj' (show [] ++ [c :: start'] = front ++ [start] from hcs) rfl
        rw [← List.singleton_inj.mp hstart]
        rfl
      | cons piece front' =>
        obtain ⟨rfl, hstart⟩ :=
          List.append_inj' (show ((c :: piece) :: front') ++ [start'] = front ++ [start] from hcs) rfl
        rw [List.singleton_inj.mp hstart]
        rfl

theorem splitWhere_cons_of_neg {c : Char} (hc : p c = false) (hds : splitWhere p ds = first :: back) :
    splitWhere p (c :: ds) = (c :: first) :: back := by
  rw [splitWhere, hc, hds]
  rfl

end Text

namespace Generation

open Text

variable {before after lines : List (List Char)} {line : List Char} {ks later : List KeptLine} {k : KeptLine}

/-! ## Lines before and after a kept one -/

theorem takeWhile_append_cons (hkept : isBlankLine line = false) (before after : List (List Char)) :
    (before ++ line :: after).takeWhile isBlankLine = before.takeWhile isBlankLine := by
  induction before with
  | nil => exact List.takeWhile_cons_of_neg (Bool.eq_false_iff.mp hkept)
  | cons l before ih =>
    rw [List.cons_append, List.takeWhile_cons, List.takeWhile_cons, ih]

theorem keptLines_cons (hkept : isBlankLine line = false) (after : List (List Char)) :
    keptLines (line :: after) = ⟨dropTail isBlank line, (after.takeWhile isBlankLine).length⟩ :: keptLines after := by
  rw [keptLines, if_neg (Bool.eq_false_iff.mp hkept)]

theorem keptLines_append_cons (hkept : isBlankLine line = false) (before after : List (List Char)) :
    keptLines (before ++ line :: after) =
      keptLines before ++ ⟨dropTail isBlank line, (after.takeWhile isBlankLine).length⟩ :: keptLines after := by
  induction before with
  | nil => exact keptLines_cons hkept after
  | cons l before ih =>
    rw [List.cons_append, keptLines, keptLines, ih, takeWhile_append_cons hkept]
    split
    · rfl
    · rw [List.cons_append]

/-- Kept lines, each with the line ends up to the next one. -/
def leading (ks : List KeptLine) : List Char :=
  ks.flatMap (fun k => k.text ++ List.replicate (min k.after 2 + 1) '\n')

theorem joinWith_spaced_cons (hne : later ≠ []) (k : KeptLine) :
    joinWith ['\n'] (spaced (k :: later)) =
      k.text ++ List.replicate (min k.after 2 + 1) '\n' ++ joinWith ['\n'] (spaced later) := by
  have hspaced : spaced later ≠ [] := by
    cases later with
    | nil => exact absurd rfl hne
    | cons next later =>
      obtain ⟨rest, hrest⟩ := spaced_eq_cons next later
      rw [hrest]
      exact List.cons_ne_nil _ _
  rw [spaced_cons hne, joinWith_gap _ _ hspaced]

theorem joinWith_spaced_append (hne : later ≠ []) (ks : List KeptLine) :
    joinWith ['\n'] (spaced (ks ++ later)) = leading ks ++ joinWith ['\n'] (spaced later) := by
  induction ks with
  | nil => rfl
  | cons k ks ih =>
    have hrest : ks ++ later ≠ [] := fun h => hne (List.append_eq_nil_iff.mp h).2
    rw [List.cons_append, joinWith_spaced_cons hrest, ih, leading, leading, List.flatMap_cons, List.append_assoc,
      List.append_assoc, List.append_assoc]

/-! ## Parts with a gap between them -/

theorem splitAt_gap (a b : List Char) (n : Nat) :
    splitAt '\n' (a ++ List.replicate (n + 1) '\n' ++ b) = splitAt '\n' a ++ (List.replicate n [] ++ splitAt '\n' b) := by
  have hgap : ∀ n, splitAt '\n' (List.replicate n '\n' ++ b) = List.replicate n [] ++ splitAt '\n' b := by
    intro n
    induction n with
    | zero => rfl
    | succ n ih =>
      rw [List.replicate_succ, List.replicate_succ, List.cons_append, List.cons_append, ← ih]
      exact splitAt_append_cons '\n' [] _
  rw [← hgap n, List.replicate_succ, List.append_assoc, List.cons_append, splitAt_append_cons]

theorem isBlankLine_of_mem {c : Char} (hc : c ∈ line) (h : isBlank c = false) : isBlankLine line = false := by
  rw [Bool.eq_false_iff]
  intro hblank
  rw [List.all_eq_true.mp hblank c hc] at h
  cases h

theorem ne_newline_of_not_isBlank {c : Char} (h : isBlank c = false) : (c == '\n') = false := by
  rw [beq_eq_false_iff_ne]
  rintro rfl
  revert h
  decide

/-- The text begins with no blank. -/
def Opens (cs : List Char) : Prop := ∃ c rest, cs = c :: rest ∧ isBlank c = false

/-- The text ends in no blank. -/
def Closes (cs : List Char) : Prop := ∃ front c, cs = front ++ [c] ∧ isBlank c = false

/-- A text without blanks at its ends. -/
structure Framed (cs : List Char) : Prop where
  opens : Opens cs
  closes : Closes cs

variable {a b : List Char}

theorem opens_append (h : Opens a) (b : List Char) : Opens (a ++ b) := by
  obtain ⟨c, rest, rfl, hc⟩ := h
  exact ⟨c, rest ++ b, List.cons_append, hc⟩

/-- The last line of a text that ends in no blank is kept. -/
theorem exists_last_line (h : Closes a) : ∃ front last, splitAt '\n' a = front ++ [last] ∧ isBlankLine last = false := by
  obtain ⟨a, c, rfl, hc⟩ := h
  have hpieces := (List.dropLast_append_getLast (splitWhere_ne_nil (· == '\n') a)).symm
  have hlast : splitWhere (· == '\n') [c] = [[c]] := by
    refine splitWhere_of_forall fun d hd => ?_
    rw [List.mem_singleton.mp hd]
    exact ne_newline_of_not_isBlank hc
  refine ⟨_, _, splitWhere_append hpieces hlast, isBlankLine_of_mem (c := c) ?_ hc⟩
  exact List.mem_append_right _ (List.mem_singleton.mpr rfl)

/-- And so is the first line of one that begins with none. -/
theorem exists_first_line (h : Opens b) : ∃ first back, splitAt '\n' b = first :: back ∧ isBlankLine first = false := by
  obtain ⟨c, b, rfl, hc⟩ := h
  obtain ⟨back, hpieces⟩ := splitWhere_eq_cons (· == '\n') b
  refine ⟨_, back, splitWhere_cons_of_neg (ne_newline_of_not_isBlank hc) hpieces, ?_⟩
  exact isBlankLine_of_mem (List.mem_cons_self ..) hc

/-- Two parts are tidied one by one. Between them stay as many empty lines as there were, but two at most. -/
theorem tidyChars_append (ha : Closes a) (hb : Opens b) (n : Nat) :
    tidyChars (a ++ List.replicate (n + 1) '\n' ++ b) =
      tidyChars a ++ List.replicate (min n 2) '\n' ++ tidyChars b := by
  obtain ⟨front, last, ha, hlast⟩ := exists_last_line ha
  obtain ⟨first, back, hb, hfirst⟩ := exists_first_line hb
  have hkept : keptLines (first :: back) ≠ [] := keptLines_cons hfirst back ▸ List.cons_ne_nil _ _
  have hlines : keptLines (splitAt '\n' (a ++ List.replicate (n + 1) '\n' ++ b)) =
      keptLines front ++ ⟨dropTail isBlank last, n⟩ :: keptLines (first :: back) := by
    rw [splitAt_gap, ha, hb, List.append_assoc, List.singleton_append, keptLines_append_cons hlast,
      takeWhile_gap n hfirst, keptLines_gap]
  have hfront : keptLines (splitAt '\n' a) = keptLines front ++ [⟨dropTail isBlank last, 0⟩] := by
    rw [ha, keptLines_append_cons hlast]
    rfl
  rw [tidyChars_eq, tidyChars_eq, tidyChars_eq, hlines, hfront, hb, joinWith_spaced_append (List.cons_ne_nil _ _),
    joinWith_spaced_append (List.cons_ne_nil _ _), joinWith_spaced_cons hkept, List.replicate_succ]
  simp [spaced, joinWith]

/-- Any number of parts behind a text, with one gap before each. -/
theorem tidyChars_stack (ha : Closes a) {parts : List (List Char)} (hparts : ∀ d ∈ parts, Framed d) (n : Nat) :
    tidyChars (a ++ parts.flatMap (fun d => List.replicate (n + 1) '\n' ++ d)) =
      tidyChars a ++ parts.flatMap (fun d => List.replicate (min n 2) '\n' ++ tidyChars d) := by
  induction parts generalizing a with
  | nil => rw [List.flatMap_nil, List.flatMap_nil, List.append_nil, List.append_nil]
  | cons d parts ih =>
    obtain ⟨hd, hparts⟩ := List.forall_mem_cons.mp hparts
    rw [List.flatMap_cons, List.flatMap_cons, List.append_assoc, ← List.append_assoc a,
      tidyChars_append ha (opens_append hd.opens _), ih hd.closes hparts]
    simp only [List.append_assoc]

/-- A line end behind a text is tidied away. -/
theorem tidyChars_concat_newline (ha : Closes a) : tidyChars (a ++ ['\n']) = tidyChars a := by
  obtain ⟨front, last, hlines, hlast⟩ := exists_last_line ha
  have hcut : splitAt '\n' (a ++ ['\n']) = front ++ [last, []] := by
    rw [splitAt_append_cons, hlines, List.append_assoc]
    rfl
  rw [tidyChars_eq, tidyChars_eq, hcut, hlines, keptLines_append_cons hlast, keptLines_append_cons hlast,
    joinWith_spaced_append (List.cons_ne_nil _ _), joinWith_spaced_append (List.cons_ne_nil _ _)]
  rfl

/-! ## Lines that are written as they are -/

theorem tidyChars_joinWith (hne : lines ≠ []) (h : ∀ line ∈ lines, KeptLine.Proper ⟨line, 0⟩) :
    tidyChars (joinWith ['\n'] lines) = joinWith ['\n'] lines ++ ['\n'] := by
  have hkept : ∀ ls : List (List Char), (∀ line ∈ ls, KeptLine.Proper ⟨line, 0⟩) →
      keptLines ls = ls.map (fun line => ⟨line, 0⟩) := by
    intro ls hls
    induction ls with
    | nil => rfl
    | cons l ls ih =>
      obtain ⟨hl, hls⟩ := List.forall_mem_cons.mp hls
      have hcount : (ls.takeWhile isBlankLine).length = 0 := by
        cases ls with
        | nil => rfl
        | cons next ls =>
          have hnext := not_isBlankLine_of_proper (List.forall_mem_cons.mp hls).1
          rw [List.takeWhile_cons_of_neg (Bool.eq_false_iff.mp hnext), List.length_nil]
      rw [keptLines_cons (not_isBlankLine_of_proper hl), hcount, ih hls, hl.trimmed, List.map_cons]
  have hspaced : ∀ ls : List (List Char), spaced (ls.map (fun line => ⟨line, 0⟩)) = ls := by
    intro ls
    induction ls with
    | nil => rfl
    | cons l ls ih =>
      cases ls with
      | nil => rfl
      | cons next ls =>
        show l :: spaced ((next :: ls).map fun line => ⟨line, 0⟩) = _
        rw [ih]
  rw [tidyChars_eq, splitAt_joinWith hne fun line hline => (h line hline).single, hkept lines h, hspaced]

/-! ## A word in a line -/

/-- What is written around a word does not depend on the word, nor does what its line begins and ends with. -/
theorem exists_tidyChars_word (before after start finish : List Char) {c : Char} (hstart : '\n' ∉ start)
    (hfinish : '\n' ∉ finish) (hc : isBlank c = false) :
    ∃ opening closing, start <:+ opening ∧ finish ++ [c] <+: closing ∧ ∀ word, '\n' ∉ word →
      tidyChars (before ++ '\n' :: (start ++ word ++ (finish ++ [c]) ++ '\n' :: after)) = opening ++ word ++ closing := by
  have hend : ∃ closing, ∀ text : List Char, joinWith ['\n'] (spaced (⟨text,
      ((splitAt '\n' after).takeWhile isBlankLine).length⟩ :: keptLines (splitAt '\n' after))) = text ++ closing := by
    by_cases hnone : keptLines (splitAt '\n' after) = []
    · refine ⟨[], fun text => ?_⟩
      rw [hnone]
      exact (List.append_nil text).symm
    · refine ⟨List.replicate (min ((splitAt '\n' after).takeWhile isBlankLine).length 2 + 1) '\n' ++
        joinWith ['\n'] (spaced (keptLines (splitAt '\n' after))), fun text => ?_⟩
      rw [joinWith_spaced_cons hnone, List.append_assoc]
  obtain ⟨closing, hclosing⟩ := hend
  refine ⟨leading (keptLines (splitAt '\n' before)) ++ start, (finish ++ [c]) ++ (closing ++ ['\n']),
    List.suffix_append _ _, List.prefix_append _ _, fun word hword => ?_⟩
  have hsingle : '\n' ∉ start ++ word ++ (finish ++ [c]) := by
    intro hd
    simp only [List.mem_append, List.mem_singleton] at hd
    rcases hd with (hd | hd) | hd | hd
    · exact hstart hd
    · exact hword hd
    · exact hfinish hd
    · exact absurd hc (hd ▸ by decide)
  have hcut : splitAt '\n' (before ++ '\n' :: (start ++ word ++ (finish ++ [c]) ++ '\n' :: after)) =
      splitAt '\n' before ++ (start ++ word ++ (finish ++ [c])) :: splitAt '\n' after := by
    rw [splitAt_append_cons, splitAt_append_cons, splitAt_of_not_mem hsingle, List.singleton_append]
  have hkept : isBlankLine (start ++ word ++ (finish ++ [c])) = false :=
    isBlankLine_of_mem (c := c) (by simp) hc
  have htext : dropTail isBlank (start ++ word ++ (finish ++ [c])) = start ++ word ++ (finish ++ [c]) := by
    rw [← List.append_assoc]
    exact dropTail_concat hc _
  rw [tidyChars_eq, hcut, keptLines_append_cons hkept, joinWith_spaced_append (List.cons_ne_nil _ _), htext, hclosing]
  simp only [List.append_assoc]

end Generation

end SchemaForge

import Mathlib.Data.List.DropRight
import SchemaForge.Text.Pieces

/-
Texts that are trimmed, cut and joined. Trimming takes characters of the class off both ends (`exists_dropEnds`), and
none is left there (`head_dropEnds`, `last_dropEnds`).

Cutting loses the separators and nothing else (`flatten_splitWhere`). Around a separator, the pieces are those of what
stands before it and after it (`splitWhere_append_cons`, `splitAt_append_cons`). So pieces that are joined are cut out
again (`splitAt_joinWith`), and separators that are trimmed take only empty pieces with them (`mem_splitWhere_dropEnds`).
-/

namespace SchemaForge.Text

variable {p q : Char → Bool} {cs ds : List Char} {c x : Char}

/-! ## Trimming -/

theorem head_dropWhile (h : cs.dropWhile p = c :: ds) : p c = false := by
  have := List.head?_dropWhile_not p cs
  rw [h] at this
  simpa using this

theorem exists_dropTail (p : Char → Bool) (cs : List Char) :
    ∃ after, cs = dropTail p cs ++ after ∧ ∀ c ∈ after, p c = true := by
  refine ⟨(cs.reverse.takeWhile p).reverse, ?_, fun c hc => ?_⟩
  · rw [dropTail, ← List.reverse_append, List.takeWhile_append_dropWhile, List.reverse_reverse]
  · exact List.all_eq_true.mp List.all_takeWhile c (List.mem_reverse.mp hc)

/-- Only characters of the class are trimmed, and only at the ends. -/
theorem exists_dropEnds (p : Char → Bool) (cs : List Char) :
    ∃ before after, cs = before ++ dropEnds p cs ++ after ∧ (∀ c ∈ before, p c = true) ∧ ∀ c ∈ after, p c = true := by
  obtain ⟨after, hcs, hafter⟩ := exists_dropTail p (cs.dropWhile p)
  refine ⟨cs.takeWhile p, after, ?_, List.all_eq_true.mp List.all_takeWhile, hafter⟩
  rw [dropEnds, List.append_assoc, ← hcs, List.takeWhile_append_dropWhile]

theorem head_dropEnds (h : dropEnds p cs = c :: ds) : p c = false := by
  obtain ⟨after, hcs, -⟩ := exists_dropTail p (cs.dropWhile p)
  rw [← dropEnds, h, List.cons_append] at hcs
  exact head_dropWhile hcs

theorem last_dropTail (h : dropTail p cs = ds ++ [c]) : p c = false := by
  have hreverse : cs.reverse.dropWhile p = c :: ds.reverse := by
    rw [← List.reverse_reverse (cs.reverse.dropWhile p), ← dropTail, h, List.reverse_append]
    rfl
  exact head_dropWhile hreverse

theorem last_dropEnds (h : dropEnds p cs = ds ++ [c]) : p c = false := last_dropTail h

theorem dropTail_append (h : dropTail p cs = cs) (ds : List Char) : dropTail p (cs ++ ds) = cs ++ dropTail p ds := by
  have hreverse : cs.reverse.dropWhile p = cs.reverse := by
    rw [← List.reverse_inj, List.reverse_reverse]
    exact h
  rw [dropTail, dropTail, List.reverse_append, List.dropWhile_append, hreverse]
  split
  · rename_i hempty
    rw [List.isEmpty_iff.mp hempty, List.reverse_reverse, List.reverse_nil, List.append_nil]
  · rw [List.reverse_append, List.reverse_reverse]

theorem dropTail_concat (h : p c = false) (cs : List Char) : dropTail p (cs ++ [c]) = cs ++ [c] := by
  rw [dropTail, List.reverse_append, List.reverse_singleton, List.singleton_append, List.dropWhile_cons, h]
  simp

theorem dropTail_cons (p : Char → Bool) (c : Char) (cs : List Char) :
    dropTail p (c :: cs) = if p c && (dropTail p cs).isEmpty then [] else c :: dropTail p cs := by
  unfold dropTail
  rw [List.reverse_cons, List.dropWhile_append, List.isEmpty_reverse]
  by_cases hempty : (cs.reverse.dropWhile p).isEmpty = true
  · rw [if_pos hempty, List.isEmpty_iff.mp hempty]
    by_cases hc : p c = true <;> simp [hc]
  · rw [if_neg hempty]
    simp [hempty]

theorem dropTail_of_forall (h : ∀ c ∈ cs, p c = false) : dropTail p cs = cs := by
  induction cs with
  | nil => rfl
  | cons c cs ih =>
    rw [dropTail_cons, h c (List.mem_cons_self ..), ih fun d hd => h d (List.mem_cons_of_mem _ hd)]
    rfl

theorem dropTail_eq_nil_iff : dropTail p cs = [] ↔ ∀ c ∈ cs, p c = true := List.rdropWhile_eq_nil_iff

theorem dropTail_dropTail (p : Char → Bool) (cs : List Char) : dropTail p (dropTail p cs) = dropTail p cs :=
  List.rdropWhile_idempotent p cs

/-- What stands before a character that is not trimmed stays. -/
theorem dropTail_append_of_ne_nil (h : dropTail p ds ≠ []) (cs : List Char) :
    dropTail p (cs ++ ds) = cs ++ dropTail p ds := by
  induction cs with
  | nil => rfl
  | cons c cs ih =>
    rw [List.cons_append, dropTail_cons, ih]
    simp [h]

theorem dropTail_isPrefix (p : Char → Bool) (cs : List Char) : dropTail p cs <+: cs := by
  obtain ⟨after, hcs, -⟩ := exists_dropTail p cs
  exact ⟨after, hcs.symm⟩

theorem filter_dropEnds (h : ∀ c, p c = true → q c = false) : (dropEnds p cs).filter q = cs.filter q := by
  obtain ⟨before, after, hcs, hbefore, hafter⟩ := exists_dropEnds p cs
  have hnil : ∀ ds : List Char, (∀ c ∈ ds, p c = true) → ds.filter q = [] := fun ds hds =>
    List.filter_eq_nil_iff.mpr fun c hc => by simp [h c (hds c hc)]
  conv => rhs; rw [hcs]
  rw [List.filter_append, List.filter_append, hnil before hbefore, hnil after hafter, List.nil_append, List.append_nil]

theorem mem_dropEnds (hx : p x = false) : x ∈ dropEnds p cs ↔ x ∈ cs := by
  have h : (dropEnds p cs).filter (fun c => !p c) = cs.filter (fun c => !p c) := filter_dropEnds (by simp)
  have hmem : ∀ ds : List Char, x ∈ ds.filter (fun c => !p c) ↔ x ∈ ds := by simp [hx]
  rw [← hmem, h, hmem]

theorem mem_of_mem_dropEnds (h : x ∈ dropEnds p cs) : x ∈ cs := by
  obtain ⟨before, after, hcs, -, -⟩ := exists_dropEnds p cs
  rw [hcs]
  exact List.mem_append_left _ (List.mem_append_right _ h)

/-! ## Cutting -/

theorem splitWhere_ne_nil (p : Char → Bool) (cs : List Char) : splitWhere p cs ≠ [] := by
  fun_cases splitWhere p cs <;> simp

theorem flatten_splitWhere : (splitWhere p cs).flatten = cs.filter (fun c => !p c) := by
  induction cs with
  | nil => rfl
  | cons c cs ih =>
    unfold splitWhere
    by_cases hc : p c = true
    · simp [hc, ih]
    · cases hpieces : splitWhere p cs with
      | nil => simp_all
      | cons piece rest => simp_all

/-- What is no separator stands in a piece. -/
theorem mem_splitWhere (hx : p x = false) : (∃ w ∈ splitWhere p cs, x ∈ w) ↔ x ∈ cs := by
  rw [← List.mem_flatten, flatten_splitWhere, List.mem_filter, hx]
  simp

theorem not_mem_of_mem_splitWhere {w : List Char} (hw : w ∈ splitWhere p cs) (hx : x ∈ w) : p x = false := by
  have hflatten : x ∈ (splitWhere p cs).flatten := List.mem_flatten.mpr ⟨w, hw, hx⟩
  rw [flatten_splitWhere] at hflatten
  simpa using (List.mem_filter.mp hflatten).2

theorem splitWhere_append_cons (hc : p c = true) :
    splitWhere p (cs ++ c :: ds) = splitWhere p cs ++ splitWhere p ds := by
  induction cs with
  | nil => simp [splitWhere, hc]
  | cons d cs ih =>
    rw [List.cons_append, splitWhere, splitWhere, ih]
    cases hpieces : splitWhere p cs with
    | nil => exact absurd hpieces (splitWhere_ne_nil p cs)
    | cons piece rest => split <;> rfl

theorem splitWhere_of_forall (h : ∀ c ∈ cs, p c = false) : splitWhere p cs = [cs] := by
  induction cs with
  | nil => rfl
  | cons c cs ih =>
    rw [splitWhere, h c (List.mem_cons_self ..), ih fun d hd => h d (List.mem_cons_of_mem _ hd)]
    rfl

theorem splitAt_append_cons (sep : Char) (cs ds : List Char) :
    splitAt sep (cs ++ sep :: ds) = splitAt sep cs ++ splitAt sep ds := splitWhere_append_cons BEq.rfl

theorem splitAt_of_not_mem {sep : Char} (h : sep ∉ cs) : splitAt sep cs = [cs] := by
  refine splitWhere_of_forall fun c hc => ?_
  rw [beq_eq_false_iff_ne]
  rintro rfl
  exact h hc

/-- The first piece is what stands before the first separator. -/
theorem splitWhere_eq_cons (p : Char → Bool) (cs : List Char) :
    ∃ later, splitWhere p cs = cs.takeWhile (fun c => !p c) :: later := by
  have hpiece : splitWhere p (cs.takeWhile fun c => !p c) = [cs.takeWhile fun c => !p c] :=
    splitWhere_of_forall fun c hc => by simpa using List.all_eq_true.mp List.all_takeWhile c hc
  have hparts : splitWhere p cs = splitWhere p (cs.takeWhile (fun c => !p c) ++ cs.dropWhile (fun c => !p c)) := by
    rw [List.takeWhile_append_dropWhile]
  rw [hparts]
  cases hrest : cs.dropWhile (fun c => !p c) with
  | nil =>
    rw [List.append_nil, hpiece]
    exact ⟨[], rfl⟩
  | cons c rest =>
    have hc : p c = true := by simpa using head_dropWhile hrest
    rw [splitWhere_append_cons hc, hpiece]
    exact ⟨splitWhere p rest, rfl⟩

theorem splitWhere_map {f : Char → Char} (h : ∀ c ∈ cs, p (f c) = p c) :
    splitWhere p (cs.map f) = (splitWhere p cs).map (List.map f) := by
  induction cs with
  | nil => rfl
  | cons c cs ih =>
    have ih := ih fun d hd => h d (List.mem_cons_of_mem _ hd)
    rw [List.map_cons, splitWhere, splitWhere, h c (List.mem_cons_self ..), ih]
    cases splitWhere p cs with
    | nil => split <;> rfl
    | cons piece rest => split <;> rfl

theorem splitAt_joinWith {sep : Char} {parts : List (List Char)} (hne : parts ≠ []) (h : ∀ part ∈ parts, sep ∉ part) :
    splitAt sep (joinWith [sep] parts) = parts := by
  induction parts with
  | nil => exact absurd rfl hne
  | cons part parts ih =>
    have hpart : splitAt sep part = [part] := splitAt_of_not_mem (h part (List.mem_cons_self ..))
    cases parts with
    | nil => exact hpart
    | cons next parts =>
      have hrest := ih (List.cons_ne_nil _ _) fun part hmem => h part (List.mem_cons_of_mem _ hmem)
      rw [joinWith, List.append_assoc, List.singleton_append, splitAt_append_cons, hpart, hrest, List.singleton_append]

/-- Separators alone stand between empty pieces. -/
theorem eq_nil_of_mem_splitWhere {w : List Char} (h : ∀ c ∈ cs, p c = true) (hw : w ∈ splitWhere p cs) : w = [] := by
  refine List.eq_nil_iff_forall_not_mem.mpr fun x hx => ?_
  have hseparates := not_mem_of_mem_splitWhere hw hx
  have hmem : x ∈ cs := (mem_splitWhere hseparates).mp ⟨w, hw, hx⟩
  rw [h x hmem] at hseparates
  cases hseparates

theorem mem_splitWhere_append {w : List Char} (hw : w ≠ []) (h : ∀ c ∈ ds, p c = true) :
    w ∈ splitWhere p (cs ++ ds) ↔ w ∈ splitWhere p cs := by
  cases ds with
  | nil => rw [List.append_nil]
  | cons c ds =>
    obtain ⟨hc, hds⟩ := List.forall_mem_cons.mp h
    rw [splitWhere_append_cons hc, List.mem_append]
    exact or_iff_left fun hmem => hw (eq_nil_of_mem_splitWhere hds hmem)

theorem mem_splitWhere_prepend {w : List Char} (hw : w ≠ []) (h : ∀ c ∈ cs, p c = true) :
    w ∈ splitWhere p (cs ++ ds) ↔ w ∈ splitWhere p ds := by
  induction cs with
  | nil => rfl
  | cons c cs ih =>
    obtain ⟨hc, hcs⟩ := List.forall_mem_cons.mp h
    rw [List.cons_append, ← ih hcs, splitWhere, if_pos hc, List.mem_cons]
    exact or_iff_right hw

theorem mem_splitWhere_dropEnds {w : List Char} (hw : w ≠ []) :
    w ∈ splitWhere p (dropEnds p cs) ↔ w ∈ splitWhere p cs := by
  obtain ⟨before, after, hcs, hbefore, hafter⟩ := exists_dropEnds p cs
  conv => rhs; rw [hcs, mem_splitWhere_append hw hafter, mem_splitWhere_prepend hw hbefore]

/-! ## Joining -/

theorem joinWith_cons {sep part : List Char} {parts : List (List Char)} (hne : parts ≠ []) :
    joinWith sep (part :: parts) = part ++ sep ++ joinWith sep parts := by
  cases parts with
  | nil => exact absurd rfl hne
  | cons next parts => rfl

theorem joinWith_cons_cons (sep part : List Char) (parts : List (List Char)) :
    joinWith sep ((c :: part) :: parts) = c :: joinWith sep (part :: parts) := by
  cases parts <;> rfl

theorem joinWith_concat (sep : List Char) (parts : List (List Char)) (last : List Char) :
    joinWith sep (parts ++ [last]) = parts.flatMap (· ++ sep) ++ last := by
  induction parts with
  | nil => rfl
  | cons part parts ih =>
    have hne : parts ++ [last] ≠ [] := List.append_ne_nil_of_right_ne_nil _ (List.cons_ne_nil _ _)
    rw [List.cons_append, joinWith_cons hne, ih, List.flatMap_cons, List.append_assoc (part ++ sep)]

theorem joinWith_splitAt (sep : Char) (cs : List Char) : joinWith [sep] (splitAt sep cs) = cs := by
  unfold splitAt
  induction cs with
  | nil => rfl
  | cons c cs ih =>
    have hne := splitWhere_ne_nil (· == sep) cs
    rw [splitWhere]
    split
    · rename_i hc
      rw [joinWith_cons hne, ih, beq_iff_eq.mp hc]
      rfl
    · cases hpieces : splitWhere (· == sep) cs with
      | nil => exact absurd hpieces hne
      | cons piece rest =>
        rw [hpieces] at ih
        show joinWith [sep] ((c :: piece) :: rest) = c :: cs
        rw [joinWith_cons_cons, ih]

theorem mem_joinWith {sep : List Char} {parts : List (List Char)} (h : c ∈ joinWith sep parts) :
    c ∈ sep ∨ ∃ part ∈ parts, c ∈ part := by
  induction parts with
  | nil => cases h
  | cons x rest ih =>
    cases rest with
    | nil => exact Or.inr ⟨x, List.mem_cons_self .., h⟩
    | cons y rest =>
      have hsplit : (c ∈ x ∨ c ∈ sep) ∨ c ∈ joinWith sep (y :: rest) := by
        rw [← List.mem_append, ← List.mem_append]
        exact h
      rcases hsplit with (hx | hsep) | hrest
      · exact Or.inr ⟨x, List.mem_cons_self .., hx⟩
      · exact Or.inl hsep
      · exact (ih hrest).imp_right fun ⟨part, hpart, hc⟩ => ⟨part, List.mem_cons_of_mem _ hpart, hc⟩

end SchemaForge.Text

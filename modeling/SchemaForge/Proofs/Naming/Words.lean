import SchemaForge.Naming.Allocator
import SchemaForge.Proofs.Text.Pieces

/-
The words of a name. A cleaned name consists of name characters and has at least one letter or digit
(`isNameChar_of_mem_clean`, `exists_mem_clean`). Cutting moves no letter or digit: what stands in the words is what
stands in the name, in lower case (`mem_words`). So words hold lower-case letters and digits only, a cleaned name has at
least one of them, and the camel form is the Pascal form with its first letter made small (`camelChars_clean`).
-/

namespace SchemaForge.Naming

/-! ## Characters -/

/-- The characters that words are made of. -/
def isWordChar (c : Char) : Bool := isLower c || isDigit c

theorem isUpper_iff {c : Char} : isUpper c = true ↔ 65 ≤ c.toNat ∧ c.toNat ≤ 90 := by
  simp [isUpper, Char.le_def, UInt32.le_iff_toNat_le, ← Char.toNat_val]

theorem isLower_iff {c : Char} : isLower c = true ↔ 97 ≤ c.toNat ∧ c.toNat ≤ 122 := by
  simp [isLower, Char.le_def, UInt32.le_iff_toNat_le, ← Char.toNat_val]

theorem isDigit_iff {c : Char} : isDigit c = true ↔ 48 ≤ c.toNat ∧ c.toNat ≤ 57 := by
  simp [isDigit, Char.le_def, UInt32.le_iff_toNat_le, ← Char.toNat_val]

theorem isWordChar_iff {c : Char} :
    isWordChar c = true ↔ 97 ≤ c.toNat ∧ c.toNat ≤ 122 ∨ 48 ≤ c.toNat ∧ c.toNat ≤ 57 := by
  rw [isWordChar, Bool.or_eq_true, isLower_iff, isDigit_iff]

theorem lt_128_of_isNameChar {c : Char} (h : isNameChar c = true) : c.toNat < 128 := by
  simp only [isNameChar, Bool.or_eq_true, beq_iff_eq, isUpper_iff, isLower_iff, isDigit_iff] at h
  rcases h with ((h | h) | rfl) | rfl
  · omega
  · omega
  · decide
  · decide

/-- A name character that is no edge is a letter or digit, and small letters and digits are what it becomes. -/
theorem isWordChar_toLower {c : Char} (h : isNameChar c = true) (he : isEdge c = false) :
    isWordChar c.toLower = true := by
  have := Text.of_ascii (p := fun c => !isNameChar c || isEdge c || isWordChar c.toLower) (by decide +kernel)
    (lt_128_of_isNameChar h)
  simpa [h, he] using this

theorem lt_128_of_isWordChar {c : Char} (h : isWordChar c = true) : c.toNat < 128 := by
  rcases isWordChar_iff.mp h with h | h <;> omega

theorem toLower_of_isWordChar {c : Char} (h : isWordChar c = true) : c.toLower = c := by
  have := Text.of_ascii (p := fun c => !isWordChar c || c.toLower == c) (by decide +kernel) (lt_128_of_isWordChar h)
  simpa [h] using this

theorem toLower_toUpper_of_isWordChar {c : Char} (h : isWordChar c = true) : c.toUpper.toLower = c := by
  have := Text.of_ascii (p := fun c => !isWordChar c || c.toUpper.toLower == c) (by decide +kernel)
    (lt_128_of_isWordChar h)
  simpa [h] using this

/-- A letter or digit of either case. -/
def isLetter (c : Char) : Bool := isNameChar c && !isEdge c

theorem isLetter_of_isWordChar {c : Char} (h : isWordChar c = true) :
    isLetter c = true ∧ isLetter c.toUpper = true := by
  have := Text.of_ascii (p := fun c => !isWordChar c || isLetter c && isLetter c.toUpper) (by decide +kernel)
    (lt_128_of_isWordChar h)
  simpa [h] using this

theorem ne_underscore_of_isLetter {c : Char} (h : isLetter c = true) : c ≠ '_' := by
  rintro rfl
  revert h
  decide

/-! ## Case conversion of ASCII texts -/

theorem capitalize_of_isWordChar {c : Char} {cs : List Char} (h : ∀ d ∈ c :: cs, isWordChar d = true) :
    Text.capitalize (c :: cs) = c.toUpper :: cs := by
  have hc := lt_128_of_isWordChar (h c (List.mem_cons_self ..))
  have hcs : ∀ d ∈ cs, d.toNat < 128 := fun d hd => lt_128_of_isWordChar (h d (List.mem_cons_of_mem _ hd))
  have char : Text.titleChar c = [c.toUpper] := if_pos hc
  have same : cs.map Char.toLower = cs := by
    conv => rhs; rw [← List.map_id cs]
    exact List.map_congr_left (fun d hd => toLower_of_isWordChar (h d (List.mem_cons_of_mem _ hd)))
  rw [Text.capitalize, char, Text.lowerFrom_of_ascii hcs, same]
  rfl

/-! ## Cutting -/

section Cutting

variable {x : Char} {cs : List Char}

theorem mem_unhyphen (hx : x ≠ '_') : x ∈ unhyphen cs ↔ x ∈ cs ∧ x ≠ '-' := by
  unfold unhyphen
  rw [List.mem_map]
  refine ⟨fun hr => ?_, fun hr => ?_⟩
  · obtain ⟨c, hc, rfl⟩ := hr
    by_cases h : c = '-'
    · rw [h] at hx
      exact absurd rfl hx
    · rw [if_neg (by simpa using h)]
      exact ⟨hc, h⟩
  · obtain ⟨hc, h⟩ := hr
    exact ⟨x, hc, if_neg (by simpa using h)⟩

theorem mem_cutAcronyms (hx : x ≠ '_') : x ∈ cutAcronyms cs ↔ x ∈ cs := by
  fun_induction cutAcronyms cs with
  | case1 a b c rest h ih => simp only [List.mem_cons, ih, hx, false_or]
  | case2 a b c rest h ih => simp only [List.mem_cons, ih]
  | case3 cs h => rfl

theorem mem_cutHumps (hx : x ≠ '_') : x ∈ cutHumps cs ↔ x ∈ cs := by
  fun_induction cutHumps cs with
  | case1 a b rest h ih => simp only [List.mem_cons, ih, hx, false_or]
  | case2 a b rest h ih => simp only [List.mem_cons, ih]
  | case3 cs h => rfl

theorem mem_collapse (hx : x ≠ '_') : x ∈ collapse cs ↔ x ∈ cs := by
  fun_induction collapse cs with
  | case1 a b rest h ih =>
    have ha : a = '_' := beq_iff_eq.mp (Bool.and_eq_true _ _ ▸ h).1
    rw [ih, List.mem_cons (a := x) (b := a), ha]
    simp only [hx, false_or]
  | case2 a b rest h ih => simp only [List.mem_cons, ih]
  | case3 cs h => rfl

end Cutting

/-! ## Cleaned names -/

theorem isNameChar_of_mem_clean {cs : List Char} {c : Char} (h : c ∈ clean cs) : isNameChar c = true := by
  have core : ∀ d ∈ Text.dropEnds isEdge (cs.map (fun c => if isNameChar c then c else '_')), isNameChar d = true := by
    intro d hd
    obtain ⟨e, -, rfl⟩ := List.mem_map.mp (Text.mem_of_mem_dropEnds hd)
    split
    · assumption
    · decide
  unfold clean at h
  split at h
  · exact List.all_eq_true.mp (by decide) c h
  · rename_i d ds hcore
    rw [hcore] at core
    split at h
    · rcases List.mem_cons.mp h with rfl | h
      · decide
      · exact core c h
    · exact core c h

theorem exists_mem_clean (cs : List Char) : ∃ c ∈ clean cs, isEdge c = false := by
  unfold clean
  split
  · exact ⟨'f', by decide, by decide⟩
  · rename_i c ds hcore
    have he : isEdge c = false := Text.head_dropEnds hcore
    split
    · exact ⟨c, List.mem_cons_of_mem _ (List.mem_cons_self ..), he⟩
    · exact ⟨c, List.mem_cons_self .., he⟩

/-! ## Words -/

section Words

variable {cs : List Char} {x : Char}

theorem mem_cut (h : ∀ c ∈ cs, isNameChar c = true) {c : Char} (hc : c ∈ cutHumps (cutAcronyms (unhyphen cs))) :
    c = '_' ∨ isNameChar c = true ∧ isEdge c = false := by
  by_cases hu : c = '_'
  · exact Or.inl hu
  · obtain ⟨hcs, hh⟩ := (mem_unhyphen hu).mp ((mem_cutAcronyms hu).mp ((mem_cutHumps hu).mp hc))
    exact Or.inr ⟨h c hcs, by simp [isEdge, hu, hh]⟩

theorem lt_128_of_mem_cut (h : ∀ c ∈ cs, isNameChar c = true) :
    ∀ c ∈ cutHumps (cutAcronyms (unhyphen cs)), c.toNat < 128 := by
  intro c hc
  rcases mem_cut h hc with rfl | ⟨hn, -⟩
  · decide
  · exact lt_128_of_isNameChar hn

theorem mem_snakeChars (h : ∀ c ∈ cs, isNameChar c = true) (hx : x ≠ '_') :
    x ∈ snakeChars cs ↔ ∃ c ∈ cs, isEdge c = false ∧ c.toLower = x := by
  unfold snakeChars
  rw [Text.mem_dropEnds (p := (· == '_')) (beq_eq_false_iff_ne.mpr hx), mem_collapse hx, 
    Text.lower_of_ascii (lt_128_of_mem_cut h), List.mem_map]
  refine ⟨fun h => ?_, fun h => ?_⟩
  · obtain ⟨c, hc, rfl⟩ := h
    have hu : c ≠ '_' := by
      rintro rfl
      exact hx (by decide)
    obtain ⟨hcs, hh⟩ := (mem_unhyphen hu).mp ((mem_cutAcronyms hu).mp ((mem_cutHumps hu).mp hc))
    exact ⟨c, hcs, by simp [isEdge, hu, hh], rfl⟩
  · obtain ⟨c, hcs, he, rfl⟩ := h
    simp only [isEdge, Bool.or_eq_false_iff, beq_eq_false_iff_ne] at he
    exact ⟨c, (mem_cutHumps he.1).mpr ((mem_cutAcronyms he.1).mpr ((mem_unhyphen he.1).mpr ⟨hcs, he.2⟩)), rfl⟩

/-- The letters and digits of a name, in lower case, are what its words hold. -/
theorem mem_words (h : ∀ c ∈ cs, isNameChar c = true) :
    (∃ w ∈ words cs, x ∈ w) ↔ ∃ c ∈ cs, isEdge c = false ∧ c.toLower = x := by
  have pieces : (∃ w ∈ words cs, x ∈ w) ↔ ∃ w ∈ Text.splitWhere (· == '_') (snakeChars cs), x ∈ w := by
    unfold words Text.splitAt
    refine ⟨fun h => ?_, fun h => ?_⟩
    · obtain ⟨w, hw, hx⟩ := h
      exact ⟨w, (List.mem_filter.mp hw).1, hx⟩
    · obtain ⟨w, hw, hx⟩ := h
      refine ⟨w, List.mem_filter.mpr ⟨hw, ?_⟩, hx⟩
      cases w with
      | nil => cases hx
      | cons c w => rfl
  rw [pieces]
  by_cases hx : x = '_'
  · refine ⟨fun h => ?_, fun hr => ?_⟩
    · obtain ⟨w, hw, hxw⟩ := h
      have := Text.not_mem_of_mem_splitWhere hw hxw
      simp [hx] at this
    · obtain ⟨c, hc, he, rfl⟩ := hr
      exact absurd hx (ne_underscore_of_isLetter (isLetter_of_isWordChar (isWordChar_toLower (h c hc) he)).1)
  · rw [Text.mem_splitWhere (p := (· == '_')) (beq_eq_false_iff_ne.mpr hx), mem_snakeChars h hx]

theorem isWordChar_of_mem_words (h : ∀ c ∈ cs, isNameChar c = true) {w : List Char} (hw : w ∈ words cs) (hx : x ∈ w) :
    isWordChar x = true := by
  obtain ⟨c, hc, he, rfl⟩ := (mem_words h).mp ⟨w, hw, hx⟩
  exact isWordChar_toLower (h c hc) he

theorem ne_nil_of_mem_words {w : List Char} (hw : w ∈ words cs) : w ≠ [] := by
  rintro rfl
  simp [words] at hw

theorem words_clean_ne_nil (cs : List Char) : words (clean cs) ≠ [] := by
  obtain ⟨c, hc, he⟩ := exists_mem_clean cs
  obtain ⟨w, hw, -⟩ := (mem_words (fun _ => isNameChar_of_mem_clean)).mpr ⟨c, hc, he, rfl⟩
  exact List.ne_nil_of_mem hw

end Words

/-! ## Names in one word -/

theorem isLetter_of_mem_pascalChars {cs : List Char} {c : Char} (h : c ∈ pascalChars (clean cs)) :
    isLetter c = true := by
  unfold pascalChars at h
  obtain ⟨w, hw, hc⟩ := List.mem_flatMap.mp h
  have chars : ∀ d ∈ w, isWordChar d = true :=
    fun d hd => isWordChar_of_mem_words (fun _ => isNameChar_of_mem_clean) hw hd
  cases w with
  | nil => cases hc
  | cons d w =>
    rw [capitalize_of_isWordChar chars] at hc
    rcases List.mem_cons.mp hc with rfl | hc
    · exact (isLetter_of_isWordChar (chars d (List.mem_cons_self ..))).2
    · exact (isLetter_of_isWordChar (chars c (List.mem_cons_of_mem _ hc))).1

/-- The first letter made small. -/
def uncapitalize : List Char → List Char
  | [] => []
  | c :: cs => c.toLower :: cs

/-- The camel form and the Pascal form differ in the size of their first letter only. -/
theorem exists_first_letter (cs : List Char) :
    ∃ c rest, isWordChar c = true ∧ camelChars (clean cs) = c :: rest ∧ pascalChars (clean cs) = c.toUpper :: rest := by
  have chars : ∀ w ∈ words (clean cs), ∀ c ∈ w, isWordChar c = true := fun w hw c hc =>
    isWordChar_of_mem_words (fun _ => isNameChar_of_mem_clean) hw hc
  unfold camelChars pascalChars
  cases hwords : words (clean cs) with
  | nil => exact absurd hwords (words_clean_ne_nil cs)
  | cons w ws =>
    rw [hwords] at chars
    have hw := chars w (List.mem_cons_self ..)
    cases w with
    | nil => exact absurd rfl (ne_nil_of_mem_words (hwords ▸ List.mem_cons_self ..))
    | cons c w =>
      refine ⟨c, w ++ ws.flatMap Text.capitalize, hw c (List.mem_cons_self ..), rfl, ?_⟩
      rw [List.flatMap_cons, capitalize_of_isWordChar hw, List.cons_append]

theorem camelChars_clean (cs : List Char) : camelChars (clean cs) = uncapitalize (pascalChars (clean cs)) := by
  obtain ⟨c, rest, hc, hcamel, hpascal⟩ := exists_first_letter cs
  rw [hcamel, hpascal, uncapitalize, toLower_toUpper_of_isWordChar hc]

/-! ## Converted names -/

/-- A cleaned name in a case style. -/
def styled (style : Case) (name : String) : String := String.ofList (style.apply (clean name.toList))

theorem convert_eq (r : Rules) (name : String) (style : Case) (suffix : String) :
    r.convert name style suffix =
      if r.forbids (styled style name) then styled style name ++ suffix else styled style name := rfl

theorem convert_eq_append (r : Rules) (name : String) (style : Case) (suffix : String) :
    ∃ t, (r.convert name style suffix).toList = (styled style name).toList ++ t ∧ ∀ c ∈ t, c ∈ suffix.toList := by
  rw [convert_eq]
  split
  · exact ⟨suffix.toList, String.toList_append, fun _ => id⟩
  · exact ⟨[], (List.append_nil _).symm, by simp⟩

theorem convert_without_suffix (r : Rules) (name : String) (style : Case) :
    r.convert name style "" = styled style name := by
  rw [convert_eq]
  split
  · exact String.append_empty
  · rfl

/-- Names with one Pascal form have one camel form. -/
theorem styled_camel_eq_of_pascal {x y : String} (h : styled .pascal x = styled .pascal y) :
    styled .camel x = styled .camel y := by
  have h : pascalChars (clean x.toList) = pascalChars (clean y.toList) := String.ofList_injective h
  show String.ofList (camelChars (clean x.toList)) = String.ofList (camelChars (clean y.toList))
  rw [camelChars_clean, camelChars_clean, h]

/-- And the other way round. -/
theorem styled_pascal_eq_of_camel {x y : String} (h : styled .camel x = styled .camel y) :
    styled .pascal x = styled .pascal y := by
  have h : camelChars (clean x.toList) = camelChars (clean y.toList) := String.ofList_injective h
  obtain ⟨c, rest, -, hcamel, hpascal⟩ := exists_first_letter x.toList
  obtain ⟨d, rest', -, hcamel', hpascal'⟩ := exists_first_letter y.toList
  rw [hcamel, hcamel'] at h
  obtain ⟨rfl, rfl⟩ := List.cons.inj h
  show String.ofList (pascalChars (clean x.toList)) = String.ofList (pascalChars (clean y.toList))
  rw [hpascal, hpascal']

end SchemaForge.Naming

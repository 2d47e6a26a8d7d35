import SchemaForge.Proofs.Naming.Words

/-
What the case styles make of the letters of a name (digits are counted as letters here).

(1) Cutting puts separators in and takes separators out, and touches nothing else: without its underscores, a name in
words is its letters in order, in lower case (`letters_snakeChars`, `flatten_words`).

(2) So in every style a cleaned name begins with its first letter, whatever was put in front of it
(`styled_eq_cons`). A guard before a leading digit does not survive.

(3) All styles of a name come from its words, and the constant form spells them out. So names with one constant form
have one camel form (`styled_camel_eq_of_constant`).

(4) In every style a single word of small letters is told from all that several words give
(`camelChars_eq_iff_of_isLower`, `pascalChars_eq_iff_of_isLower`, `constantChars_eq_iff_of_isLower`): several words have
a capital, a digit or an underscore somewhere.
-/

namespace SchemaForge.Naming

/-! ## What is not a separator stays -/

section Letters

variable {cs : List Char}

/-- The letters and digits of a text. -/
def letters (cs : List Char) : List Char := cs.filter isLetter

theorem filter_unhyphen : (unhyphen cs).filter (· != '_') = cs.filter (fun c => !isEdge c) := by
  unfold unhyphen isEdge
  induction cs with
  | nil => rfl
  | cons c cs ih =>
    rw [List.map_cons, List.filter_cons, List.filter_cons, ih]
    by_cases hh : c = '-'
    · simp [hh]
    · by_cases hu : c = '_' <;> simp [hh, hu]

theorem filter_cutAcronyms : (cutAcronyms cs).filter (· != '_') = cs.filter (· != '_') := by
  fun_induction cutAcronyms cs with
  | case1 a b c rest h ih => simp only [List.filter_cons, ih]; rfl
  | case2 a b c rest h ih => simp only [List.filter_cons, ih]
  | case3 cs h => rfl

theorem filter_cutHumps : (cutHumps cs).filter (· != '_') = cs.filter (· != '_') := by
  fun_induction cutHumps cs with
  | case1 a b rest h ih => simp only [List.filter_cons, ih]; rfl
  | case2 a b rest h ih => simp only [List.filter_cons, ih]
  | case3 cs h => rfl

theorem filter_collapse : (collapse cs).filter (· != '_') = cs.filter (· != '_') := by
  fun_induction collapse cs with
  | case1 a b rest h ih =>
    have ha : a = '_' := beq_iff_eq.mp (Bool.and_eq_true _ _ ▸ h).1
    rw [ih, ha]
    rfl
  | case2 a b rest h ih => simp only [List.filter_cons, ih]
  | case3 cs h => rfl

theorem toLower_ne_underscore {c : Char} (hc : c.toNat < 128) : (c.toLower != '_') = (c != '_') := by
  have := Text.of_ascii (p := fun c => (c.toLower != '_') == (c != '_')) (by decide +kernel) hc
  simpa using this

/-- Only the letters are left of a text of name characters when its separators are gone. -/
theorem filter_not_isEdge (h : ∀ c ∈ cs, isNameChar c = true) : cs.filter (fun c => !isEdge c) = letters cs := by
  refine List.filter_congr (fun c hc => ?_)
  simp [isLetter, h c hc]

theorem letters_snakeChars (h : ∀ c ∈ cs, isNameChar c = true) :
    (snakeChars cs).filter (· != '_') = (letters cs).map Char.toLower := by
  unfold snakeChars
  rw [Text.filter_dropEnds (by simp), filter_collapse, Text.lower_of_ascii (lt_128_of_mem_cut h), List.filter_map,
    Function.comp_def, List.filter_congr (fun c hc => toLower_ne_underscore (lt_128_of_mem_cut h c hc)),
    filter_cutHumps, filter_cutAcronyms, filter_unhyphen, filter_not_isEdge h]

theorem flatten_words (h : ∀ c ∈ cs, isNameChar c = true) : (words cs).flatten = (letters cs).map Char.toLower := by
  rw [← letters_snakeChars h]
  unfold words Text.splitAt
  rw [List.flatten_filter_not_isEmpty, Text.flatten_splitWhere]
  rfl

end Letters

/-! ## The first letter -/

section FirstLetter

variable {cs ds : List Char} {c : Char}

theorem isLetter_of_isEdge (h : isEdge c = true) : isLetter c = false := by simp [isLetter, h]

theorem letters_covered : letters (cs.map (fun c => if isNameChar c then c else '_')) = letters cs := by
  unfold letters
  induction cs with
  | nil => rfl
  | cons c cs ih =>
    rw [List.map_cons, List.filter_cons, List.filter_cons, ih]
    by_cases hc : isNameChar c = true
    · rw [if_pos hc]
    · have hu : isLetter '_' = false := by decide
      rw [if_neg hc, hu]
      simp [isLetter, hc]

theorem letters_clean_ne_nil (cs : List Char) : letters (clean cs) ≠ [] := by
  obtain ⟨c, hc, he⟩ := exists_mem_clean cs
  exact List.ne_nil_of_mem (List.mem_filter.mpr ⟨hc, by simp [isLetter, isNameChar_of_mem_clean hc, he]⟩)

/-- Cleaning loses no letter, and a name without letters gets some. -/
theorem letters_clean (cs : List Char) :
    letters (clean cs) = if letters cs = [] then "field".toList else letters cs := by
  have core : letters (Text.dropEnds isEdge (cs.map (fun c => if isNameChar c then c else '_'))) = letters cs :=
    (Text.filter_dropEnds (fun _ => isLetter_of_isEdge)).trans letters_covered
  cases hcore : Text.dropEnds isEdge (cs.map (fun c => if isNameChar c then c else '_')) with
  | nil =>
    have hnil : letters cs = [] := by
      rw [← core, hcore]
      rfl
    rw [if_pos hnil, clean, hcore]
    decide
  | cons c ds =>
    have hclean : letters (clean cs) = letters cs := by
      rw [← core, clean, hcore]
      simp only
      split
      · exact List.filter_cons_of_neg (by decide)
      · rfl
    have hne := letters_clean_ne_nil cs
    rw [hclean] at hne
    rw [hclean, if_neg hne]

/-- The first letter of a name is a digit. -/
def leadsWithDigit (name : String) : Bool := (name.toList.find? isLetter).any isDigit

theorem letters_clean_eq_cons (name : String) :
    ∃ c ds, letters (clean name.toList) = c :: ds ∧ isDigit c = leadsWithDigit name := by
  rw [letters_clean]
  unfold leadsWithDigit
  rw [← List.head?_filter]
  show ∃ c ds, _ ∧ isDigit c = (letters name.toList).head?.any isDigit
  cases letters name.toList with
  | nil => exact ⟨'f', "ield".toList, by decide, by decide⟩
  | cons c ds => exact ⟨c, ds, if_neg (List.cons_ne_nil c ds), rfl⟩

theorem snakeChars_eq_cons (h : ∀ c ∈ cs, isNameChar c = true) (hcs : letters cs = c :: ds) :
    ∃ es, snakeChars cs = c.toLower :: es := by
  have hletters := letters_snakeChars h
  rw [hcs, List.map_cons] at hletters
  cases hsnake : snakeChars cs with
  | nil =>
    rw [hsnake] at hletters
    cases hletters
  | cons d es =>
    have hd : d ≠ '_' := by simpa using Text.head_dropEnds hsnake
    rw [hsnake, List.filter_cons_of_pos (by simpa using hd)] at hletters
    exact ⟨es, by rw [(List.cons.inj hletters).1]⟩

theorem words_eq_cons (h : ∀ c ∈ cs, isNameChar c = true) (hcs : letters cs = c :: ds) :
    ∃ w ws, words cs = (c.toLower :: w) :: ws := by
  have hflatten := flatten_words h
  rw [hcs, List.map_cons] at hflatten
  cases hwords : words cs with
  | nil =>
    rw [hwords] at hflatten
    cases hflatten
  | cons w ws =>
    cases w with
    | nil => exact absurd rfl (ne_nil_of_mem_words (hwords ▸ List.mem_cons_self ..))
    | cons d w =>
      rw [hwords] at hflatten
      exact ⟨w, ws, by rw [(List.cons.inj hflatten).1]⟩

/-- What a converted name is written with before any suffix. -/
theorem mem_snakeChars_clean {x : Char} (hx : x ∈ snakeChars (clean cs)) : x = '_' ∨ isWordChar x = true := by
  by_cases hu : x = '_'
  · exact Or.inl hu
  · obtain ⟨c, hc, he, rfl⟩ := (mem_snakeChars (fun _ => isNameChar_of_mem_clean) hu).mp hx
    exact Or.inr (isWordChar_toLower (isNameChar_of_mem_clean hc) he)

theorem lt_128_of_mem_snakeChars {x : Char} (hx : x ∈ snakeChars (clean cs)) : x.toNat < 128 := by
  rcases mem_snakeChars_clean hx with rfl | hx
  · decide
  · exact lt_128_of_isWordChar hx

theorem constantChars_clean (cs : List Char) : constantChars (clean cs) = (snakeChars (clean cs)).map Char.toUpper :=
  Text.upper_of_ascii (fun _ => lt_128_of_mem_snakeChars)

theorem isDigit_toLower {c : Char} (hc : c.toNat < 128) : isDigit c.toLower = isDigit c := by
  have := Text.of_ascii (p := fun c => isDigit c.toLower == isDigit c) (by decide +kernel) hc
  simpa using this

theorem isDigit_toUpper {c : Char} (hc : c.toNat < 128) : isDigit c.toUpper = isDigit c := by
  have := Text.of_ascii (p := fun c => isDigit c.toUpper == isDigit c) (by decide +kernel) hc
  simpa using this

/-- In every style a name begins with a digit exactly when its first letter is one. -/
theorem styled_eq_cons (style : Case) (name : String) :
    ∃ d ds, (styled style name).toList = d :: ds ∧ isDigit d = leadsWithDigit name := by
  obtain ⟨c, ds, hletters, hdigit⟩ := letters_clean_eq_cons name
  have chars : ∀ c ∈ clean name.toList, isNameChar c = true := fun _ => isNameChar_of_mem_clean
  have hc : isNameChar c = true ∧ isEdge c = false := by
    have : c ∈ letters (clean name.toList) := hletters ▸ List.mem_cons_self ..
    simpa [isLetter] using (List.mem_filter.mp this).2
  have hlower : isWordChar c.toLower = true := isWordChar_toLower hc.1 hc.2
  have hsmall : isDigit c.toLower = leadsWithDigit name := (isDigit_toLower (lt_128_of_isNameChar hc.1)).trans hdigit
  have hlarge : isDigit c.toLower.toUpper = leadsWithDigit name :=
    (isDigit_toUpper (lt_128_of_isWordChar hlower)).trans hsmall
  rw [styled, String.toList_ofList]
  cases style with
  | snake =>
    obtain ⟨es, hes⟩ := snakeChars_eq_cons chars hletters
    exact ⟨_, es, hes, hsmall⟩
  | camel =>
    obtain ⟨w, ws, hwords⟩ := words_eq_cons chars hletters
    refine ⟨c.toLower, w ++ ws.flatMap Text.capitalize, ?_, hsmall⟩
    show camelChars (clean name.toList) = _
    simp only [camelChars, hwords, List.cons_append]
  | pascal =>
    obtain ⟨w, ws, hwords⟩ := words_eq_cons chars hletters
    have hw : ∀ d ∈ c.toLower :: w, isWordChar d = true :=
      fun d hd => isWordChar_of_mem_words chars (hwords ▸ List.mem_cons_self ..) hd
    refine ⟨c.toLower.toUpper, w ++ ws.flatMap Text.capitalize, ?_, hlarge⟩
    show pascalChars (clean name.toList) = _
    rw [pascalChars, hwords, List.flatMap_cons, capitalize_of_isWordChar hw, List.cons_append]
  | screamingSnake =>
    obtain ⟨es, hes⟩ := snakeChars_eq_cons chars hletters
    refine ⟨c.toLower.toUpper, es.map Char.toUpper, ?_, hlarge⟩
    show constantChars (clean name.toList) = _
    rw [constantChars_clean, hes, List.map_cons]

end FirstLetter

/-! ## The characters of a converted name -/

def isIdentifierChar (c : Char) : Bool := isLetter c || c == '_'

theorem isLetter_of_mem_uncapitalize {cs : List Char} {c : Char} (h : ∀ d ∈ cs, isLetter d = true)
    (hc : c ∈ uncapitalize cs) : isLetter c = true := by
  cases cs with
  | nil => cases hc
  | cons d cs =>
    rcases List.mem_cons.mp hc with rfl | hc
    · have hd := h d (List.mem_cons_self ..)
      rw [isLetter, Bool.and_eq_true, Bool.not_eq_true'] at hd
      exact (isLetter_of_isWordChar (isWordChar_toLower hd.1 hd.2)).1
    · exact h c (List.mem_cons_of_mem _ hc)

theorem isLetter_of_mem_camelChars {cs : List Char} {c : Char} (h : c ∈ camelChars (clean cs)) : isLetter c = true := by
  rw [camelChars_clean] at h
  exact isLetter_of_mem_uncapitalize (fun _ => isLetter_of_mem_pascalChars) h

theorem isIdentifierChar_of_mem_styled {style : Case} {name : String} {c : Char}
    (hc : c ∈ (styled style name).toList) : isIdentifierChar c = true := by
  have hletter : isLetter c = true → isIdentifierChar c = true := by
    intro h
    simp [isIdentifierChar, h]
  rw [styled, String.toList_ofList] at hc
  cases style with
  | snake =>
    rcases mem_snakeChars_clean hc with rfl | hc
    · decide
    · exact hletter (isLetter_of_isWordChar hc).1
  | camel =>
    have hc : c ∈ camelChars (clean name.toList) := hc
    exact hletter (isLetter_of_mem_camelChars hc)
  | pascal => exact hletter (isLetter_of_mem_pascalChars hc)
  | screamingSnake =>
    have hc : c ∈ constantChars (clean name.toList) := hc
    rw [constantChars_clean] at hc
    obtain ⟨d, hd, rfl⟩ := List.mem_map.mp hc
    rcases mem_snakeChars_clean hd with rfl | hd
    · decide
    · exact hletter (isLetter_of_isWordChar hd).2

/-- A suffix without letters leaves the letters of a name in camel case as they are. -/
theorem letters_convert_camel {r : Rules} {name suffix : String} (h : ∀ c ∈ suffix.toList, isLetter c = false) :
    letters (r.convert name .camel suffix).toList = (styled .camel name).toList := by
  obtain ⟨t, heq, hmem⟩ := convert_eq_append r name .camel suffix
  have hname : letters (styled .camel name).toList = (styled .camel name).toList := by
    have hchars : (styled .camel name).toList = camelChars (clean name.toList) := String.toList_ofList
    rw [hchars]
    exact List.filter_eq_self.mpr fun c hc => isLetter_of_mem_camelChars hc
  have hadded : letters t = [] := List.filter_eq_nil_iff.mpr fun c hc => by simp [h c (hmem c hc)]
  unfold letters at hname hadded ⊢
  rw [heq, List.filter_append, hname, hadded, List.append_nil]

/-! ## From one style to another -/

/-- A name in constants tells its words. -/
theorem map_toLower_constantChars (cs : List Char) :
    (constantChars (clean cs)).map Char.toLower = snakeChars (clean cs) := by
  rw [constantChars_clean, List.map_map]
  conv => rhs; rw [← List.map_id (snakeChars (clean cs))]
  refine List.map_congr_left (fun c hc => ?_)
  rcases mem_snakeChars_clean hc with rfl | hc
  · decide
  · exact toLower_toUpper_of_isWordChar hc

/-- Names with one constant form have one camel form. -/
theorem styled_camel_eq_of_constant {x y : String} (h : styled .screamingSnake x = styled .screamingSnake y) :
    styled .camel x = styled .camel y := by
  have hconstant : constantChars (clean x.toList) = constantChars (clean y.toList) := String.ofList_injective h
  have hsnake : snakeChars (clean x.toList) = snakeChars (clean y.toList) := by
    rw [← map_toLower_constantChars, hconstant, map_toLower_constantChars]
  have hwords : words (clean x.toList) = words (clean y.toList) := by
    unfold words
    rw [hsnake]
  refine styled_camel_eq_of_pascal ?_
  show String.ofList ((words (clean x.toList)).flatMap Text.capitalize) = _
  rw [hwords]
  rfl

/-! ## Names of one word -/

/-- The words of a name. -/
def wordsOf (name : String) : List String := (words (clean name.toList)).map String.ofList

theorem wordsOf_eq_singleton {name word : String} : wordsOf name = [word] ↔ words (clean name.toList) = [word.toList] := by
  unfold wordsOf
  refine ⟨fun h => ?_, fun h => by rw [h, List.map_singleton, String.ofList_toList]⟩
  obtain ⟨w, hw, rfl⟩ := List.map_eq_singleton_iff.mp h
  rw [hw, String.toList_ofList]

theorem not_isLower_toUpper {c : Char} (h : c = '_' ∨ isWordChar c = true) : isLower c.toUpper = false := by
  have hc : c.toNat < 128 := by
    rcases h with rfl | h
    · decide
    · exact lt_128_of_isWordChar h
  have := Text.of_ascii (p := fun c => !isLower c.toUpper) (by decide +kernel) hc
  simpa using this

section OneWord

variable {cs w : List Char}

theorem camelChars_eq_iff_of_isLower (hw : ∀ c ∈ w, isLower c = true) :
    camelChars (clean cs) = w ↔ words (clean cs) = [w] := by
  have chars : ∀ v ∈ words (clean cs), ∀ c ∈ v, isWordChar c = true := fun v hv c hc =>
    isWordChar_of_mem_words (fun _ => isNameChar_of_mem_clean) hv hc
  unfold camelChars
  cases hwords : words (clean cs) with
  | nil => exact absurd hwords (words_clean_ne_nil cs)
  | cons first rest =>
    cases rest with
    | nil => simp
    | cons v rest =>
      -- The capital of the second word would be one of the small letters.
      refine iff_of_false (fun h => ?_) (by simp)
      rw [hwords] at chars
      have hv := chars v (by simp)
      cases v with
      | nil =>
        have hmem : [] ∈ words (clean cs) := by simp [hwords]
        exact absurd rfl (ne_nil_of_mem_words hmem)
      | cons c v =>
        have hmem : c.toUpper ∈ w := by
          rw [← h]
          simp [capitalize_of_isWordChar hv]
        have hlarge := not_isLower_toUpper (Or.inr (hv c (List.mem_cons_self ..)))
        rw [hw _ hmem] at hlarge
        cases hlarge

theorem isWordChar_of_isLower {c : Char} (h : isLower c = true) : isWordChar c = true := by simp [isWordChar, h]

theorem pascalChars_eq_iff_of_isLower (hw : ∀ c ∈ w, isLower c = true) :
    pascalChars (clean cs) = Text.capitalize w ↔ words (clean cs) = [w] := by
  refine ⟨fun h => ?_, fun h => by simp [pascalChars, h]⟩
  rw [← camelChars_eq_iff_of_isLower hw, camelChars_clean, h]
  cases w with
  | nil => rfl
  | cons c w =>
    rw [capitalize_of_isWordChar fun d hd => isWordChar_of_isLower (hw d hd)]
    show c.toUpper.toLower :: w = c :: w
    rw [toLower_toUpper_of_isWordChar (isWordChar_of_isLower (hw c (List.mem_cons_self ..)))]

theorem filter_splitAt_ne_nil (h : ∃ c ∈ cs, (c == '_') = false) :
    (Text.splitAt '_' cs).filter (fun w => !w.isEmpty) ≠ [] := by
  obtain ⟨c, hc, hne⟩ := h
  obtain ⟨w, hw, hcw⟩ := (Text.mem_splitWhere (p := (· == '_')) hne).mpr hc
  refine List.ne_nil_of_mem (List.mem_filter.mpr ⟨hw, ?_⟩)
  cases w with
  | nil => cases hcw
  | cons d w => rfl

/-- There is a word on either side of a separator, since the ends are none. -/
theorem not_mem_snakeChars_of_words (h : words (clean cs) = [w]) : '_' ∉ snakeChars (clean cs) := by
  intro hmem
  obtain ⟨before, after, hsnake⟩ := List.append_of_mem hmem
  have hbefore : ∃ c ∈ before, (c == '_') = false := by
    cases before with
    | nil => exact absurd (Text.head_dropEnds (p := (· == '_')) hsnake) (by decide)
    | cons c before => exact ⟨c, List.mem_cons_self .., Text.head_dropEnds (p := (· == '_')) hsnake⟩
  have hafter : ∃ c ∈ after, (c == '_') = false := by
    rcases List.eq_nil_or_concat after with rfl | ⟨init, c, rfl⟩
    · exact absurd (Text.last_dropEnds (p := (· == '_')) hsnake) (by decide)
    · rw [List.concat_eq_append, ← List.cons_append, ← List.append_assoc] at hsnake
      exact ⟨c, by simp, Text.last_dropEnds (p := (· == '_')) hsnake⟩
  rw [words, hsnake, Text.splitAt_append_cons, List.filter_append] at h
  rcases List.append_eq_singleton_iff.mp h with ⟨hnil, -⟩ | ⟨-, hnil⟩
  · exact filter_splitAt_ne_nil hbefore hnil
  · exact filter_splitAt_ne_nil hafter hnil

theorem snakeChars_eq_of_words (h : words (clean cs) = [w]) : snakeChars (clean cs) = w := by
  have hplain : '_' ∉ snakeChars (clean cs) := not_mem_snakeChars_of_words h
  rw [words, Text.splitAt_of_not_mem hplain] at h
  have hmem : w ∈ [snakeChars (clean cs)] := (List.mem_filter.mp (h ▸ List.mem_singleton_self w)).1
  exact (List.mem_singleton.mp hmem).symm

theorem constantChars_eq_iff_of_isLower (hw : ∀ c ∈ w, isLower c = true) :
    constantChars (clean cs) = w.map Char.toUpper ↔ words (clean cs) = [w] := by
  refine ⟨fun h => ?_, fun h => by rw [constantChars_clean, snakeChars_eq_of_words h]⟩
  have hsmall : (w.map Char.toUpper).map Char.toLower = w := by
    rw [List.map_map]
    conv => rhs; rw [← List.map_id w]
    exact List.map_congr_left fun c hc => toLower_toUpper_of_isWordChar (isWordChar_of_isLower (hw c hc))
  have hsnake : snakeChars (clean cs) = w := by rw [← map_toLower_constantChars, h, hsmall]
  have hplain : '_' ∉ w := fun hmem => absurd (hw _ hmem) (by decide)
  have hne := words_clean_ne_nil cs
  rw [words, hsnake, Text.splitAt_of_not_mem hplain] at hne ⊢
  cases w with
  | nil => exact absurd rfl hne
  | cons c w => rfl

end OneWord

end SchemaForge.Naming

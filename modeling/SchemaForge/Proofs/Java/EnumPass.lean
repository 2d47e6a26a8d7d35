import SchemaForge.Proofs.Java.EnumSource
import SchemaForge.Proofs.Java.NameLiterals
import SchemaForge.Proofs.Java.Refusals
import SchemaForge.Proofs.Naming.Identifiers
import SchemaForge.Text.Identifier

/-
The enum pass as a whole. It ends in one of three ways (`outcome_enumPass`): nothing is selected, because the selected
type is not in the schema; the first selected enum with a repeated value is refused; or each selected enum is declared
under its own name. Then the text of a generation is read as the enums that were selected, in the order of the schema
and with the values they have (`enums_of_generate`).
-/

namespace SchemaForge

open Generation Generation.Pass Naming

/-! ## Words -/

/-- Code points of blanks, commas and braces. -/
def Text.breakPoints : List Nat :=
  List.range' 9 5 ++ List.range' 28 5 ++ List.range' 0x2000 11 ++
    [0x85, 0xA0, 0x1680, 0x2028, 0x2029, 0x202F, 0x205F, 0x3000, 44, 123, 125]

theorem Text.mem_breakPoints {c : Char} (h : Text.isBlank c = true ∨ c = ',' ∨ c = '\x7b' ∨ c = '\x7d') :
    c.toNat ∈ breakPoints := by
  rcases h with h | rfl | rfl | rfl
  · simp only [isBlank, Bool.or_eq_true, Bool.and_eq_true, decide_eq_true_eq, beq_iff_eq] at h
    simp only [breakPoints, List.mem_append, List.mem_range'_1, List.mem_cons, List.not_mem_nil, or_false]
    omega
  · decide
  · decide
  · decide

/-- An enum with texts for its name and its values, and values that are identifiers. -/
structure EnumType.Plain (e : EnumType) : Prop where
  name : ∃ n, e.name = .str n
  values : ∀ v ∈ e.values, ∃ n, v = .str n ∧ Text.isIdentifier n = true

/-- A value is declared twice. -/
def EnumType.repeats (e : EnumType) : Bool := !distinct e.values

namespace Java

theorem bodyWord_of_forall {word : List Char} (hne : word ≠ []) (h : ∀ c ∈ word, c.toNat ∉ Text.breakPoints) :
    BodyWord word where
  ne_nil := hne
  solid c hc := Bool.eq_false_iff.mpr fun hblank => h c hc (Text.mem_breakPoints (Or.inl hblank))
  single hc := h _ hc (Text.mem_breakPoints (Or.inr (Or.inl rfl)))
  unopened hc := h _ hc (Text.mem_breakPoints (Or.inr (Or.inr (Or.inl rfl))))
  unclosed hc := h _ hc (Text.mem_breakPoints (Or.inr (Or.inr (Or.inr rfl))))

theorem bodyWord_of_isIdentifier {name : String} (h : Text.isIdentifier name = true) : BodyWord name.toList := by
  have hstart : ∀ n ∈ Text.breakPoints, Text.Runs.has Text.identifierStartRuns n = false := by decide +kernel
  have hcontinue : ∀ n ∈ Text.breakPoints, Text.Runs.has Text.identifierContinueRuns n = false := by decide +kernel
  unfold Text.isIdentifier at h
  cases hname : name.toList with
  | nil =>
    rw [hname] at h
    cases h
  | cons c cs =>
    rw [hname] at h
    obtain ⟨hc, hcs⟩ := Bool.and_eq_true_iff.mp h
    refine bodyWord_of_forall (List.cons_ne_nil c cs) (List.forall_mem_cons.mpr ⟨fun hmem => ?_, fun d hd hmem => ?_⟩)
    · rw [hstart _ hmem] at hc
      cases hc
    · have := List.all_eq_true.mp hcs d hd
      rw [hcontinue _ hmem] at this
      cases this

theorem bodyWord_given (asked : List String) (n : String) : BodyWord (given rules asked n).toList := by
  obtain ⟨d, ds, hnth, -⟩ := nth_eq_cons rules ⟨n, .pascal, "_"⟩ (rank (pascalBase rules) asked n)
  have hname : (given rules asked n).toList = d :: ds := hnth
  have hpoints : ∀ m ∈ Text.breakPoints, m < 45 ∨ 122 < m := by decide
  refine bodyWord_of_forall (hname ▸ List.cons_ne_nil d ds) fun c hc hmem => ?_
  have hrange := range_of_isNameChar (isNameChar_of_mem_nthName hc)
  have := hpoints _ hmem
  omega

/-! ## One enum -/

variable {settings : Settings} {schema : Schema} {mapper : TypeMapper} {e : EnumType}

theorem distinct_iff_nodup {vs : List Json} (htexts : ∀ v ∈ vs, ∃ n, v = .str n) : distinct vs = true ↔ vs.Nodup := by
  induction vs with
  | nil => simp [distinct]
  | cons v vs ih =>
    obtain ⟨-, hvs⟩ := List.forall_mem_cons.mp htexts
    have hmem : vs.contains v = true ↔ v ∈ vs := by
      rw [List.contains_iff_exists_mem_beq]
      refine ⟨fun ⟨w, hw, heq⟩ => ?_, fun hv => ⟨v, hv, ?_⟩⟩
      · obtain ⟨n, rfl⟩ := hvs w hw
        rwa [Json.beq_str_iff.mp heq]
      · obtain ⟨n, rfl⟩ := hvs v hv
        exact Json.beq_str_iff.mpr rfl
    rw [distinct, List.nodup_cons, Bool.and_eq_true, ih hvs, Bool.not_eq_true', Bool.eq_false_iff, Ne, hmem]

theorem distinctValues_of_plain (he : e.Plain) : distinctValues e.values = .ok (distinct e.values) := by
  have hkeys : ∀ vs : List Json, (∀ v ∈ vs, v.isScalar = true) → vs.mapM Json.toKey = .ok vs := by
    intro vs hvs
    induction vs with
    | nil => rfl
    | cons v vs ih =>
      obtain ⟨hv, hvs⟩ := List.forall_mem_cons.mp hvs
      rw [List.mapM_cons, ih hvs, show v.toKey = .ok v from if_pos hv]
      rfl
  unfold distinctValues
  rw [hkeys e.values fun v hv => by obtain ⟨n, rfl, -⟩ := he.values v hv; rfl]
  rfl

theorem repeats_iff (he : e.Plain) : e.repeats = true ↔ ¬ e.values.Nodup := by
  have htexts : ∀ v ∈ e.values, ∃ n, v = .str n := by
    intro v hv
    obtain ⟨n, hn, -⟩ := he.values v hv
    exact ⟨n, hn⟩
  rw [EnumType.repeats, ← distinct_iff_nodup htexts, Bool.not_eq_true', Bool.not_eq_true]

theorem outcome_enumText_of_repeats (he : e.Plain) (h : e.repeats = true) (s : Session) :
    outcome (enumText settings e) s = .error (.repeatedEnumValue e.name) := by
  have hcheck : (!distinct e.values) = true := h
  unfold enumText
  rw [outcome_bind (yields_ofFault.mpr ⟨distinctValues_of_plain he, rfl⟩), if_pos hcheck]
  rfl

theorem delivers_enumText (settings : Settings) (he : e.Plain) (h : e.repeats = false) :
    Delivers (enumText settings e) fun _ => True := by
  have hcheck : ¬ (!distinct e.values) = true := Bool.eq_false_iff.mp h
  unfold enumText
  refine delivers_bind (delivers_ofFault (distinctValues_of_plain he) (P := (· = distinct e.values)) rfl) fun b hb => ?_
  rw [hb, if_neg hcheck]
  refine delivers_bind (delivers_note _ _) fun _ _ => delivers_bind (delivers_className he.name) fun name _ => ?_
  exact fun s => ⟨_, s, yields_render.mpr ⟨render_enumTemplate _ name e, rfl⟩, trivial⟩

/-! ## The pass -/

/-- The name and the values of an enum, as they are written. -/
def writtenEnum (settings : Settings) (schema : Schema) (e : EnumType) : String × List String :=
  (given rules (asked settings schema .enums) e.name.display, e.values.map Json.display)

def declarationOf (settings : Settings) (schema : Schema) (e : EnumType) : String :=
  EnumSource.declaration (commented settings) (writtenEnum settings schema e).1 (writtenEnum settings schema e).2

theorem yields_enumPass {s t : Session} {text : String} (h : Yields (enumPass settings schema) s text t) :
    ∃ enums, selectedEnums settings schema = .ok enums ∧
      text = fileOf (headText settings.packageName []) ((Entries.values enums).map (declarationOf settings schema)) := by
  obtain ⟨enums, head, bodies, henums, hhead, hbodies, rfl⟩ := bodies_of_enumPass h
  obtain rfl : headText settings.packageName [] = head :=
    Except.ok.inj ((render_packageTemplate settings.packageName []).symm.trans hhead)
  refine ⟨enums, henums, congrArg (fileOf _) (eq_map_of_forall₂ (hbodies.imp fun e body hbody => ?_))⟩
  rw [render_enumTemplate] at hbody
  exact (Except.ok.inj hbody).symm

section Outcomes

variable {enums : List (Json × EnumType)} {s : Session} (hmapper : newMapper settings schema = .ok mapper)
include hmapper

/-- The head of the file is written before the selection is looked at. -/
theorem exists_outcome_enumPass (s : Session) : ∃ t, outcome (enumPass settings schema) s = outcome (do
    let enums ← Generator.ofExcept (selectedEnums settings schema)
    return fileOf (headText settings.packageName []) (← (Entries.values enums).mapM (enumText settings))) t := by
  obtain ⟨t, hstart⟩ : ∃ t, Yields (startMapper settings schema) s mapper t :=
    ⟨_, yields_bind.mpr ⟨(), _, yields_resetNames.mpr rfl, yields_ofFault.mpr ⟨hmapper, rfl⟩⟩⟩
  have hhead : Yields (fileHead settings []) t (headText settings.packageName []) t :=
    yields_render.mpr ⟨render_packageTemplate settings.packageName [], rfl⟩
  exact ⟨t, by rw [enumPass, outcome_bind hstart, outcome_bind hhead]⟩

theorem outcome_enumPass_of_unselected {f : Failure} (h : selectedEnums settings schema = .error f) :
    outcome (enumPass settings schema) s = .error f := by
  obtain ⟨t, ht⟩ := exists_outcome_enumPass hmapper s
  rw [ht, h]
  exact outcome_bind_error rfl

variable (h : selectedEnums settings schema = .ok enums) (hplain : ∀ e ∈ Entries.values enums, e.Plain)
include h hplain

/-- The first enum with a repeated value is refused. -/
theorem outcome_enumPass_of_repeats (hfound : (Entries.values enums).find? EnumType.repeats = some e) :
    outcome (enumPass settings schema) s = .error (.repeatedEnumValue e.name) := by
  obtain ⟨t, ht⟩ := exists_outcome_enumPass hmapper s
  rw [ht, h, outcome_bind (yields_ofExcept.mpr ⟨rfl, rfl⟩)]
  exact outcome_bind_error (outcome_mapM_of_refused (e := fun e => .repeatedEnumValue e.name)
    (fun e he hpasses => delivers_enumText settings (hplain e he) hpasses)
    (fun e he hfails => outcome_enumText_of_repeats (hplain e he) hfails) hfound t)

theorem outcome_enumPass_of_distinct (hdistinct : ∀ e ∈ Entries.values enums, e.repeats = false) :
    outcome (enumPass settings schema) s = .ok (fileOf (headText settings.packageName [])
      ((Entries.values enums).map (declarationOf settings schema))) := by
  obtain ⟨t, ht⟩ := exists_outcome_enumPass hmapper s
  obtain ⟨bodies, u, hbodies, -⟩ :=
    delivers_mapM (fun e he => delivers_enumText settings (hplain e he) (hdistinct e he)) t
  have hpass : outcome (enumPass settings schema) s = .ok (fileOf (headText settings.packageName []) bodies) := by
    rw [ht, h, outcome_bind (yields_ofExcept.mpr ⟨rfl, rfl⟩), outcome_bind hbodies]
    rfl
  obtain ⟨v, hyields⟩ := exists_yields_of_outcome hpass
  obtain ⟨enums', henums', htext⟩ := yields_enumPass hyields
  obtain rfl : enums = enums' := Except.ok.inj (h.symm.trans henums')
  rw [hpass, htext]

end Outcomes

/-! ## The text -/

/-- A type is selected that the schema does not have. -/
def Undefined (settings : Settings) (schema : Schema) : Prop :=
  settings.selectedType.truthy = true ∧ schema.isModel settings.selectedType = false ∧
    schema.isEnum settings.selectedType = false

/-- An enum in scope has a value twice. -/
def Repeats (settings : Settings) (schema : Schema) : Prop :=
  ∃ enums, selectedEnums settings schema = .ok enums ∧ ∃ e ∈ Entries.values enums, ¬ e.values.Nodup

theorem selectedEnums_of_undefined (hkey : settings.selectedType.isScalar = true) (h : Undefined settings schema) :
    selectedEnums settings schema = .error (.undefinedSelection settings.selectedType) := by
  obtain ⟨htruthy, hmodel, henum⟩ := h
  have hnone : Entries.get? settings.selectedType schema.enums = none := Entries.get?_eq_none_iff_has.mpr henum
  unfold selectedEnums select
  rw [htruthy, hkey, hnone]
  exact if_neg (Bool.eq_false_iff.mp hmodel)

theorem exists_selectedEnums (hkey : settings.selectedType.truthy = true → settings.selectedType.isScalar = true)
    (h : ¬ Undefined settings schema) : ∃ enums, selectedEnums settings schema = .ok enums := by
  simp only [selectedEnums, select_eq_ok_iff]
  cases htruthy : settings.selectedType.truthy with
  | false => exact ⟨_, .all htruthy⟩
  | true =>
    cases hfound : Entries.get? settings.selectedType schema.enums with
    | some e => exact ⟨_, .one htruthy (hkey htruthy) hfound⟩
    | none =>
      have henum : Entries.has settings.selectedType schema.enums = false := Entries.get?_eq_none_iff_has.mp hfound
      have hmodel : Entries.has settings.selectedType schema.models = true := by
        rw [← Bool.not_eq_false]
        exact fun hmodel => h ⟨htruthy, hmodel, henum⟩
      exact ⟨[], .other htruthy (hkey htruthy) henum hmodel⟩

theorem bodyWord_writtenEnum (settings : Settings) (schema : Schema) (he : e.Plain) :
    BodyWord (writtenEnum settings schema e).1.toList ∧ ∀ v ∈ (writtenEnum settings schema e).2, BodyWord v.toList := by
  refine ⟨bodyWord_given _ _, fun v hv => ?_⟩
  obtain ⟨w, hw, rfl⟩ := List.mem_map.mp hv
  obtain ⟨n, rfl, hn⟩ := he.values w hw
  exact bodyWord_of_isIdentifier hn

theorem values_writtenEnum (he : e.Plain) : (writtenEnum settings schema e).2.map Json.str = e.values := by
  show (e.values.map Json.display).map Json.str = e.values
  rw [List.map_map]
  refine (List.map_congr_left fun v hv => ?_).trans (List.map_id _)
  obtain ⟨n, rfl, -⟩ := he.values v hv
  rfl

theorem tidy_enums {enums : List EnumType} (hplain : ∀ e ∈ enums, e.Plain) :
    tidy (fileOf (headText settings.packageName []) (enums.map (declarationOf settings schema))) =
      tidy (headText settings.packageName []) ++ EnumSource.declarations (enums.map (declarationOf settings schema)) := by
  refine tidy_fileOf settings.packageName (fun d hd => ?_) (fun d hd => ?_)
  · obtain ⟨e, -, rfl⟩ := List.mem_map.mp hd
    exact EnumSource.framed_declaration _ _ _
  · obtain ⟨e, he, rfl⟩ := List.mem_map.mp hd
    obtain ⟨hname, hvalues⟩ := bodyWord_writtenEnum settings schema (hplain e he)
    exact EnumSource.tidyChars_declaration hname hvalues

theorem enums?_of_plain {enums : List EnumType} (hplain : ∀ e ∈ enums, e.Plain) :
    enums? (EnumSource.declarations (enums.map (declarationOf settings schema))).toList =
      some (enums.map (writtenEnum settings schema)) := by
  have hwords : ∀ x ∈ enums.map (writtenEnum settings schema), BodyWord x.1.toList ∧ ∀ v ∈ x.2, BodyWord v.toList :=
    List.forall_mem_map.mpr fun e he => bodyWord_writtenEnum settings schema (hplain e he)
  have hread := EnumSource.enums?_declarations (commented settings) hwords
  rwa [List.map_map] at hread

/-- Enums of a document are written under different names. -/
theorem nodup_writtenEnum {d : Json} {enums : List (Json × EnumType)} (hd : Schema.ofDocument d = .ok schema)
    (htexts : ∀ e ∈ Entries.values schema.enums, ∃ n, e.name = .str n)
    (henums : selectedEnums settings schema = .ok enums) :
    ((Entries.values enums).map (fun e => (writtenEnum settings schema e).1)).Nodup := by
  have hscope := values_select_sublist henums
  have hnames := (hscope.map (·.name)).nodup (Document.nodup_enumNames_of_ofDocument hd htexts)
  have hrequested : ∀ e ∈ Entries.values enums, e.name.display ∈ asked settings schema .enums := by
    intro e he
    refine mem_askAll ?_
    unfold requests
    rw [henums]
    exact List.mem_map_of_mem he
  exact nodup_given hnames (fun e he => htexts e (hscope.subset he)) hrequested

section Generate

variable {g : Generator} (hg : g.backend = backend) (hmapper : newMapper g.settings schema = .ok mapper)
include hg hmapper

theorem generate_of_undefined (hkey : g.settings.selectedType.truthy = true → g.settings.selectedType.isScalar = true)
    (h : Undefined g.settings schema) :
    (g.generate schema (some .enums)).1 = .error (.undefinedSelection g.settings.selectedType) := by
  obtain ⟨s, htext⟩ := exists_generate_eq g .enums
  rw [htext, Generator.modePass, hg]
  exact congrArg (Except.map tidy) (outcome_enumPass_of_unselected hmapper (selectedEnums_of_undefined (hkey h.1) h))

theorem generate_of_repeats (hplain : ∀ e ∈ Entries.values schema.enums, e.Plain) (h : Repeats g.settings schema) :
    ∃ e : EnumType, (g.generate schema (some .enums)).1 = .error (.repeatedEnumValue e.name) := by
  obtain ⟨enums, henums, e, he, hrepeats⟩ := h
  have hscope : ∀ e ∈ Entries.values enums, e.Plain := fun e he => hplain e ((values_select_sublist henums).subset he)
  obtain ⟨first, hfirst⟩ : ∃ first, (Entries.values enums).find? EnumType.repeats = some first :=
    Option.isSome_iff_exists.mp (List.find?_isSome.mpr ⟨e, he, (repeats_iff (hscope e he)).mpr hrepeats⟩)
  obtain ⟨s, htext⟩ := exists_generate_eq g .enums
  refine ⟨first, ?_⟩
  rw [htext, Generator.modePass, hg]
  exact congrArg (Except.map tidy) (outcome_enumPass_of_repeats hmapper henums hscope hfirst)

theorem generate_of_distinct {enums : List (Json × EnumType)} (henums : selectedEnums g.settings schema = .ok enums)
    (hplain : ∀ e ∈ Entries.values enums, e.Plain) (h : ∀ e ∈ Entries.values enums, e.values.Nodup) :
    (g.generate schema (some .enums)).1 = .ok (tidy (headText g.settings.packageName []) ++
      EnumSource.declarations ((Entries.values enums).map (declarationOf g.settings schema))) := by
  have hdistinct : ∀ e ∈ Entries.values enums, e.repeats = false := fun e he =>
    Bool.eq_false_iff.mpr fun hrepeats => (repeats_iff (hplain e he)).mp hrepeats (h e he)
  obtain ⟨s, htext⟩ := exists_generate_eq g .enums
  rw [htext, Generator.modePass, hg, ← tidy_enums hplain]
  exact congrArg (Except.map tidy) (outcome_enumPass_of_distinct hmapper henums hplain hdistinct)

end Generate

/-- The enum pass of a document raises an error of generation exactly if the selected type is not in the schema or an
    enum in scope has a value twice. Otherwise the text is a head and the declarations of the enums in scope, in the
    order of the schema. What is read from these are different names, each with the values of its enum in their order. -/
theorem enums_of_generate {g : Generator} {d : Json} (hg : g.backend = backend) (hd : Schema.ofDocument d = .ok schema)
    (hplain : ∀ e ∈ Entries.values schema.enums, e.Plain)
    (hkey : g.settings.selectedType.truthy = true → g.settings.selectedType.isScalar = true)
    (hmapper : ∃ mapper, newMapper g.settings schema = .ok mapper) :
    ((∃ f, (g.generate schema (some .enums)).1 = .error f ∧ f.className = "GeneratorError") ↔
        Undefined g.settings schema ∨ Repeats g.settings schema) ∧
      (¬ (Undefined g.settings schema ∨ Repeats g.settings schema) → ∃ enums declared,
        selectedEnums g.settings schema = .ok enums ∧ (Entries.values enums).Sublist (Entries.values schema.enums) ∧
        (g.generate schema (some .enums)).1 = .ok (tidy (headText g.settings.packageName []) ++ declared) ∧
        enums? declared.toList = some ((Entries.values enums).map (writtenEnum g.settings schema)) ∧
        ((Entries.values enums).map (fun e => (writtenEnum g.settings schema e).1)).Nodup ∧
        ∀ e ∈ Entries.values enums, (writtenEnum g.settings schema e).2.map Json.str = e.values ∧ e.values.Nodup) := by
  obtain ⟨mapper, hmapper⟩ := hmapper
  have hkept : ¬ (Undefined g.settings schema ∨ Repeats g.settings schema) → ∃ enums,
      selectedEnums g.settings schema = .ok enums ∧ (∀ e ∈ Entries.values enums, e.Plain ∧ e.values.Nodup) ∧
      (g.generate schema (some .enums)).1 = .ok (tidy (headText g.settings.packageName []) ++
        EnumSource.declarations ((Entries.values enums).map (declarationOf g.settings schema))) := by
    intro hfree
    obtain ⟨hdefined, hdistinct⟩ := not_or.mp hfree
    obtain ⟨enums, henums⟩ := exists_selectedEnums hkey hdefined
    have hscope : ∀ e ∈ Entries.values enums, e.Plain := fun e he => hplain e ((values_select_sublist henums).subset he)
    have hnodup : ∀ e ∈ Entries.values enums, e.values.Nodup := fun e he =>
      Classical.byContradiction fun hrepeats => hdistinct ⟨enums, henums, e, he, hrepeats⟩
    exact ⟨enums, henums, fun e he => ⟨hscope e he, hnodup e he⟩, generate_of_distinct hg hmapper henums hscope hnodup⟩
  refine ⟨⟨fun hfails => ?_, fun hrefused => ?_⟩, fun hfree => ?_⟩
  · obtain ⟨f, hf, -⟩ := hfails
    refine Classical.byContradiction fun hfree => ?_
    obtain ⟨_, -, -, htext⟩ := hkept hfree
    rw [hf] at htext
    cases htext
  · rcases hrefused with hundefined | hrepeats
    · exact ⟨_, generate_of_undefined hg hmapper hkey hundefined, rfl⟩
    · obtain ⟨e, he⟩ := generate_of_repeats hg hmapper hplain hrepeats
      exact ⟨_, he, rfl⟩
  · obtain ⟨enums, henums, hscope, htext⟩ := hkept hfree
    refine ⟨enums, _, henums, values_select_sublist henums, htext, enums?_of_plain fun e he => (hscope e he).1,
      nodup_writtenEnum hd (fun e he => (hplain e he).name) henums, fun e he => ?_⟩
    exact ⟨values_writtenEnum (hscope e he).1, (hscope e he).2⟩

/-- An enum of a document, with texts for its values. -/
def enumOf (name : String) (values : List String) : EnumType := { name := .str name, values := values.map .str }

/-- Two enums of one name in Java, one of them without values, before another one. -/
def feelings : Schema :=
  { enums := [(.str "mood", enumOf "mood" ["GLAD", "SAD"]), (.str "Mood", enumOf "Mood" []),
      (.str "reply", enumOf "reply" ["YES"])] }

/-- An enum with a value that comes again after another one. -/
def colors : Schema := { enums := [(.str "Color", enumOf "Color" ["RED", "BLUE", "RED"])] }

theorem ofDocument_feelings : ∃ d, Schema.ofDocument d = .ok feelings := by
  let entry (name : String) (values : List Json) : Json := .obj [("name", .str name), ("values", .arr values)]
  exact ⟨.obj [("enums", .arr [entry "mood" [.str "GLAD", .str "SAD"], entry "Mood" [], entry "reply" [.str "YES"]])], rfl⟩

theorem ofDocument_colors : ∃ d, Schema.ofDocument d = .ok colors :=
  ⟨.obj [("enums", .arr [.obj [("name", .str "Color"), ("values", .arr [.str "RED", .str "BLUE", .str "RED"])]])], rfl⟩

theorem plain_enumOf {name : String} {values : List String} (h : values.all Text.isIdentifier = true) :
    (enumOf name values).Plain where
  name := ⟨name, rfl⟩
  values := by
    intro v hv
    obtain ⟨n, hn, rfl⟩ := List.mem_map.mp hv
    exact ⟨n, rfl, List.all_eq_true.mp h n hn⟩

theorem plain_feelings : ∀ e ∈ Entries.values feelings.enums, e.Plain := by
  intro e he
  simp only [feelings, Entries.values, List.map_cons, List.map_nil, List.mem_cons, List.not_mem_nil, or_false] at he
  rcases he with rfl | rfl | rfl <;> exact plain_enumOf (by decide +kernel)

/-- With no type selected, there is nothing to refuse. -/
theorem not_refused_feelings (h : settings.selectedType = .null) :
    ¬ (Undefined settings feelings ∨ Repeats settings feelings) := by
  have hnone : (Entries.values feelings.enums).any EnumType.repeats = false := by decide +kernel
  rintro (⟨htruthy, -⟩ | ⟨enums, henums, e, he, hrepeats⟩)
  · rw [h] at htruthy
    cases htruthy
  · unfold selectedEnums select at henums
    rw [h] at henums
    obtain rfl : feelings.enums = enums := Except.ok.inj henums
    exact List.any_eq_false.mp hnone e he ((repeats_iff (plain_feelings e he)).mpr hrepeats)

/-- The enums are read under different names, and the repeated value is an error. -/
theorem enums_of_feelings :
    (∃ declared, (defaults.generate feelings (some .enums)).1 =
        .ok (tidy (headText defaults.settings.packageName []) ++ declared) ∧
      enums? declared.toList = some [("Mood", ["GLAD", "SAD"]), ("Mood_1", []), ("Reply", ["YES"])]) ∧
    ∃ f, (defaults.generate colors (some .enums)).1 = .error f ∧ f.className = "GeneratorError" := by
  obtain ⟨d, hd⟩ := ofDocument_feelings
  obtain ⟨d', hd'⟩ := ofDocument_colors
  have hcolor : (enumOf "Color" ["RED", "BLUE", "RED"]).Plain := plain_enumOf (by decide +kernel)
  have hnokey : defaults.settings.selectedType.truthy = true → defaults.settings.selectedType.isScalar = true := by
    decide
  obtain ⟨enums, declared, henums, -, htext, hread, -⟩ :=
    (enums_of_generate (g := defaults) rfl hd plain_feelings hnokey ⟨_, rfl⟩).2 (not_refused_feelings rfl)
  obtain rfl : feelings.enums = enums := Except.ok.inj henums
  refine ⟨⟨declared, htext, hread.trans (congrArg some (by decide +kernel))⟩, ?_⟩
  refine (enums_of_generate (g := defaults) rfl hd' (fun e he => ?_) hnokey ⟨_, rfl⟩).1.mpr (Or.inr ?_)
  · exact List.mem_singleton.mp he ▸ hcolor
  · exact ⟨colors.enums, rfl, _, List.mem_singleton_self _, (repeats_iff hcolor).mp (by decide +kernel)⟩

/-- An enum with a truth value for its name. -/
def verdicts : Schema := { enums := [(.bool true, { name := .bool true, values := [.str "YES", .str "NO"] })] }

/-- A list is selected. -/
def listSelected : Generator := { defaults with settings := { selectedType := .arr [.str "mood"] } }

/-- A number is given for the overrides of scalars. -/
def numberGiven : Generator :=
  { defaults with settings := { custom := .entries [(.str "scalar_overrides", .int 5)] } }

/-- Its values are identifiers and none is repeated, and no type is selected. All the same nothing is written. Nor is
    anything where a list is selected, which is no type of the schema but cannot be looked up, or where the overrides
    are no entries. -/
theorem enums_of_verdicts : ((∃ d, Schema.ofDocument d = .ok verdicts) ∧
    (∀ e ∈ Entries.values verdicts.enums, e.values.Nodup ∧ ∀ v ∈ e.values, ∃ n, v = .str n ∧ Text.isIdentifier n = true) ∧
    ¬ Undefined defaults.settings verdicts ∧
    ∃ f, (defaults.generate verdicts (some .enums)).1 = .error f ∧ f.className = "TypeError") ∧
    (Undefined listSelected.settings feelings ∧
      ∃ f, (listSelected.generate feelings (some .enums)).1 = .error f ∧ f.className = "TypeError") ∧
    ¬ (Undefined numberGiven.settings feelings ∨ Repeats numberGiven.settings feelings) ∧
    ∃ f, (numberGiven.generate feelings (some .enums)).1 = .error f ∧ f.className = "TypeError" := by
  have hread : Schema.ofDocument (.obj [("enums", .arr [.obj [("name", .bool true),
      ("values", .arr [.str "YES", .str "NO"])]])]) = .ok verdicts := rfl
  have hlist : Undefined listSelected.settings feelings := ⟨rfl, rfl, by decide⟩
  refine ⟨⟨⟨_, hread⟩, fun e he => ?_, fun h => Bool.false_ne_true h.1, ?_⟩, ⟨hlist, _, rfl, rfl⟩,
    not_refused_feelings rfl, _, rfl, rfl⟩
  · obtain rfl := List.mem_singleton.mp he
    refine ⟨by simp, fun v hv => ?_⟩
    simp only [List.mem_cons, List.not_mem_nil, or_false] at hv
    rcases hv with rfl | rfl
    · exact ⟨_, rfl, by decide +kernel⟩
    · exact ⟨_, rfl, by decide +kernel⟩
  · exact ⟨_, rfl, rfl⟩

end Java

end SchemaForge

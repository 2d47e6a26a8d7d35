import SchemaForge.Proofs.Generation.Parts
import SchemaForge.Proofs.Java.NameLiterals
import SchemaForge.Proofs.Java.Provider
import SchemaForge.Proofs.Java.UnhandledDirectives

/-
What directives that are not handled make no difference to. The passes are run for a schema and for its plain one. Types
are resolved, and names asked for, without a look at directives, so the enum pass, the listing of the provider and the
warnings are the same for both. The class pass notes each such directive in its log and goes on, so it agrees with that of
the plain schema but for the log (`agree_classPass_plain`): its declarations are those of the plain models, with other
fields behind their members, and nothing that is written is taken from these.

The version is the digest of the whole schema, and may differ. It stands in the provider as a word in a line, and what is
around it is the same (`generate_of_eqvGen`).
-/

namespace SchemaForge

open Generation Generation.Pass

namespace Schema

theorem isModel_plain (s : Schema) (type : Json) : s.plain.isModel type = s.isModel type :=
  Entries.has_mapValues Model.plain type s.models

theorem values_plain (s : Schema) : Entries.values s.plain.models = (Entries.values s.models).map Model.plain :=
  Entries.values_mapValues Model.plain s.models

end Schema

/-! ## What is in scope -/

theorem Generation.selectedModels_plain (settings : Settings) (schema : Schema) :
    selectedModels settings schema.plain =
      (selectedModels settings schema).map (List.map (fun e => (e.1, e.2.plain))) := by
  have hfound : Entries.get? settings.selectedType schema.plain.models =
      (Entries.get? settings.selectedType schema.models).map Model.plain := Entries.get?_mapValues Model.plain _ _
  unfold selectedModels select
  rw [hfound]
  split
  · rfl
  · split
    · rfl
    · cases Entries.get? settings.selectedType schema.models with
      | some m => rfl
      | none =>
        simp only [Option.map_none]
        show (if Entries.has settings.selectedType schema.enums = true then _ else _) = _
        split <;> rfl

theorem Generation.selectedEnums_plain (settings : Settings) (schema : Schema) :
    selectedEnums settings schema.plain = selectedEnums settings schema := by
  have hthere : Entries.has settings.selectedType schema.plain.models = Entries.has settings.selectedType schema.models :=
    schema.isModel_plain settings.selectedType
  unfold selectedEnums select
  rw [hthere]
  rfl

namespace Java

/-! ## Types and names -/

def TypeMapper.plain (mapper : TypeMapper) : TypeMapper := { mapper with schema := mapper.schema.plain }

variable {mapper : TypeMapper}

theorem native_plain (mapper : TypeMapper) (type : Json) : mapper.plain.native type = mapper.native type := by
  unfold TypeMapper.native
  rw [show mapper.plain.schema.isModel type = mapper.schema.isModel type from mapper.schema.isModel_plain type]
  rfl

theorem resolve_plain (mapper : TypeMapper) (f : Field) : mapper.plain.resolve f.plain = mapper.resolve f := by
  show mapper.plain.resolve f = mapper.resolve f
  unfold TypeMapper.resolve
  simp only [native_plain]

theorem fieldNames_plain (mapper : TypeMapper) (f : Field) : mapper.plain.fieldNames f.plain = mapper.fieldNames f := by
  unfold TypeMapper.fieldNames
  rw [resolve_plain]
  rfl

theorem newMapper_plain (settings : Settings) (schema : Schema) :
    newMapper settings schema.plain = (newMapper settings schema).map TypeMapper.plain := by
  unfold newMapper
  cases overridesOf settings with
  | error f => rfl
  | ok overrides =>
    show (scalarsWith overrides >>= fun scalars => pure (TypeMapper.mk schema.plain scalars)) =
      (scalarsWith overrides >>= fun scalars => pure (TypeMapper.mk schema scalars)).map TypeMapper.plain
    cases scalarsWith overrides <;> rfl

theorem startMapper_plain (settings : Settings) (schema : Schema) :
    startMapper settings schema.plain = startMapper settings schema >>= fun mapper => pure mapper.plain := by
  unfold startMapper
  rw [newMapper_plain, bind_assoc]
  refine congrArg (resetNames >>= ·) (funext fun _ => ?_)
  cases newMapper settings schema with
  | error f => rfl
  | ok mapper => exact (pure_bind (m := Pass) mapper fun mapper => pure mapper.plain).symm

/-! ## Passes that are the same -/

theorem enumPass_plain (settings : Settings) (schema : Schema) :
    enumPass settings schema.plain = enumPass settings schema := by
  unfold enumPass
  rw [startMapper_plain, selectedEnums_plain]
  simp only [bind_assoc, pure_bind]

theorem listing_plain (settings : Settings) (schema : Schema) :
    listing settings schema.plain = listing settings schema := by
  have hmodels : ∀ f : List (Json × Model) → Pass (List String), (∀ es, f (es.map (fun e => (e.1, e.2.plain))) = f es) →
      Generator.ofExcept (selectedModels settings schema.plain) >>= f =
        Generator.ofExcept (selectedModels settings schema) >>= f := by
    intro f hf
    rw [selectedModels_plain]
    cases selectedModels settings schema with
    | error e => rfl
    | ok es =>
      show (pure (es.map _) >>= f : Pass _) = (pure es >>= f : Pass _)
      rw [pure_bind, pure_bind, hf]
  unfold listing
  rw [startMapper_plain, hmodels]
  · simp only [bind_assoc, pure_bind]
  · intro es
    rw [Entries.values_mapValues, List.mapM_map]
    rfl

/-! ## Warnings -/

theorem isNone_identity?_plain (m : Model) : m.plain.identity?.isNone = m.identity?.isNone := by
  show ((m.fields.map Field.plain).find? Field.isIdentity).isNone = _
  rw [List.find?_map, Option.isNone_map]
  rfl

theorem schemaWarnings_plain (schema : Schema) : schemaWarnings schema.plain = schemaWarnings schema := by
  have hmodel : ∀ m : Model, modelWarnings m.plain = modelWarnings m := by
    intro m
    have hempty : m.plain.fields.isEmpty = m.fields.isEmpty := List.isEmpty_map
    unfold modelWarnings
    rw [isNone_identity?_plain, hempty]
    rfl
  unfold schemaWarnings
  rw [schema.values_plain, List.flatMap_map]
  simp only [hmodel]
  rfl

theorem fieldWarnings_plain (mapper : TypeMapper) (m : Model) (f : Field) :
    fieldWarnings mapper.plain m.plain f.plain = fieldWarnings mapper m f := by
  have hknows : mapper.plain.knows f.type = mapper.knows f.type := by
    unfold TypeMapper.knows
    rw [show mapper.plain.schema.isModel f.type = mapper.schema.isModel f.type from mapper.schema.isModel_plain f.type]
    rfl
  unfold fieldWarnings
  rw [resolve_plain]
  refine congrArg (mapper.resolve f >>= ·) (funext fun type => ?_)
  show (if mapper.plain.knows f.type = true then _ else _) = _
  rw [hknows]
  rfl

theorem renameWarnings_plain (mapper : TypeMapper) (m : Model) :
    renameWarnings mapper.plain m.plain = renameWarnings mapper m := by
  have hfields : m.plain.fields.mapM (fieldWarnings mapper.plain m.plain) = m.fields.mapM (fieldWarnings mapper m) := by
    show (m.fields.map Field.plain).mapM _ = _
    rw [List.mapM_map]
    exact congrArg (fun f => m.fields.mapM f) (funext fun f => fieldWarnings_plain mapper m f)
  unfold renameWarnings
  rw [hfields]
  rfl

theorem warnings_plain (settings : Settings) (schema : Schema) :
    warnings settings schema.plain = warnings settings schema := by
  have hnaming : namingWarnings settings schema.plain = namingWarnings settings schema := by
    unfold namingWarnings
    rw [newMapper_plain, schema.values_plain]
    cases newMapper settings schema with
    | error f => rfl
    | ok mapper =>
      show (pure mapper.plain >>= _ : Pass _) = (pure mapper >>= _ : Pass _)
      rw [pure_bind, pure_bind, List.mapM_map]
      refine congrArg (fun p : Pass (List (List String)) => p >>= fun ws => pure ws.flatten) ?_
      exact congrArg (fun f => (Entries.values schema.models).mapM f) (funext fun m => renameWarnings_plain mapper m)
  unfold warnings
  rw [schemaWarnings_plain, hnaming]

/-! ## The class pass -/

def Member.plain (x : Member) : Member := { x with field := x.field.plain }

def ClassDecl.plain (c : ClassDecl) : ClassDecl :=
  { c with members := c.members.map Member.plain, identity := c.identity.plain }

/-- Nothing that is written is taken from the fields behind the members. -/
theorem context_plain (c : ClassDecl) : c.plain.context = c.context := by
  unfold ClassDecl.context
  show _ :: _ :: _ :: _ :: ("fields", Json.arr ((c.members.map Member.plain).map ClassDecl.memberContext)) :: _ = _
  rw [List.map_map]
  rfl

theorem imports_plain (c : ClassDecl) : c.plain.imports = c.imports := by
  unfold ClassDecl.imports
  show (c.members.map Member.plain).foldl _ _ = _
  rw [List.foldl_map]
  rfl

theorem agreeVia_member (mapper : TypeMapper) (f : Field) :
    AgreeVia Member.plain SameNames (member mapper f) (member mapper.plain f.plain) SameNames := by
  unfold member
  rw [fieldNames_plain]
  have hnames : Agree SameNames (mapper.fieldNames f) (mapper.fieldNames f) SameNames := by
    refine agree_bind (agree_ofFault _) fun _ => ?_
    refine agree_bind (agree_ofFault _) fun _ => agree_bind (agree_ofFault _) fun _ => ?_
    exact agree_bind (agree_resolve_sameNames mapper f) fun _ => agree_pure _
  refine agreeVia_bind_of_agree hnames fun names => ?_
  exact agreeVia_bind_of_agree (agree_fieldAnnotations_plain f) fun annotations => agreeVia_pure rfl

theorem stepDecl_map (c : Builder.Contract Member) : stepDecl (c.map Member.plain) = stepDecl c := by
  cases c with
  | mk item next => cases next <;> rfl

/-- A class is declared of the plain model as it is of the model. -/
theorem agreeVia_ofModel (comments : Bool) (mapper : TypeMapper) (m : Model) :
    AgreeVia ClassDecl.plain SameNames (ClassDecl.ofModel comments mapper m)
      (ClassDecl.ofModel comments mapper.plain m.plain) SameNames := by
  have hlength : m.plain.fields.length = m.fields.length := List.length_map _
  have hmembers : AgreeVia (List.map Member.plain) SameNames (m.fields.mapM (member mapper))
      (m.plain.fields.mapM (member mapper.plain)) SameNames := agreeVia_mapM fun f _ => agreeVia_member mapper f
  simp only [ClassDecl.ofModel]
  rw [isNone_identity?_plain, hlength]
  split
  · exact agreeVia_fail_bind _ _ _
  refine agreeVia_bind_of_agree (agree_note bears_sameNames _ _) fun _ => ?_
  refine agreeVia_bind_of_agree (agree_className_sameNames m.name) fun name => ?_
  refine agreeVia_bind hmembers fun members => ?_
  have hclash : clash? (members.map Member.plain) = clash? members := by
    unfold clash?
    rw [List.map_map]
    rfl
  have hplan : Builder.planBuilder Member.field Member.stepName [buildInterface] (members.map Member.plain) =
      (Builder.planBuilder Member.field Member.stepName [buildInterface] members).map (Builder.Plan.map Member.plain) :=
    Builder.planBuilder_map (fun _ => rfl) (fun _ => rfl) (fun _ => rfl) _ _
  rw [hplan, hclash]
  cases Builder.planBuilder Member.field Member.stepName [buildInterface] members with
  | error e => exact agreeVia_fail_bind _ _ _
  | ok plan =>
    have hsteps : (plan.map Member.plain).steps.map stepDecl = plan.steps.map stepDecl := by
      show (plan.steps.map _).map stepDecl = _
      rw [List.map_map]
      exact List.map_congr_left fun c _ => stepDecl_map c
    have hsetters : (plan.map Member.plain).optional.map Member.setter = plan.optional.map Member.setter :=
      List.map_map
    have hslots : (plan.map Member.plain).slots.map Member.slot = plan.slots.map Member.slot := List.map_map
    simp only [Except.map, pure_bind, hsteps, hsetters, hslots]
    split
    · exact agreeVia_fail_bind _ _ _
    refine agreeVia_bind_of_agree (agree_modelAnnotations_plain m) fun annotations => ?_
    refine agreeVia_bind_of_agree (agree_ofFault (memberName m.name)) fun instanceName => ?_
    have hidentity : (plan.map Member.plain).identity = plan.identity.map Member.plain := rfl
    rw [hidentity]
    cases plan.identity with
    | none => exact agreeVia_fail _
    | some identity => exact agreeVia_pure rfl

theorem agree_classText_plain (settings : Settings) (mapper : TypeMapper) (m : Model) :
    Agree SameNames (classText settings mapper m) (classText settings mapper.plain m.plain) SameNames := by
  refine agree_of_agreeVia (agreeVia_bind (agreeVia_ofModel (commented settings) mapper m) fun c => ?_)
  rw [context_plain, imports_plain]
  exact agreeVia_of_agree (agree_bind (agree_render _ _) fun _ => agree_pure _)

/-- But for their logs, the class passes of a schema and of the plain one are the same run. -/
theorem agree_classPass_plain (settings : Settings) (schema : Schema) :
    Agree SameNames (classPass settings schema) (classPass settings schema.plain) SameNames := by
  unfold classPass
  rw [startMapper_plain, selectedModels_plain, bind_assoc]
  have hreset : Agree SameNames resetNames resetNames SameNames := by
    intro s t hst
    exact ⟨_, _, _, rfl, rfl, fun _ _ => congrArg Naming.Allocator.reset hst⟩
  have hstart : Agree SameNames (startMapper settings schema) (startMapper settings schema) SameNames :=
    agree_bind hreset fun _ => agree_ofFault _
  refine agree_bind hstart fun mapper => ?_
  rw [pure_bind]
  cases selectedModels settings schema with
  | error e => exact agree_fail_bind e _ _
  | ok models =>
    show Agree _ (pure models >>= _) (pure (models.map fun e => (e.1, e.2.plain)) >>= _) _
    rw [pure_bind, pure_bind, Entries.values_mapValues, List.mapM_map]
    have hclasses : Agree SameNames ((Entries.values models).mapM (classText settings mapper))
        ((Entries.values models).mapM fun m => classText settings mapper.plain m.plain) SameNames :=
      agree_mapM (R := fun _ => SameNames) fun m _ _ => agree_classText_plain settings mapper m
    exact agree_bind hclasses fun classes => agree_bind (agree_render _ _) fun _ => agree_pure _

/-! ## The version -/

theorem newline_not_mem_version (schema : Schema) : '\n' ∉ schema.version.toList := by
  have digits : ∀ d < 16, '\n' ≠ Text.hexDigit d := by decide
  intro h
  rw [Schema.version, Md5.hexDigest, String.toList_ofList, List.mem_flatMap] at h
  obtain ⟨byte, -, h⟩ := h
  obtain ⟨d, hd, heq⟩ := Text.exists_of_mem_hexDigits h
  exact digits d hd heq

/-- What stands before the version on its line. -/
def Provider.versionName : String := "  private static final String AMPLIFY_MODEL_VERSION = "

theorem exists_opening (settings : Settings) :
    ∃ front, Provider.opening settings = front ++ "\n" ++ Provider.versionName := by
  refine ⟨(if settings.addComments.truthy then
      "/**\n" ++ " * Contains the set of model classes that implement \x7b@link Model\x7d\n" ++ " * interface.\n"
        ++ " */\n" else "")
    ++ "public final class " ++ settings.loaderClassName.display ++ " implements ModelProvider \x7b", ?_⟩
  unfold Provider.opening Provider.versionName
  simp only [String.append_assoc]
  rfl

theorem exists_middle (settings : Settings) : ∃ back, Provider.middle settings = ";\n" ++ back := by
  unfold Provider.middle
  simp only [String.append_assoc]
  exact ⟨_, rfl⟩

/-- Two files of the provider with the same list are the same up to their versions and after them. -/
theorem exists_tidy_file (settings : Settings) (list : String) :
    ∃ before after, (∃ head, before = head ++ Provider.versionName) ∧ (∃ rest, after = ";" ++ rest) ∧
      ∀ version : String, '\n' ∉ version.toList →
        tidy (Provider.file settings version list) = before ++ stringLiteral version ++ after := by
  obtain ⟨front, hfront⟩ := exists_opening settings
  obtain ⟨back, hback⟩ := exists_middle settings
  have hfile : ∀ version : String, (Provider.file settings version list).toList =
      (headText settings.packageName providerImports ++ "\n" ++ "\n" ++ front).toList ++ '\n' ::
        (Provider.versionName.toList ++ (stringLiteral version).toList ++ ([] ++ [';']) ++ '\n' ::
          (back ++ list ++ Provider.closing).toList) := by
    intro version
    unfold Provider.file Provider.source fileOf
    rw [hfront, hback, String.toList_intercalate]
    simp [List.intercalate_cons_cons]
  obtain ⟨opening, closing, ⟨head, hhead⟩, ⟨rest, hrest⟩, htidy⟩ := exists_tidyChars_word _ _
    Provider.versionName.toList [] (c := ';') (by decide) (List.not_mem_nil) (by decide)
  refine ⟨String.ofList opening, String.ofList closing, ⟨String.ofList head, ?_⟩, ⟨String.ofList rest, ?_⟩,
    fun version hversion => ?_⟩
  · rw [← hhead, String.ofList_append, String.ofList_toList]
  · rw [← hrest, String.ofList_append]
    rfl
  · rw [tidy, hfile, htidy _ (newline_not_mem_stringLiteral hversion), String.ofList_append, String.ofList_append,
      String.ofList_toList]

/-! ## The texts -/

variable {g : Generator} {a b : Schema}

theorem generate_classes_plain (hg : g.backend = backend) (schema : Schema) :
    (g.generate schema (some .classes)).1 = (g.generate schema.plain (some .classes)).1 := by
  obtain ⟨s, htext⟩ := exists_generate_eq g .classes
  rw [htext, htext, Generator.modePass, Generator.modePass, hg]
  exact congrArg (Except.map tidy) (outcome_eq_of_agree (agree_classPass_plain g.settings schema) rfl)

theorem generate_enums_plain (hg : g.backend = backend) (schema : Schema) :
    (g.generate schema (some .enums)).1 = (g.generate schema.plain (some .enums)).1 := by
  obtain ⟨s, htext⟩ := exists_generate_eq g .enums
  rw [htext, htext, Generator.modePass, Generator.modePass, hg]
  exact congrArg (fun p => (outcome p s).map tidy) (enumPass_plain g.settings schema).symm

/-- The providers of two schemas with one plain schema differ in no more than their versions. -/
theorem generate_registry_of_plain (hg : g.backend = backend) (h : a.plain = b.plain) :
    (∃ e, (g.generate a (some .registry)).1 = .error e ∧ (g.generate b (some .registry)).1 = .error e) ∨
      ∃ before after, (∃ head, before = head ++ Provider.versionName) ∧ (∃ rest, after = ";" ++ rest) ∧
        (g.generate a (some .registry)).1 = .ok (before ++ stringLiteral a.version ++ after) ∧
        (g.generate b (some .registry)).1 = .ok (before ++ stringLiteral b.version ++ after) := by
  obtain ⟨s, htext⟩ := exists_generate_eq g .registry
  have hpass : ∀ schema, (g.generate schema (some .registry)).1 =
      ((outcome (listing g.settings schema.plain) s).map (fun classes =>
        Provider.file g.settings schema.version (Provider.listText (firstOccurrences classes)))).map tidy := by
    intro schema
    rw [htext, Generator.modePass, hg, listing_plain]
    exact congrArg (Except.map tidy) (outcome_registryPass g.settings schema s)
  rw [hpass, hpass, h]
  cases outcome (listing g.settings b.plain) s with
  | error e => exact Or.inl ⟨e, rfl, rfl⟩
  | ok classes =>
    obtain ⟨before, after, hhead, hrest, htidy⟩ :=
      exists_tidy_file g.settings (Provider.listText (firstOccurrences classes))
    refine Or.inr ⟨before, after, hhead, hrest, ?_, ?_⟩
    · exact congrArg Except.ok (htidy _ (newline_not_mem_version a))
    · exact congrArg Except.ok (htidy _ (newline_not_mem_version b))

/-- Where one schema comes from another by putting in and taking out directives that are not handled, both get the same
    classes and enums and the same warnings, or fail alike, and their providers differ in the version at most. -/
theorem generate_of_eqvGen (hg : g.backend = backend) (h : Relation.EqvGen Schema.Adds a b) :
    (g.generate a (some .classes)).1 = (g.generate b (some .classes)).1 ∧
      (g.generate a (some .enums)).1 = (g.generate b (some .enums)).1 ∧
      ((∃ e, (g.generate a (some .registry)).1 = .error e ∧ (g.generate b (some .registry)).1 = .error e) ∨
        ∃ before after, (∃ head, before = head ++ Provider.versionName) ∧ (∃ rest, after = ";" ++ rest) ∧
          (g.generate a (some .registry)).1 = .ok (before ++ stringLiteral a.version ++ after) ∧
          (g.generate b (some .registry)).1 = .ok (before ++ stringLiteral b.version ++ after)) ∧
      resolveMode g.settings a = resolveMode g.settings b ∧ g.warnings a = g.warnings b := by
  have hplain := Schema.plain_of_eqvGen h
  refine ⟨?_, ?_, generate_registry_of_plain hg hplain, ?_, ?_⟩
  · rw [generate_classes_plain hg a, generate_classes_plain hg b, hplain]
  · rw [generate_enums_plain hg a, generate_enums_plain hg b, hplain]
  · show resolveMode g.settings a.plain = resolveMode g.settings b.plain
    rw [hplain]
  · unfold Generator.warnings
    rw [hg]
    show warnings g.settings a = warnings g.settings b
    rw [← warnings_plain g.settings a, ← warnings_plain g.settings b, hplain]

/-- A schema of one model, with the directives of the model and of its second field. -/
def logbook (model field : List Directive) : Schema :=
  { models := [(.str "Entry", {
      name := .str "Entry"
      fields := [{ name := .str "id", type := .str "ID", nullable := false },
        { name := .str "mood", type := .str "String", directives := field }]
      directives := model })] }

def searchable : Directive := { name := .str "searchable" }

/-- A directive with a list for its name. -/
def nameless : Directive := { name := .arr [] }

/-- A directive is put in at the model, and one is taken out at the field. -/
theorem generate_of_logbooks : Relation.EqvGen Schema.Adds (logbook [] [searchable]) (logbook [searchable] []) ∧
    ∃ text, (defaults.generate (logbook [] [searchable]) (some .classes)).1 = .ok text ∧
      (defaults.generate (logbook [searchable] []) (some .classes)).1 = .ok text := by
  have hfield : Schema.Adds (logbook [] []) (logbook [] [searchable]) :=
    .model [] [] rfl (.field [_] [] rfl (.directive (.insert [] [] (by decide))))
  have hmodel : Schema.Adds (logbook [] []) (logbook [searchable] []) :=
    .model [] [] rfl (.directive (.insert [] [] (by decide)))
  have h : Relation.EqvGen Schema.Adds (logbook [] [searchable]) (logbook [searchable] []) :=
    .trans _ _ _ (.symm _ _ (.rel _ _ hfield)) (.rel _ _ hmodel)
  obtain ⟨text, t, htext⟩ := exists_yields_of_succeeds
    (show succeeds (defaults.textPass (logbook [] [searchable]) (some .classes)) {} = true by decide +kernel)
  have hgenerated : (defaults.generate (logbook [] [searchable]) (some .classes)).1 = .ok text := by
    rw [generate_eq_outcome, outcome]
    exact congrArg Prod.fst htext
  have hsame := (generate_of_eqvGen (g := defaults) rfl h).1
  exact ⟨h, text, hgenerated, hsame ▸ hgenerated⟩

/-- A name that cannot be looked up is neither of those that are handled, and makes the class pass fail. -/
theorem generate_of_nameless : nameless.name ≠ .str "model" ∧ nameless.name ≠ .str "key" ∧
    (defaults.generate (logbook [] []) (some .classes)).1 ≠
      (defaults.generate (logbook [nameless] []) (some .classes)).1 := by
  have hpasses : (defaults.generate (logbook [] []) (some .classes)).1.toBool = true := by decide +kernel
  have hfails : (defaults.generate (logbook [nameless] []) (some .classes)).1.toBool = false := by decide +kernel
  refine ⟨by simp [nameless], by simp [nameless], fun heq => ?_⟩
  rw [heq, hfails] at hpasses
  cases hpasses

end Java

end SchemaForge

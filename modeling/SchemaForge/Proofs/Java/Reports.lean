import SchemaForge.Proofs.Generation.Reports
import SchemaForge.Proofs.Java.EnumPass
import SchemaForge.Proofs.Java.Provider
import SchemaForge.Proofs.Java.Warnings

/-
Reports of Java generators. The warnings are found by a walk over the whole schema, so it meets models and enums that
the pass never looks at. Over a schema of texts it cannot fail, whatever the pass does (`exists_warnings`), and each pass
fails where nothing can be selected (`needsSelection`). So a report tells of a text exactly when there is one, and of
nothing but this text (`report_of_generate`).
-/

namespace SchemaForge

open Generation Generation.Pass Runs

/-- Models have texts for names, fields for types, and enums for values. -/
structure Schema.Textual (schema : Schema) : Prop where
  names : ∀ m ∈ Entries.values schema.models, ∃ n, m.name = .str n
  types : ∀ m ∈ Entries.values schema.models, ∀ f ∈ m.fields, ∃ n, f.type = .str n
  values : ∀ e ∈ Entries.values schema.enums, ∀ v ∈ e.values, ∃ n, v = .str n

namespace Java

variable {settings : Settings} {schema : Schema} {mapper : TypeMapper}

/-! ## What is found before the text -/

theorem delivers_fieldWarnings (hnative : mapper.NativeTexts) (m : Model) {f : Field} (htype : ∃ n, f.type = .str n) :
    Delivers (fieldWarnings mapper m f) fun _ => True := by
  unfold fieldWarnings
  refine delivers_bind (delivers_resolve hnative htype) fun resolved _ => ?_
  split <;> exact delivers_pure trivial

theorem delivers_renameWarnings (hnative : mapper.NativeTexts) {m : Model} (hname : ∃ n, m.name = .str n)
    (htypes : ∀ f ∈ m.fields, ∃ n, f.type = .str n) : Delivers (renameWarnings mapper m) fun _ => True := by
  refine delivers_bind (delivers_className hname) fun name _ => ?_
  refine delivers_bind (delivers_mapM (Q := fun _ => True) fun f hf => ?_) fun _ _ => delivers_pure trivial
  exact delivers_fieldWarnings hnative m (htypes f hf)

theorem delivers_namingWarnings (hmapper : newMapper settings schema = .ok mapper) (hnative : mapper.NativeTexts)
    (htexts : schema.Textual) : Delivers (namingWarnings settings schema) fun _ => True := by
  refine delivers_bind (delivers_ofFault (P := (· = mapper)) hmapper rfl) fun _ hsame => ?_
  rw [hsame]
  refine delivers_bind (delivers_mapM (Q := fun _ => True) fun m hm => ?_) fun _ _ => delivers_pure trivial
  exact delivers_renameWarnings hnative (htexts.names m hm) (htexts.types m hm)

theorem exists_newMapper {overrides : Json} (hoverrides : overridesOf settings = .ok overrides)
    (htexts : TextOverrides overrides) (schema : Schema) :
    ∃ mapper, newMapper settings schema = .ok mapper ∧ mapper.NativeTexts := by
  obtain ⟨scalars, hscalars⟩ : ∃ scalars, scalarsWith overrides = .ok scalars := by
    rcases htexts with rfl | ⟨ms, rfl, -⟩
    · exact ⟨_, rfl⟩
    · unfold scalarsWith
      split <;> exact ⟨_, rfl⟩
  refine ⟨{ schema := schema, scalars := scalars }, ?_, nativeTexts_of_scalarsWith htexts hscalars⟩
  exact bind_eq_ok.mpr ⟨overrides, hoverrides, bind_eq_ok.mpr ⟨scalars, hscalars, rfl⟩⟩

theorem exists_warnings {overrides : Json} (hoverrides : overridesOf settings = .ok overrides)
    (htexts : TextOverrides overrides) (hschema : schema.Textual) : ∃ found, warnings settings schema = .ok found := by
  have hscalar : ∀ e ∈ Entries.values schema.enums, ∀ v ∈ e.values, v.isScalar = true := by
    intro e he v hv
    obtain ⟨n, rfl⟩ := hschema.values e he v hv
    rfl
  obtain ⟨shared, hshared⟩ := exists_schemaWarnings hscalar
  obtain ⟨mapper, hmapper, hnative⟩ := exists_newMapper hoverrides htexts schema
  obtain ⟨renamed, t, hwalk, -⟩ := delivers_namingWarnings hmapper hnative hschema {}
  refine ⟨shared ++ renamed, ?_⟩
  unfold warnings
  rw [hshared, show ((namingWarnings settings schema).run.run {} : Id _) = _ from hwalk]
  rfl

/-! ## What is counted behind the text -/

theorem needsSelection {g : Generator} (hg : g.backend = backend) (schema : Schema) : NeedsSelection g schema := by
  intro mode s raw t h
  unfold Generator.modePass at h
  rw [hg] at h
  cases mode with
  | registry =>
    simp only [backend, registryPass, yields_bind, yields_ofExcept] at h
    obtain ⟨-, -, -, models, -, ⟨hmodels, -⟩, -⟩ := h
    exact Or.inl ⟨models, hmodels⟩
  | enums =>
    obtain ⟨enums, henums, -⟩ := yields_enumPass h
    exact Or.inr ⟨enums, henums⟩
  | classes =>
    obtain ⟨_, models, _, _, _, _, -, hmodels, -⟩ := yields_classPass h
    exact Or.inl ⟨models, hmodels⟩

/-- A generator with texts for overrides reports on a schema of texts. The report ends as `generate` does: with its
    text, or with its failure, which is noted at the end of the log. The text comes with the mode it was made in, the
    warnings for the schema, and the numbers of models and enums in scope. -/
theorem report_of_generate {g : Generator} (hg : g.backend = backend) {overrides : Json}
    (hoverrides : overridesOf g.settings = .ok overrides) (htexts : TextOverrides overrides)
    (hschema : schema.Textual) (mode : Option Mode) :
    (g.generateCode schema mode).1.map Generated.code = (g.generate schema mode).1 ∧
      (∀ r, (g.generateCode schema mode).1 = .ok r →
        r.metadata.modelCount = scopeSize g.settings schema.models ∧
        r.metadata.enumCount = scopeSize g.settings schema.enums ∧
        chosenMode g schema mode = .ok r.metadata.mode ∧ g.warnings schema = .ok r.warnings) ∧
      (∀ f, (g.generateCode schema mode).1 = .error f →
        ∃ log, (g.generateCode schema mode).2.1 = log ++ [⟨.error, Generator.failureText f⟩]) := by
  obtain ⟨found, hfound⟩ := exists_warnings hoverrides htexts hschema
  have hwarnings : g.warnings schema = .ok found := by
    rw [Generator.warnings, hg]
    exact hfound
  have hends := ends_generateCode (needsSelection hg schema) hwarnings mode
  refine ⟨?_, fun r hr => ?_, fun f => log_of_failed_generateCode⟩
  · rcases hends with ⟨m, text, -, htext, hreport⟩ | ⟨f, htext, hreport⟩ <;> rw [htext, hreport] <;> rfl
  · rcases hends with ⟨m, text, hm, -, hreport⟩ | ⟨f, -, hreport⟩
    · obtain rfl := Except.ok.inj (hr.symm.trans hreport)
      exact ⟨rfl, rfl, hm, hwarnings⟩
    · rw [hr] at hreport
      cases hreport

/-- A model that is renamed and has a field of unknown type, next to an enum. -/
def polls : Schema :=
  { models := [
      (.str "open_question", { name := .str "open_question", fields := [
          { name := .str "id", type := .str "ID", nullable := false },
          { name := .str "answer", type := .str "Anything" }] })],
    enums := [(.str "Mood", enumOf "Mood" ["GLAD", "SAD"])] }

def selecting (name : String) : Generator :=
  { backend := backend,
    settings := {
      selectedType := .str name,
      custom := .entries [(.str "scalar_overrides", .obj [("AWSDate", .str "java.time.LocalDate")])] } }

theorem textual_polls : polls.Textual where
  names := by
    intro m hm
    rw [List.mem_singleton.mp hm]
    exact ⟨_, rfl⟩
  types := by
    intro m hm
    rw [List.mem_singleton.mp hm]
    intro f hf
    simp only [List.mem_cons, List.not_mem_nil, or_false] at hf
    rcases hf with rfl | rfl <;> exact ⟨_, rfl⟩
  values := by
    intro e he
    rw [List.mem_singleton.mp he]
    intro v hv
    obtain ⟨n, -, rfl⟩ := List.mem_map.mp hv
    exact ⟨n, rfl⟩

/-- An enum is selected, so no model is in scope when the text is reported. A name that is not in the schema is
    reported as the failure it is. -/
theorem polls_are_reported :
    (∃ r, ((selecting "Mood").generateCode polls none).1 = .ok r ∧
      ((selecting "Mood").generate polls none).1 = .ok r.code ∧ r.metadata.modelCount = 0 ∧
      r.metadata.enumCount = 1 ∧ r.metadata.mode = .enums) ∧
    ∃ log, ((selecting "Missing").generateCode polls none).1.map Generated.code =
        .error (.undefinedSelection (.str "Missing")) ∧
      ((selecting "Missing").generateCode polls none).2.1 = log ++
        [⟨.error, "Code generation failed: Selected type 'Missing' is not defined in the schema"⟩] := by
  have htexts := textOverrides_singleton "AWSDate" "java.time.LocalDate"
  obtain ⟨hmood, hcounts, -⟩ := report_of_generate (g := selecting "Mood") rfl rfl htexts textual_polls none
  obtain ⟨hmissing, -, hnoted⟩ := report_of_generate (g := selecting "Missing") rfl rfl htexts textual_polls none
  refine ⟨?_, ?_⟩
  · obtain ⟨text, t, htext⟩ := exists_yields_of_succeeds
      (show succeeds ((selecting "Mood").textPass polls none) {} = true by decide +kernel)
    have hgenerated : ((selecting "Mood").generate polls none).1 = .ok text := congrArg Prod.fst htext
    rw [hgenerated] at hmood ⊢
    cases hreport : ((selecting "Mood").generateCode polls none).1 with
    | error f =>
      rw [hreport] at hmood
      cases hmood
    | ok r =>
      rw [hreport] at hmood
      obtain ⟨hmodels, henums, hmode, -⟩ := hcounts r hreport
      exact ⟨r, rfl, hmood.symm, hmodels, henums, (Except.ok.inj hmode).symm⟩
  · have hfails : ((selecting "Missing").generate polls none).1 = .error (.undefinedSelection (.str "Missing")) := by
      rfl
    rw [hfails] at hmissing
    cases hreport : ((selecting "Missing").generateCode polls none).1 with
    | ok r =>
      rw [hreport] at hmissing
      cases hmissing
    | error f =>
      rw [hreport] at hmissing
      obtain rfl : f = .undefinedSelection (.str "Missing") := Except.error.inj hmissing
      obtain ⟨log, hlog⟩ := hnoted _ hreport
      exact ⟨log, rfl, hlog⟩

end Java

end SchemaForge

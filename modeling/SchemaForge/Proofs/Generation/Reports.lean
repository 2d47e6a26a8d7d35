import SchemaForge.Proofs.Generation.Outcomes
import SchemaForge.Proofs.Generation.Selection

/-
A report and the text it reports. A report is made in one go: warnings first, then the text, then a look at what was in
scope. A failure anywhere on this way is noted and becomes the result.

For the text alone the first and the last do not matter. They add no failure of their own if the warnings of the target
can always be found, and if its passes end with a text only where the selection is one of the schema: what the counts
need is then selected, too (`metadata_of_textPass`). So a report ends as the text alone does (`ends_generateCode`).
-/

namespace SchemaForge.Generation

/-- The mode that is asked for, or the one the settings choose. -/
def chosenMode (g : Generator) (schema : Schema) : Option Mode → Except Failure Mode
  | some mode => .ok mode
  | none => resolveMode g.settings schema

def metadataOf (g : Generator) (schema : Schema) (mode : Mode) : Metadata where
  language := g.backend.language
  fileExtension := g.backend.fileExtension
  mode := mode
  modelCount := scopeSize g.settings schema.models
  enumCount := scopeSize g.settings schema.enums
  packageName := g.settings.packageName

/-- What there is to report about a text. -/
def reportOf (g : Generator) (schema : Schema) (mode : Mode) (warnings : List String) (text : String) : Generated where
  code := text
  warnings := warnings
  metadata := metadataOf g schema mode

/-- No pass ends with a text unless something can be selected. -/
def NeedsSelection (g : Generator) (schema : Schema) : Prop :=
  ∀ mode s raw t, Pass.Yields (g.modePass schema mode) s raw t →
    (∃ models, selectedModels g.settings schema = .ok models) ∨ ∃ enums, selectedEnums g.settings schema = .ok enums

namespace Pass

variable {g : Generator} {schema : Schema} {mode : Option Mode} {warnings : List String}

theorem textPass_eq (g : Generator) (schema : Schema) (mode : Option Mode) :
    g.textPass schema mode = Generator.ofExcept (chosenMode g schema mode) >>= fun m => g.textPass schema (some m) := by
  cases mode with
  | some m => rfl
  | none => simp only [Generator.textPass, chosenMode, pure_bind]

theorem reportPass_eq (g : Generator) (schema : Schema) (mode : Option Mode) :
    g.reportPass schema mode = (do
      let warnings ← Generator.ofExcept (g.warnings schema)
      let m ← Generator.ofExcept (chosenMode g schema mode)
      let code ← g.textPass schema (some m)
      return { code := code, warnings := warnings, metadata := ← Generator.ofExcept (g.metadata schema m) }) := by
  cases mode with
  | some m => rfl
  | none => rfl

theorem metadata_of_textPass (hneeds : NeedsSelection g schema) {m : Mode} {s t : Session} {text : String}
    (h : Yields (g.textPass schema (some m)) s text t) :
    g.metadata schema m = .ok (metadataOf g schema m) := by
  obtain ⟨_, _, -, h⟩ := yields_bind.mp h
  obtain ⟨_, _, -, h⟩ := yields_bind.mp h
  obtain ⟨raw, _, hraw, -⟩ := yields_bind.mp h
  obtain ⟨models, enums, hmodels, henums⟩ : ∃ models enums, selectedModels g.settings schema = .ok models ∧
      selectedEnums g.settings schema = .ok enums := by
    rcases hneeds _ _ _ _ hraw with ⟨models, hmodels⟩ | ⟨enums, henums⟩
    · obtain ⟨enums, henums⟩ := exists_select_swap hmodels
      exact ⟨models, enums, hmodels, henums⟩
    · obtain ⟨models, hmodels⟩ := exists_select_swap henums
      exact ⟨models, enums, hmodels, henums⟩
  unfold Generator.metadata metadataOf
  rw [hmodels, henums, ← length_of_select hmodels, ← length_of_select henums]
  rfl

/-- A text and its report end alike: both are made, in the same mode, or both fail in the same way. -/
theorem ends_reportPass (hneeds : NeedsSelection g schema)
    (hwarnings : g.warnings schema = .ok warnings) (s : Session) :
    (∃ m text, chosenMode g schema mode = .ok m ∧ outcome (g.textPass schema mode) s = .ok text ∧
        outcome (g.reportPass schema mode) s = .ok (reportOf g schema m warnings text)) ∨
      ∃ f, outcome (g.textPass schema mode) s = .error f ∧ outcome (g.reportPass schema mode) s = .error f := by
  rw [textPass_eq, reportPass_eq, hwarnings, outcome_bind (yields_ofExcept.mpr ⟨rfl, rfl⟩)]
  cases hmode : chosenMode g schema mode with
  | error f => exact Or.inr ⟨f, outcome_bind_error rfl, outcome_bind_error rfl⟩
  | ok m =>
    rw [outcome_bind (yields_ofExcept.mpr ⟨rfl, rfl⟩), outcome_bind (yields_ofExcept.mpr ⟨rfl, rfl⟩)]
    cases htext : outcome (g.textPass schema (some m)) s with
    | error f => exact Or.inr ⟨f, rfl, outcome_bind_error htext⟩
    | ok text =>
      obtain ⟨t, hyields⟩ := exists_yields_of_outcome htext
      refine Or.inl ⟨m, text, rfl, rfl, ?_⟩
      rw [outcome_bind hyields, metadata_of_textPass hneeds hyields]
      rfl

/-- A failure is noted behind all else, and handed on. -/
theorem run_reportOrNote (g : Generator) (schema : Schema) (mode : Option Mode) (s : Session) :
    ((g.reportOrNote schema mode).run.run s : Id _) =
      match ((g.reportPass schema mode).run.run s : Id _) with
      | (.ok r, t) => (.ok r, t)
      | (.error f, t) => (.error f, { t with log := t.log ++ [⟨.error, Generator.failureText f⟩] }) := by
  rw [Generator.reportOrNote, run_tryCatch]
  cases ((g.reportPass schema mode).run.run s : Id _) with
  | mk outcome t => cases outcome <;> rfl

end Pass

open Pass

variable {g : Generator} {schema : Schema} {mode : Option Mode} {warnings : List String}

theorem generateCode_eq_outcome (g : Generator) (schema : Schema) (mode : Option Mode) :
    (g.generateCode schema mode).1 = outcome (g.reportPass schema mode) { names := g.names } := by
  show (((g.reportOrNote schema mode).run.run { names := g.names } : Id _)).1 = _
  rw [run_reportOrNote, outcome]
  cases ((g.reportPass schema mode).run.run { names := g.names } : Id _) with
  | mk outcome t => cases outcome <;> rfl

/-- The two ways a report ends, next to the text alone. -/
theorem ends_generateCode (hneeds : NeedsSelection g schema)
    (hwarnings : g.warnings schema = .ok warnings) (mode : Option Mode) :
    (∃ m text, chosenMode g schema mode = .ok m ∧ (g.generate schema mode).1 = .ok text ∧
        (g.generateCode schema mode).1 = .ok (reportOf g schema m warnings text)) ∨
      ∃ f, (g.generate schema mode).1 = .error f ∧ (g.generateCode schema mode).1 = .error f := by
  rw [generate_eq_outcome, generateCode_eq_outcome]
  exact ends_reportPass hneeds hwarnings _

theorem log_of_failed_generateCode {f : Failure} (h : (g.generateCode schema mode).1 = .error f) :
    ∃ log, (g.generateCode schema mode).2.1 = log ++ [⟨.error, Generator.failureText f⟩] := by
  rw [generateCode_eq_outcome, outcome] at h
  show ∃ log, (((g.reportOrNote schema mode).run.run { names := g.names } : Id _)).2.log = _
  rw [run_reportOrNote]
  cases hrun : ((g.reportPass schema mode).run.run { names := g.names } : Id _) with
  | mk outcome t =>
    rw [hrun] at h
    obtain rfl : outcome = .error f := h
    exact ⟨t.log, rfl⟩

end SchemaForge.Generation

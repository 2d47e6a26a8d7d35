import SchemaForge.Proofs.Generation.Yields
import SchemaForge.Proofs.Java.ClassText
import SchemaForge.Proofs.Java.Emission
import SchemaForge.Proofs.Runs

/-
The class pass, taken apart. A class is declared first and printed then, and printing neither fails nor touches the
session (`yields_classText`). So the pass is a walk over the selected models that declares each of them, and its text is
the file head and the declarations, printed in order (`yields_classPass`). What is proved about a declaration is with
this a statement about the text.
-/

namespace SchemaForge.Java

open Generation Generation.Pass Runs

variable {settings : Settings} {mapper : TypeMapper} {schema : Schema} {s t : Session}

theorem yields_classText {m : Model} {out : String × Imports} :
    Yields (classText settings mapper m) s out t ↔
      ∃ c, Yields (ClassDecl.ofModel (commented settings) mapper m) s c t ∧ out = (c.source, c.imports) := by
  simp only [classText, yields_bind, yields_pure, yields_render, render_classTemplate, Except.ok.injEq]
  refine ⟨fun hr => ?_, fun hr => ?_⟩
  · obtain ⟨c, _, hc, _, _, ⟨rfl, rfl⟩, rfl, rfl⟩ := hr
    exact ⟨c, hc, rfl⟩
  · obtain ⟨c, hc, rfl⟩ := hr
    exact ⟨c, t, hc, _, t, ⟨rfl, rfl⟩, rfl, rfl⟩

/-- Only a model whose name is a text has a class. -/
theorem name_of_yields_ofModel {comments : Bool} {m : Model} {c : ClassDecl}
    (h : Yields (ClassDecl.ofModel comments mapper m) s c t) : ∃ n, m.name = .str n := by
  obtain ⟨_, _, _, -, -, -, -, -, -, hinstance, -⟩ := yields_ofModel h
  obtain ⟨n, hn, -⟩ := bind_eq_ok.mp hinstance
  exact ⟨n, toText_eq_ok hn⟩

theorem startMapper_of_yields (h : Yields (startMapper settings schema) s mapper t) :
    newMapper settings schema = .ok mapper ∧ t.names = {} := by
  simp only [startMapper, yields_bind, yields_resetNames, yields_ofFault] at h
  obtain ⟨-, -, rfl, hmapper, rfl⟩ := h
  exact ⟨hmapper, rfl⟩

theorem newMapper_schema (h : newMapper settings schema = .ok mapper) : mapper.schema = schema := by
  unfold newMapper at h
  simp only [bind_eq_ok, pure_eq_ok] at h
  obtain ⟨overrides, _, scalars, _, rfl⟩ := h
  rfl

theorem yields_classPass {text : String} (h : Yields (classPass settings schema) s text t) :
    ∃ mapper models s₁ t₁ cs head, newMapper settings schema = .ok mapper ∧
      selectedModels settings schema = .ok models ∧ s₁.names = {} ∧
      Yields ((Entries.values models).mapM (ClassDecl.ofModel (commented settings) mapper)) s₁ cs t₁ ∧
      Yields (fileHead settings (headImports ((cs.map ClassDecl.imports).foldl Imports.merge {}).drain.1)) t₁ head t ∧
      text = fileOf head (cs.map ClassDecl.source) := by
  simp only [classPass, yields_bind, yields_pure, yields_ofExcept] at h
  obtain ⟨mapper, _, hmapper, models, s₁, ⟨hmodels, rfl⟩, outs, t₁, houts, head, t₂, hhead, rfl, rfl⟩ := h
  obtain ⟨hmapper, hstart⟩ := startMapper_of_yields hmapper
  obtain ⟨cs, hcs, rfl⟩ := (yields_mapM_map (w := fun c : ClassDecl => (c.source, c.imports))
    (fun _ _ _ _ => yields_classText) _).mp houts
  refine ⟨mapper, models, s₁, t₁, cs, head, hmapper, hmodels, hstart, hcs, ?_, ?_⟩
  · rwa [List.map_map] at hhead
  · rw [List.map_map]
    rfl

end SchemaForge.Java

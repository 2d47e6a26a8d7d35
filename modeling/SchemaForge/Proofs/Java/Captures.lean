import SchemaForge.Proofs.Java.Identifiers
import SchemaForge.Proofs.Java.SimpleNames

/-
Names that the text of every class relies on, whatever its model is: `equals` calls `getClass()` on its argument `obj`,
`build()` and the setter of the identity call methods of `UUID`, and the class nests a `Builder` and the interfaces of
its steps. A name derived from the schema that is one of these captures it.

Among them only `Builder` is a word to avoid, and a getter or an interface gets no suffix even then. So the others are
captured, but only under the names that `captures_of_emitted_class` lists: by a field of the one word `class` or `uuid`,
by a model of the one word `obj`, and by a model that is named like an interface and is the first to be given the name.
-/

namespace SchemaForge.Java

open Generation Generation.Pass Naming

/-! ## Names of one word -/

theorem getterName_eq_getClass_iff {f : Field} : f.getterName = "getClass" ↔ wordsOf f.name.display = ["class"] := by
  have hlarge : "getClass" = "get" ++ String.ofList (Text.capitalize "class".toList) := by decide
  rw [Field.getterName, convert_without_suffix, hlarge, String.append_right_inj, wordsOf_eq_singleton,
    ← pascalChars_eq_iff_of_isLower (by simp [isLower])]
  exact String.ofList_inj

theorem queryName_eq_uuid_iff {f : Field} : f.queryName = "UUID" ↔ wordsOf f.name.display = ["uuid"] := by
  have hlarge : "UUID" = String.ofList ("uuid".toList.map Char.toUpper) := by simp
  rw [Field.queryName, convert_eq, if_neg (Bool.eq_false_iff.mp (forbids_constant _)), hlarge, wordsOf_eq_singleton,
    ← constantChars_eq_iff_of_isLower (by simp [isLower])]
  exact String.ofList_inj

/-- No suffix is in the way, since `obj` has none. -/
theorem convert_camel_eq_obj_iff {n : String} : rules.convert n .camel conflictSuffix = "obj" ↔ wordsOf n = ["obj"] := by
  rw [wordsOf_eq_singleton, ← camelChars_eq_iff_of_isLower (by simp [isLower]), convert_eq]
  split
  · rename_i hforbidden
    refine iff_of_false (fun h => ?_) fun h => ?_
    · have hmem : '_' ∈ "obj".toList := by
        rw [← h]
        simp [conflictSuffix]
      revert hmem
      decide
    · have hobj : styled .camel n = "obj" := congrArg String.ofList h
      rw [hobj] at hforbidden
      revert hforbidden
      decide
  · exact String.ofList_inj

/-! ## The name of the class -/

section ClassName

variable {asked : List String} {n i : String}

theorem underscore_not_mem_stepInterfaceOf (name : String) : '_' ∉ (stepInterfaceOf name).toList := by
  intro h
  rw [stepInterfaceOf, convert_without_suffix, String.toList_append, String.toList_append, List.mem_append,
    List.mem_append] at h
  rcases h with (h | h) | h
  · revert h
    decide
  · rw [styled, String.toList_ofList] at h
    exact ne_underscore_of_isLetter (isLetter_of_mem_pascalChars h) rfl
  · revert h
    decide

/-- No word to avoid begins like an interface. -/
theorem forbids_stepInterfaceOf (name : String) : rules.forbids (stepInterfaceOf name) = false := by
  have hwords : ∀ word ∈ reservedWords ++ generatedNames, word.toList.head? ≠ some 'I' := by decide
  refine Bool.eq_false_iff.mpr fun h => hwords _ (forbids_iff.mp h) ?_
  rw [stepInterfaceOf, String.append_assoc, String.toList_append]
  rfl

/-- A name without an underscore is given only where there is nothing to be told apart by a suffix or a number. -/
theorem given_eq_iff_of_plain (hplain : '_' ∉ i.toList) (hallowed : rules.forbids i = false) :
    given rules asked n = i ↔ rank (pascalBase rules) asked n = 0 ∧ styled .pascal n = i := by
  unfold given
  cases rank (pascalBase rules) asked n with
  | succ k =>
    refine iff_of_false (fun h => hplain ?_) fun h => by cases h.1
    rw [← h]
    simp [nthName, Allocator.numbered]
  | zero =>
    show rules.convert n .pascal "_" = i ↔ _
    rw [convert_eq]
    split
    · rename_i hforbidden
      refine iff_of_false (fun h => hplain ?_) fun h => ?_
      · rw [← h]
        simp
      · rw [h.2, hallowed] at hforbidden
        cases hforbidden
    · exact (and_iff_right rfl).symm

theorem given_eq_stepInterfaceOf_iff (name : String) :
    given rules asked n = stepInterfaceOf name ↔
      rank (pascalBase rules) asked n = 0 ∧ styled .pascal n = stepInterfaceOf name :=
  given_eq_iff_of_plain (underscore_not_mem_stepInterfaceOf name) (forbids_stepInterfaceOf name)

end ClassName

variable {m : Model} {c : ClassDecl}

theorem name_eq_given {comments : Bool} {mapper : TypeMapper} {D : List String} {n : String} {σ τ : Session}
    (hσ : Numbered rules D σ.names) (h : Yields (ClassDecl.ofModel comments mapper m) σ c τ) (hn : m.name = .str n) :
    c.name = given rules (ask D n) n := by
  obtain ⟨_, _, _, hnames, hname, -⟩ := yields_ofModel h
  rw [hn] at hname
  exact (className_of_numbered hname (hnames ▸ hσ)).1

/-- A class has the name of one of its interfaces when its Pascal name is that, and it is the first to be given it. -/
theorem name_mem_interfaces_iff {comments : Bool} {mapper : TypeMapper} {D : List String} {n : String} {σ τ : Session}
    (hσ : Numbered rules D σ.names) (h : Yields (ClassDecl.ofModel comments mapper m) σ c τ) (hn : m.name = .str n) :
    c.name ∈ c.interfaces ↔ rank (pascalBase rules) (ask D n) n = 0 ∧
      (styled .pascal n = buildInterface ∨ ∃ f ∈ m.fields, f.chained = true ∧ styled .pascal n = f.stepInterface) := by
  rw [mem_interfaces (emission_of_yields h), name_eq_given hσ h hn]
  refine ⟨fun hmem => ?_, fun hmem => ?_⟩
  · rcases hmem with ⟨f, hf, hchained, hi⟩ | hi
    · obtain ⟨hrank, hpascal⟩ := (given_eq_stepInterfaceOf_iff f.name.display).mp hi.symm
      exact ⟨hrank, Or.inr ⟨f, hf, hchained, hpascal⟩⟩
    · obtain ⟨hrank, hpascal⟩ := (given_eq_stepInterfaceOf_iff "Build").mp hi
      exact ⟨hrank, Or.inl hpascal⟩
  · obtain ⟨hrank, hpascal | ⟨f, hf, hchained, hpascal⟩⟩ := hmem
    · exact Or.inr ((given_eq_stepInterfaceOf_iff "Build").mpr ⟨hrank, hpascal⟩)
    · exact Or.inl ⟨f, hf, hchained, ((given_eq_stepInterfaceOf_iff f.name.display).mpr ⟨hrank, hpascal⟩).symm⟩

/-- A name of the members is one of the names of the fields. -/
theorem exists_member_iff {name : Member → String} {nameOf : Field → String} {text : String} (h : Emission m c)
    (hname : ∀ x ∈ c.members, name x = nameOf x.field) :
    (∃ x ∈ c.members, name x = text) ↔ ∃ f ∈ m.fields, nameOf f = text := by
  rw [← h.fields]
  refine ⟨fun hx => ?_, fun hf => ?_⟩
  · obtain ⟨x, hx, rfl⟩ := hx
    exact ⟨x.field, List.mem_map_of_mem hx, (hname x hx).symm⟩
  · obtain ⟨f, hf, rfl⟩ := hf
    obtain ⟨x, hx, rfl⟩ := List.mem_map.mp hf
    exact ⟨x, hx, hname x hx⟩

/-- When an emitted class captures a name that its text relies on, after any requests for class names: `getClass` and
    `UUID` by a field of this one word, `obj` by a model of this one word, and an interface by a model whose Pascal
    name is the interface's and which is the first to be given it. `Builder` is never captured. -/
theorem captures_of_emitted_class {s : Settings} {mapper : TypeMapper} {m : Model} {D : List String} {σ τ : Session}
    {out : String × Imports} (hσ : Numbered rules D σ.names) (h : Yields (classText s mapper m) σ out τ) :
    ∃ c n, Yields (ClassDecl.ofModel (commented s) mapper m) σ c τ ∧ out.1 = c.source ∧ m.name = .str n ∧
      ((∃ x ∈ c.members, x.names.getter = "getClass") ↔ ∃ f ∈ m.fields, wordsOf f.name.display = ["class"]) ∧
      ((∃ x ∈ c.members, x.names.query = "UUID") ↔ ∃ f ∈ m.fields, wordsOf f.name.display = ["uuid"]) ∧
      (c.instanceName = "obj" ↔ wordsOf n = ["obj"]) ∧ c.name ≠ "Builder" ∧
      (c.name ∈ c.interfaces ↔ rank (pascalBase rules) (ask D n) n = 0 ∧
        (styled .pascal n = buildInterface ∨ ∃ f ∈ m.fields, f.chained = true ∧ styled .pascal n = f.stepInterface)) := by
  obtain ⟨c, hc, rfl⟩ := yields_classText.mp h
  have he := emission_of_yields hc
  obtain ⟨n, hn⟩ := name_of_yields_ofModel hc
  obtain ⟨_, _, _, -, -, -, -, -, -, hinstance, -⟩ := yields_ofModel hc
  have hvariable : c.instanceName = rules.convert m.name.display .camel conflictSuffix := convertMember_eq hinstance
  rw [hn] at hvariable
  refine ⟨c, n, hc, rfl, hn, ?_, ?_, ?_, fun hbuilder => ?_, name_mem_interfaces_iff hσ hc hn⟩
  · simp only [exists_member_iff he he.getterName, getterName_eq_getClass_iff]
  · simp only [exists_member_iff he (queryNames_of_yields hc), queryName_eq_uuid_iff]
  · rw [hvariable]
    exact convert_camel_eq_obj_iff
  · have hallowed := not_forbids_given (ask D n) n
    rw [← name_eq_given hσ hc hn, hbuilder] at hallowed
    revert hallowed
    decide

/-- A model that is named like the terminal interface, with fields for two of the other names. -/
def buildStep : Model :=
  { name := .str "IBuildStep"
    fields := [
      { name := .str "id", type := .str "ID", nullable := false },
      { name := .str "-class", type := .str "String" },
      { name := .str "Uuid", type := .str "String", nullable := false }] }

theorem captures_of_buildStep :
    Numbered rules [] ({} : Session).names ∧
      ∃ out τ c, Yields (classText {} taskMapper buildStep) {} out τ ∧
        Yields (ClassDecl.ofModel (commented {}) taskMapper buildStep) {} c τ ∧ out.1 = c.source ∧
        (∃ x ∈ c.members, x.names.getter = "getClass") ∧ (∃ x ∈ c.members, x.names.query = "UUID") ∧
        c.instanceName ≠ "obj" ∧ c.name ∈ c.interfaces := by
  have hnew : Numbered rules [] ({} : Session).names := numbered_nil
  obtain ⟨out, τ, h⟩ := exists_yields_of_succeeds
    (show succeeds (classText {} taskMapper buildStep) {} = true by decide +kernel)
  obtain ⟨c, n, hc, hsource, hn, hgetter, hconstant, hvariable, -, hinterface⟩ := captures_of_emitted_class hnew h
  obtain rfl : "IBuildStep" = n := Json.str.inj hn
  have hwords : (∃ f ∈ buildStep.fields, wordsOf f.name.display = ["class"]) ∧
      (∃ f ∈ buildStep.fields, wordsOf f.name.display = ["uuid"]) ∧ ¬ wordsOf "IBuildStep" = ["obj"] ∧
      rank (pascalBase rules) (ask [] "IBuildStep") "IBuildStep" = 0 ∧ styled .pascal "IBuildStep" = buildInterface := by
    decide +kernel
  obtain ⟨hclass, huuid, hobj, hfirst, hbuild⟩ := hwords
  exact ⟨hnew, out, τ, c, h, hc, hsource, hgetter.mpr hclass, hconstant.mpr huuid, mt hvariable.mp hobj,
    hinterface.mpr ⟨hfirst, Or.inl hbuild⟩⟩

end SchemaForge.Java

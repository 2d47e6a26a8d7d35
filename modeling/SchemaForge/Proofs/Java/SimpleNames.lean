import SchemaForge.Proofs.Java.ImportList
import SchemaForge.Proofs.Java.ReservedNames

/-
Shortened names in a file of classes. Every qualified name is shortened, whatever other names there are. What a simple
name stands for is therefore up to the schema and the scalar table: two imports can have one simple name, or an import
that of a type which the file declares (`date_is_ambiguous`). A class declares itself, the interfaces of its steps and
its `Builder`. If schema and table keep names apart (`NamesApart`), and no class has the simple name of a base import,
then no simple name has two meanings, and only then (`unambiguous_iff_namesApart`).
-/

namespace SchemaForge.Java

open Generation Generation.Pass Naming

/-! ## Declared types -/

/-- The types that a class declares: itself, and nested in it the interfaces of its steps and its builder. -/
def ClassDecl.declaredTypes (c : ClassDecl) : List String := c.name :: (c.interfaces ++ ["Builder"])

/-- The text has a declaration of a type of this name. -/
def DeclaresType (source name : String) : Prop :=
  ∃ kind ∈ ["public final class ", "public interface ", "public static class "], ∃ before after,
    source = before ++ kind ++ name ++ " " ++ after

/-- The types that the class of a model declares after these requests for class names. -/
def typesOf (asked : List String) (m : Model) : List String :=
  given rules asked m.name.display ::
    ((m.fields.filter Field.chained).map Field.stepInterface ++ [buildInterface, "Builder"])

/-- No two imports have one simple name, and none has that of a declared type. -/
structure Unambiguous (imports declared : List String) : Prop where
  apart : ∀ q ∈ imports, ∀ q' ∈ imports, q ≠ "" → q' ≠ "" → simpleName q = simpleName q' → q = q'
  free : ∀ q ∈ imports, q ≠ "" → simpleName q ∉ declared

/-- The simple names of the base list. -/
def baseNames : List String := (classImports.filter (· ≠ "")).map simpleName

/-- The types of the fields keep to simple names of their own: among each other, next to the base list, and next to the
    types that the file declares. -/
structure NamesApart (mapper : TypeMapper) (models : List Model) (declared : List String) : Prop where
  types : ∀ q ∈ qualifiedNames mapper models, ∀ q' ∈ qualifiedNames mapper models, simpleName q = simpleName q' → q = q'
  base : ∀ q ∈ qualifiedNames mapper models, simpleName q ∈ baseNames → q ∈ classImports
  declared : ∀ q ∈ qualifiedNames mapper models, simpleName q ∉ declared

section

variable {m : Model} {c : ClassDecl} {source name : String}

theorem DeclaresType.append (h : DeclaresType source name) (start rest : String) :
    DeclaresType (start ++ source ++ rest) name := by
  obtain ⟨kind, hkind, before, after, rfl⟩ := h
  exact ⟨kind, hkind, start ++ before, after ++ rest, by simp only [String.append_assoc]⟩

theorem declaresType_heading : DeclaresType c.heading c.name := by
  have hend : " implements Model \x7b\n" = " " ++ "implements Model \x7b\n" := by decide
  unfold ClassDecl.heading
  exact ⟨_, List.mem_cons_self .., _, _, by rw [hend, ← String.append_assoc]⟩

theorem declaresType_step (s : StepDecl) : DeclaresType s.declaration s.interface := by
  have hstart : "\n  public interface " = "\n  " ++ "public interface " := by decide
  have hend : " \x7b\n    " = " " ++ "\x7b\n    " := by decide
  unfold StepDecl.declaration
  rw [hstart, hend]
  exact ⟨"public interface ", by simp, "\n  ", _, by simp only [String.append_assoc]; rfl⟩

theorem declaresType_terminal : DeclaresType c.terminalInterface c.terminal := by
  have hstart : "\n  public interface " = "\n  " ++ "public interface " := by decide
  have hend : " \x7b\n    " = " " ++ "\x7b\n    " := by decide
  unfold ClassDecl.terminalInterface
  rw [hstart, hend]
  exact ⟨"public interface ", by simp, "\n  ", _, by simp only [String.append_assoc]; rfl⟩

theorem declaresType_builder : DeclaresType c.terminalInterface "Builder" := by
  have hbuilder : DeclaresType "  \x7d\n\n  public static class Builder implements " "Builder" :=
    ⟨"public static class ", by simp, "  \x7d\n\n  ", "implements ", by decide⟩
  unfold ClassDecl.terminalInterface
  rw [String.append_assoc]
  exact hbuilder.append _ _

theorem declaresType_steps {ss : List StepDecl} {s : StepDecl} (h : s ∈ ss) :
    DeclaresType (String.join (ss.map StepDecl.declaration)) s.interface := by
  obtain ⟨before, after, rfl⟩ := List.append_of_mem h
  rw [List.map_append, List.map_cons, String.join_append, String.join_cons, ← String.append_assoc]
  exact (declaresType_step s).append _ _

theorem declaresType_source (h : name ∈ c.declaredTypes) : DeclaresType c.source name := by
  have hsource : ∃ start rest, c.source =
      start ++ String.join (c.steps.map StepDecl.declaration) ++ c.terminalInterface ++ rest := by
    unfold ClassDecl.source
    exact ⟨c.heading ++ String.join (c.members.map Member.queryDeclaration) ++
      String.join (c.members.map Member.declaration), _, by simp only [String.append_assoc]; rfl⟩
  obtain ⟨start, rest, hsource⟩ := hsource
  have hnested : name ∈ c.interfaces ∨ name = "Builder" → DeclaresType c.source name := by
    rw [hsource, ClassDecl.interfaces, List.mem_append, List.mem_map, List.mem_singleton]
    rintro ((⟨s, hs, rfl⟩ | rfl) | rfl)
    · rw [String.append_assoc]
      exact (declaresType_steps hs).append _ _
    · exact declaresType_terminal.append _ _
    · exact declaresType_builder.append _ _
  rw [ClassDecl.declaredTypes, List.mem_cons, List.mem_append, List.mem_singleton] at h
  rcases h with rfl | h
  · unfold ClassDecl.source
    simp only [String.append_assoc]
    exact declaresType_heading.append "" _
  · exact hnested h

end

/-! ## The base list -/

theorem mem_baseNames {n : String} : n ∈ baseNames ↔ ∃ b ∈ classImports, b ≠ "" ∧ simpleName b = n := by
  simp [baseNames, and_assoc]

theorem baseNames_apart : ∀ b ∈ classImports, ∀ b' ∈ classImports, b ≠ "" → b' ≠ "" → simpleName b = simpleName b' →
    b = b' := by
  decide +kernel

/-! ## Class names -/

/-- No class has a name that is to be avoided, however it is numbered. -/
theorem not_forbids_given (asked : List String) (n : String) : rules.forbids (given rules asked n) = false := by
  have hsafe : rules.SafeSuffix (Request.mk n .pascal "_").suffix := safeSuffix_conflictSuffix
  exact forbids_nth hsafe (rank (pascalBase rules) asked n)

/-! ## The file -/

section

variable {mapper : TypeMapper} {models : List Model} {declared : List String}

theorem ne_blank_of_mem_qualifiedNames {q : String} (h : q ∈ qualifiedNames mapper models) : q ≠ "" := by
  obtain ⟨m, -, hq⟩ := List.mem_flatMap.mp h
  obtain ⟨f, -, hq⟩ := List.mem_filterMap.mp hq
  exact ne_blank_of_qualifiedName? hq

theorem mem_importList_of_used {q : String} (h : q ∈ qualifiedNames mapper models) : q ∈ importList mapper models :=
  (mem_importList (ne_blank_of_mem_qualifiedNames h)).mpr (Or.inl h)

theorem namesApart_of_unambiguous (h : Unambiguous (importList mapper models) declared) :
    NamesApart mapper models declared ∧ ∀ n ∈ declared, n ∉ baseNames := by
  refine ⟨⟨fun q hq q' hq' => ?_, fun q hq hbase => ?_, fun q hq => ?_⟩, fun n hn hbase => ?_⟩
  · exact h.apart q (mem_importList_of_used hq) q' (mem_importList_of_used hq') (ne_blank_of_mem_qualifiedNames hq)
      (ne_blank_of_mem_qualifiedNames hq')
  · obtain ⟨b, hb, hblank, hsimple⟩ := mem_baseNames.mp hbase
    have hlisted : b ∈ importList mapper models := (mem_importList hblank).mpr (Or.inr hb)
    rwa [h.apart q (mem_importList_of_used hq) b hlisted (ne_blank_of_mem_qualifiedNames hq) hblank hsimple.symm]
  · exact h.free q (mem_importList_of_used hq) (ne_blank_of_mem_qualifiedNames hq)
  · obtain ⟨b, hb, hblank, rfl⟩ := mem_baseNames.mp hbase
    exact h.free b ((mem_importList hblank).mpr (Or.inr hb)) hblank hn

theorem unambiguous_of_namesApart (h : NamesApart mapper models declared) (hbase : ∀ n ∈ declared, n ∉ baseNames) :
    Unambiguous (importList mapper models) declared := by
  have hsides : ∀ q ∈ qualifiedNames mapper models, ∀ b ∈ classImports, b ≠ "" →
      simpleName q = simpleName b → q = b := by
    intro q hq b hb hblank heq
    have hmem := h.base q hq (mem_baseNames.mpr ⟨b, hb, hblank, heq.symm⟩)
    exact baseNames_apart q hmem b hb (ne_blank_of_mem_qualifiedNames hq) hblank heq
  -- An import is the type of a field or stands in the base list, and so does any other.
  refine ⟨fun q hq q' hq' hblank hblank' heq => ?_, fun q hq hblank hmem => ?_⟩
  · rcases (mem_importList hblank).mp hq with hq | hq <;> rcases (mem_importList hblank').mp hq' with hq' | hq'
    · exact h.types q hq q' hq' heq
    · exact hsides q hq q' hq' hblank' heq
    · exact (hsides q' hq' q hq hblank heq.symm).symm
    · exact baseNames_apart q hq q' hq' hblank hblank' heq
  · rcases (mem_importList hblank).mp hq with hq | hq
    · exact h.declared q hq hmem
    · exact hbase _ hmem (mem_baseNames.mpr ⟨q, hq, hblank, rfl⟩)

theorem classNames_eq {asked : List String} {es : List (Model × ClassDecl)}
    (h : ∀ e ∈ es, ClassNamed mapper asked e.1 e.2) :
    es.map (·.2.name) = (es.map (·.1)).map (fun m => given rules asked m.name.display) := by
  rw [List.map_map]
  exact List.map_congr_left fun e he => (h e he).1

theorem declaredTypes_eq {asked : List String} {es : List (Model × ClassDecl)}
    (h : ∀ e ∈ es, Emission e.1 e.2 ∧ ClassNamed mapper asked e.1 e.2) :
    es.flatMap (·.2.declaredTypes) = (es.map (·.1)).flatMap (typesOf asked) := by
  rw [List.flatMap_map]
  refine List.flatMap_congr fun e he => ?_
  obtain ⟨hemitted, hnamed⟩ := h e he
  have hsteps : (e.2.members.filter (·.field.chained)).map Member.stepName =
      (e.1.fields.filter Field.chained).map Field.stepInterface := by
    rw [← hemitted.fields, List.filter_map, List.map_map]
    rfl
  rw [ClassDecl.declaredTypes, interfaces_eq hemitted, hsteps, hnamed.1, typesOf, List.append_assoc]
  rfl

/-- No base import ends like an interface. -/
theorem stepInterfaceOf_not_mem_baseNames (name : String) : stepInterfaceOf name ∉ baseNames := by
  have hends : ∀ n ∈ baseNames, n.toList.getLast? ≠ some 'p' := by decide +kernel
  refine fun h => hends _ h ?_
  rw [stepInterfaceOf, String.toList_append, List.getLast?_append]
  rfl

/-- What is nested in a class keeps clear of the base list. -/
theorem declared_not_mem_baseNames_iff {es : List (Model × ClassDecl)} (h : ∀ e ∈ es, Emission e.1 e.2) :
    (∀ n ∈ es.flatMap (·.2.declaredTypes), n ∉ baseNames) ↔ ∀ n ∈ es.map (·.2.name), n ∉ baseNames := by
  refine ⟨fun hdeclared n hn => ?_, fun hclasses n hn => ?_⟩
  · obtain ⟨e, he, rfl⟩ := List.mem_map.mp hn
    exact hdeclared _ (List.mem_flatMap.mpr ⟨e, he, List.mem_cons_self ..⟩)
  · obtain ⟨e, he, hn⟩ := List.mem_flatMap.mp hn
    rw [ClassDecl.declaredTypes, List.mem_cons, List.mem_append, mem_interfaces (h e he), List.mem_singleton] at hn
    rcases hn with rfl | (⟨f, -, -, rfl⟩ | rfl) | rfl
    · exact hclasses _ (List.mem_map_of_mem he)
    · exact stepInterfaceOf_not_mem_baseNames _
    · exact stepInterfaceOf_not_mem_baseNames _
    · decide +kernel

end

/-- In a file of classes no simple name has two meanings exactly when the types of the fields, the base list and the
    declared types are kept apart, and no class has the simple name of a base import. The declared types are the classes
    under the names given to their models, the interfaces of their steps, and a builder each. No class has a name that the
    generated ones use. -/
theorem unambiguous_iff_namesApart {settings : Settings} {schema : Schema} {s t : Session} {text : String}
    (h : Yields (classPass settings schema) s text t) :
    ∃ mapper es imports, newMapper settings schema = .ok mapper ∧ (Output.classes es).Prints settings schema text ∧
      text = fileOf (headText settings.packageName imports) (es.map (·.2.source)) ∧
      es.map (·.2.name) =
        (es.map (·.1)).map (fun m => given rules (asked settings schema .classes) m.name.display) ∧
      es.flatMap (·.2.declaredTypes) = (es.map (·.1)).flatMap (typesOf (asked settings schema .classes)) ∧
      (∀ e ∈ es, ∀ n ∈ e.2.declaredTypes, DeclaresType e.2.source n) ∧
      (Unambiguous imports (es.flatMap (·.2.declaredTypes)) ↔
        NamesApart mapper (es.map (·.1)) (es.flatMap (·.2.declaredTypes)) ∧ ∀ n ∈ es.map (·.2.name), n ∉ baseNames) ∧
      ∀ n ∈ es.map (·.2.name), n ∉ generatedNames := by
  obtain ⟨mapper, es, hmapper, hprints, htext, -, hes⟩ := imports_of_classPass h
  have hclasses := classNames_eq fun e he => (hes e he).2.1
  refine ⟨mapper, es, _, hmapper, hprints, htext, hclasses, declaredTypes_eq fun e he => ⟨(hes e he).1, (hes e he).2.1⟩,
    fun e _ n hn => declaresType_source hn, ?_, fun n hn hmem => ?_⟩
  · rw [← declared_not_mem_baseNames_iff fun e he => (hes e he).1]
    exact ⟨namesApart_of_unambiguous, fun hapart => unambiguous_of_namesApart hapart.1 hapart.2⟩
  · rw [hclasses] at hn
    obtain ⟨m, -, rfl⟩ := List.mem_map.mp hn
    have hgiven := not_forbids_given (asked settings schema .classes) m.name.display
    exact Bool.eq_false_iff.mp hgiven (forbids_iff.mpr (List.mem_append_right _ hmem))

theorem unambiguous_journal :
    ∃ text t es imports, Yields (classPass {} journal) {} text t ∧ (Output.classes es).Prints {} journal text ∧
      text = fileOf (headText (.str "com.amplifyframework.datastore.generated.model") imports)
        (es.map (·.2.source)) ∧ Unambiguous imports (es.flatMap (·.2.declaredTypes)) := by
  obtain ⟨text, t, h⟩ := exists_yields_of_succeeds
    (show succeeds (classPass {} journal) {} = true by decide +kernel)
  obtain ⟨mapper, es, imports, hmapper, hprints, htext, hclasses, hdeclared, -, hiff, -⟩ := unambiguous_iff_namesApart h
  obtain rfl : { schema := journal, scalars := defaultScalars } = mapper := Except.ok.inj hmapper
  obtain ⟨models, _, hmodels, hfst, -⟩ := id hprints
  obtain rfl : journal.models = models := Except.ok.inj hmodels
  rw [hclasses, hdeclared, hfst] at hiff
  refine ⟨text, t, es, imports, h, hprints, htext, ?_⟩
  rw [hdeclared, hfst]
  exact hiff.mpr ⟨⟨by decide +kernel, by decide +kernel, by decide +kernel⟩, by decide +kernel⟩

/-- A model whose name is the simple name of one of its types, two types of this simple name, and one of the simple
    name of a nested class. -/
def calendar : Schema :=
  { models := [(.str "Date", { name := .str "Date", fields := [
      { name := .str "id", type := .str "ID" }, { name := .str "opens", type := .str "AWSDate" },
      { name := .str "closes", type := .str "java.sql.Date" },
      { name := .str "maker", type := .str "com.acme.Builder" }] })] }

/-- All three types are imported, and the class and its builder are declared under their simple names too. -/
theorem date_is_ambiguous :
    ∃ text t es imports, Yields (classPass {} calendar) {} text t ∧ (Output.classes es).Prints {} calendar text ∧
      text = fileOf (headText (.str "com.amplifyframework.datastore.generated.model") imports)
        (es.map (·.2.source)) ∧ "java.util.Date" ∈ imports ∧ "java.sql.Date" ∈ imports ∧
      "com.acme.Builder" ∈ imports ∧ es.flatMap (·.2.declaredTypes) = ["Date", "IBuildStep", "Builder"] ∧
      ¬ Unambiguous imports (es.flatMap (·.2.declaredTypes)) := by
  obtain ⟨text, t, h⟩ := exists_yields_of_succeeds
    (show succeeds (classPass {} calendar) {} = true by decide +kernel)
  obtain ⟨mapper, es, hmapper, hprints, htext, -, hes⟩ := imports_of_classPass h
  obtain rfl : { schema := calendar, scalars := defaultScalars } = mapper := Except.ok.inj hmapper
  obtain ⟨models, _, hmodels, hfst, -⟩ := id hprints
  obtain rfl : calendar.models = models := Except.ok.inj hmodels
  have himported : ∀ q ∈ ["java.util.Date", "java.sql.Date", "com.acme.Builder"],
      q ∈ importList { schema := calendar, scalars := defaultScalars } (es.map (·.1)) := by
    rw [hfst]
    decide +kernel
  have hutil := himported "java.util.Date" (by decide)
  have hsql := himported "java.sql.Date" (by decide)
  have hdeclared : es.flatMap (·.2.declaredTypes) = ["Date", "IBuildStep", "Builder"] := by
    rw [declaredTypes_eq fun e he => ⟨(hes e he).1, (hes e he).2.1⟩, hfst]
    decide +kernel
  refine ⟨text, t, es, _, h, hprints, htext, hutil, hsql, himported _ (by decide), hdeclared, fun hun => ?_⟩
  have := hun.apart _ hutil _ hsql (by decide) (by decide) (by decide +kernel)
  revert this
  decide

end SchemaForge.Java

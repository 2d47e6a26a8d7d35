import SchemaForge.Proofs.Generation.Selection
import SchemaForge.Proofs.Java.TypeNames
import SchemaForge.Proofs.Schema.Names

/-
The class names of one class pass. A pass names a class when it first meets it, which may be in a field of a model that
comes before it. From then on the name stands: for the declaration, for every field of the type, in whatever order the
models refer to each other (`class_names_of_classPass`).

The pass tells types apart by their texts. Models have texts for names, so no two of the selected ones are declared
under one name. A field may have any value for its type, and values of one text share one name
(`enums_of_one_text_share_a_name`).
-/

namespace SchemaForge

open Generation Generation.Pass Naming

namespace Java

variable {settings : Settings} {schema : Schema} {s t : Session} {text : String}

theorem nodup_names_of_selectedModels {d : Json} {models : List (Json × Model)} (hd : Schema.ofDocument d = .ok schema)
    (h : selectedModels settings schema = .ok models) (htexts : ∀ m ∈ Entries.values models, ∃ n, m.name = .str n) :
    ((Entries.values models).map (·.name)).Nodup := by
  rcases all_or_one_of_select h with rfl | hone
  · exact Document.nodup_names_of_ofDocument hd htexts
  · match models, hone with
    | [], _ => exact List.nodup_nil
    | [e], _ => exact List.nodup_singleton _

/-- Things with different texts for names are given different names. -/
theorem nodup_given {α : Type} {name : α → Json} {xs : List α} {asked : List String} (hnodup : (xs.map name).Nodup)
    (htexts : ∀ x ∈ xs, ∃ n, name x = .str n) (hasked : ∀ x ∈ xs, (name x).display ∈ asked) :
    (xs.map (fun x => given rules asked (name x).display)).Nodup := by
  refine List.Nodup.map_on (fun x hx y hy heq => ?_) (List.Nodup.of_map _ hnodup)
  refine List.inj_on_of_nodup_map hnodup hx hy ?_
  have hsame := given_inj (hasked x hx) (hasked y hy) heq
  obtain ⟨n, hn⟩ := htexts x hx
  obtain ⟨k, hk⟩ := htexts y hy
  rw [hn, hk] at hsame ⊢
  exact congrArg Json.str hsame

/-- A pass over a schema uses one class name for each text of a type: a model is declared under the name for its own,
    and a field that is typed by a model or enum is written with the name for its type. Types of different texts have
    different names, so the models of a document are declared under different ones. -/
theorem class_names_of_classPass (h : Yields (classPass settings schema) s text t) :
    ∃ (mapper : TypeMapper) (es : List (Model × ClassDecl)) (nameOf : String → String),
      newMapper settings schema = .ok mapper ∧ (Output.classes es).Prints settings schema text ∧
      (∀ e ∈ es, ∃ n, e.1.name = .str n ∧ e.2.name = nameOf n) ∧
      (∀ e ∈ es, ∀ x ∈ e.2.members, mapper.asks x.field = true →
        x.type = written x.field (nameOf x.field.type.display)) ∧
      (∀ T ∈ requests settings schema .classes, ∀ U ∈ requests settings schema .classes,
        nameOf T.display = nameOf U.display → T.display = U.display) ∧
      ((∃ d, Schema.ofDocument d = .ok schema) → (es.map (·.2.name)).Nodup) := by
  obtain ⟨mapper, es, hmapper, hprints, -, hreq, hnamed⟩ := classes_of_classPass h
  have hapart : ∀ T ∈ requests settings schema .classes, ∀ U ∈ requests settings schema .classes,
      given rules (asked settings schema .classes) T.display = given rules (asked settings schema .classes) U.display →
        T.display = U.display :=
    fun T hT U hU => given_inj (mem_askAll hT) (mem_askAll hU)
  have hrequested : ∀ e ∈ es, e.1.name ∈ requests settings schema .classes := by
    intro e he
    rw [hreq]
    exact List.mem_flatMap.mpr ⟨e.1, List.mem_map_of_mem he, List.mem_cons_self ..⟩
  refine ⟨mapper, es, given rules (asked settings schema .classes), hmapper, hprints, fun e he => ?_,
    fun e he x hx hasks => ?_, hapart, fun hdocument => ?_⟩
  · obtain ⟨⟨n, hn⟩, hclass, -⟩ := hnamed e he
    rw [hn] at hclass
    exact ⟨n, hn, hclass⟩
  · obtain ⟨-, -, hmembers⟩ := hnamed e he
    obtain ⟨f, -, rfl, hwritten⟩ := (partner_of_forall₂ hmembers).2 x hx
    exact hwritten hasks
  · obtain ⟨d, hd⟩ := hdocument
    obtain ⟨models, _, hmodels, hfst, -⟩ := hprints
    have hnames : (es.map (·.1.name)).Nodup := by
      have := nodup_names_of_selectedModels hd hmodels (fun m hm => by
        obtain ⟨e, he, rfl⟩ := List.mem_map.mp (hfst ▸ hm)
        exact (hnamed e he).1)
      rwa [← hfst, List.map_map] at this
    refine List.Nodup.map_on (fun e he e' he' heq => ?_) (List.Nodup.of_map _ hnames)
    refine List.inj_on_of_nodup_map hnames he he' ?_
    obtain ⟨⟨n, hn⟩, hclass, -⟩ := hnamed e he
    obtain ⟨⟨n', hn'⟩, hclass', -⟩ := hnamed e' he'
    have := hapart _ (hrequested e he) _ (hrequested e' he') (hclass.symm.trans (heq.trans hclass'))
    rw [hn, hn'] at this ⊢
    exact congrArg Json.str this

/-- Models that refer forward, backward and to themselves, and an enum that a field mentions before the model it
    collides with. -/
def threads : Schema :=
  { models := [
      (.str "thread", { name := .str "thread", fields := [
        { name := .str "id", type := .str "ID" }, { name := .str "mood", type := .str "post" },
        { name := .str "posts", type := .str "Post", list := true },
        { name := .str "parent", type := .str "thread" }] }),
      (.str "Post", { name := .str "Post", fields := [
        { name := .str "id", type := .str "ID" }, { name := .str "thread", type := .str "thread" }] })]
    enums := [(.str "post", { name := .str "post", values := [.str "GLAD"] })] }

theorem ofDocument_threads : ∃ d, Schema.ofDocument d = .ok threads := by
  let model (name : String) (fields : List Json) : Json := .obj [("name", .str name), ("fields", .arr fields)]
  let field (name type : String) (list : Bool) : Json :=
    .obj [("name", .str name), ("type", .str type), ("isList", .bool list)]
  let thread := model "thread"
    [field "id" "ID" false, field "mood" "post" false, field "posts" "Post" true, field "parent" "thread" false]
  let post := model "Post" [field "id" "ID" false, field "thread" "thread" false]
  let mood : Json := .obj [("name", .str "post"), ("values", .arr [.str "GLAD"])]
  exact ⟨.obj [("models", .arr [thread, post]), ("enums", .arr [mood])], rfl⟩

/-- The enum has the name of the later model, which is declared under the next one. -/
theorem class_names_of_threads :
    ∃ text t es, ∃ nameOf : String → String, Yields (classPass {} threads) {} text t ∧
      (Output.classes es).Prints {} threads text ∧ (es.map (·.2.name)).Nodup ∧
      (∀ e ∈ es, ∃ n, e.1.name = .str n ∧ e.2.name = nameOf n) ∧
      nameOf "post" ≠ nameOf "Post" := by
  obtain ⟨text, t, h⟩ := exists_yields_of_succeeds
    (show succeeds (classPass {} threads) {} = true by decide +kernel)
  obtain ⟨mapper, es, nameOf, hmapper, hprints, hdeclared, -, hapart, hnodup⟩ := class_names_of_classPass h
  have henum : .str "post" ∈ requests {} threads .classes := str_mem_of_any (by decide +kernel)
  have hmodel : .str "Post" ∈ requests {} threads .classes := str_mem_of_any (by decide +kernel)
  refine ⟨text, t, es, nameOf, h, hprints, hnodup ofDocument_threads, hdeclared, fun heq => ?_⟩
  have := hapart _ henum _ hmodel heq
  revert this
  decide

/-- A model with fields of two enums whose names have one text. -/
def flag : Model :=
  { name := .str "Flag"
    fields := [
      { name := .str "id", type := .str "ID" }, { name := .str "first", type := .str "True" },
      { name := .str "second", type := .bool true }] }

def flags : Schema :=
  { models := [(.str "Flag", flag)]
    enums := [(.str "True", { name := .str "True", values := [.str "A"] }),
      (.bool true, { name := .bool true, values := [.str "B"] })] }

/-- The first mention of either enum settles the name of both. -/
theorem enums_of_one_text_share_a_name :
    ∃ text t mapper es, Yields (classPass {} flags) {} text t ∧ newMapper {} flags = .ok mapper ∧
      (Output.classes es).Prints {} flags text ∧ ∃ e ∈ es, ∃ x ∈ e.2.members, ∃ y ∈ e.2.members,
        flags.isEnum x.field.type = true ∧ flags.isEnum y.field.type = true ∧ mapper.asks x.field = true ∧
        mapper.asks y.field = true ∧ (x.field.type == y.field.type) = false ∧ x.type = "True" ∧ y.type = "True" := by
  obtain ⟨text, t, h⟩ := exists_yields_of_succeeds
    (show succeeds (classPass {} flags) {} = true by decide +kernel)
  obtain ⟨mapper, es, hmapper, hprints, -, -, hnamed⟩ := classes_of_classPass h
  obtain rfl : { schema := flags, scalars := defaultScalars } = mapper := Except.ok.inj hmapper
  obtain ⟨models, _, hmodels, hfst, -⟩ := id hprints
  obtain rfl : flags.models = models := Except.ok.inj hmodels
  have hflag : flag ∈ es.map (·.1) := hfst ▸ List.mem_singleton.mpr rfl
  obtain ⟨e, he, hmodel⟩ := List.mem_map.mp hflag
  obtain ⟨-, -, hmembers⟩ := hnamed e he
  rw [hmodel] at hmembers
  obtain ⟨x, hx, hfirst, hxtype⟩ := (partner_of_forall₂ hmembers).1 { name := .str "first", type := .str "True" }
    (by simp [flag])
  obtain ⟨y, hy, hsecond, hytype⟩ := (partner_of_forall₂ hmembers).1 { name := .str "second", type := .bool true }
    (by simp [flag])
  refine ⟨text, t, _, es, h, hmapper, hprints, e, he, x, hx, y, hy, ?_⟩
  rw [hfirst, hsecond, hxtype (by decide +kernel), hytype (by decide +kernel)]
  decide +kernel

end Java

end SchemaForge

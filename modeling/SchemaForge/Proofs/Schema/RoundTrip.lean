import SchemaForge.Proofs.Schema.Names
import SchemaForge.Schema.Version

/-
A schema written as a document and read again. Reading fills in what a record leaves out and turns the items of a list
argument into texts; what it makes of a record says all of it, so the record written from that is read as just the same
(`directive_toJson`, `field_toJson`, `addModel_toJson`). The only thing a reader asks of a directive is that its list
arguments hold texts, and every directive that was read is such a one (`ofTexts_of_addModel`).

The models of a schema are kept under their names, none of them twice. So the document that lists them is read as the
same models in the same order, with the same version, and reading has no more to change after the first time
(`ofDocument_toDocument`).
-/

namespace SchemaForge

/-- The models of a schema as a document, in order. -/
def Schema.toDocument (s : Schema) : Json := .obj [("models", .arr ((Entries.values s.models).map Model.toJson))]

/-- The items of a list argument are texts. -/
def Directive.OfTexts (d : Directive) : Prop :=
  ∀ e ∈ d.arguments, ∀ xs, e.2 = .arr xs → ∀ x ∈ xs, ∃ text, x = .str text

structure Model.OfTexts (m : Model) : Prop where
  fields : ∀ f ∈ m.fields, ∀ d ∈ f.directives, d.OfTexts
  directives : ∀ d ∈ m.directives, d.OfTexts

namespace Document

open Runs

/-! ## What was read is of texts -/

theorem ofTexts_of_directive {raw : Json} {d : Directive} (h : directive raw = .ok d) : d.OfTexts := by
  obtain ⟨_, -, -, hargs⟩ := directive_eq_ok h
  intro e he xs hxs x hx
  rcases arguments_eq_ok hargs with hnil | ⟨ms, -, hmap⟩
  · rw [hnil] at he
    cases he
  · rw [hmap] at he
    obtain ⟨m, -, rfl⟩ := List.mem_map.mp he
    dsimp only at hxs
    unfold argument at hxs
    split at hxs
    · cases hxs
      obtain ⟨y, -, rfl⟩ := List.mem_map.mp hx
      exact ⟨_, rfl⟩
    · rename_i hlist
      exact absurd hxs (hlist xs)

theorem ofTexts_of_directives {raw : Json} {ds : List Directive} (h : directives raw = .ok ds) :
    ∀ d ∈ ds, d.OfTexts := by
  obtain ⟨_, _, -, -, hds⟩ := directives_eq_ok h
  intro d hd
  obtain ⟨_, -, hread⟩ := mem_of_mapM_eq_ok hds d hd
  exact ofTexts_of_directive hread

theorem ofTexts_of_addModel {models models' : List (Json × Model)} {raw : Json}
    (hmodels : ∀ e ∈ models, e.2.OfTexts) (h : addModel models raw = .ok models') : ∀ e ∈ models', e.2.OfTexts := by
  obtain ⟨_, _, m, -, -, -, hfields, hds, rfl⟩ := addModel_eq_ok h
  intro e he
  rcases Entries.mem_put he with he | ⟨rfl, -⟩
  · exact hmodels e he
  · refine ⟨fun f hf => ?_, ofTexts_of_directives hds⟩
    obtain ⟨_, -, hread⟩ := mem_of_mapM_eq_ok hfields f hf
    obtain ⟨_, -, -, -, -, -, hds⟩ := field_eq_ok hread
    exact ofTexts_of_directives hds

theorem ofTexts_of_ofDocument {d : Json} {s : Schema} (h : Schema.ofDocument d = .ok s) :
    ∀ e ∈ s.models, e.2.OfTexts := by
  obtain ⟨_, _, -, -, hmodels⟩ := ofDocument_eq_ok h
  refine of_foldlM_eq_ok (P := fun models : List (Json × Model) => ∀ e ∈ models, e.2.OfTexts)
    (fun _ _ _ _ hkept hadd => ofTexts_of_addModel hkept hadd) ?_ hmodels
  intro e he
  cases he

theorem apart_of_ofDocument {d : Json} {s : Schema} (h : Schema.ofDocument d = .ok s) : Entries.Apart s.models := by
  obtain ⟨_, _, -, -, hmodels⟩ := ofDocument_eq_ok h
  refine of_foldlM_eq_ok (P := Entries.Apart) (fun _ _ _ _ hkept hadd => ?_) Entries.apart_nil hmodels
  obtain ⟨_, _, _, -, -, -, -, -, rfl⟩ := addModel_eq_ok hadd
  exact Entries.apart_put hkept _ _

/-! ## What is of texts is read back -/

theorem argument_of_texts {v : Json} (h : ∀ xs, v = .arr xs → ∀ x ∈ xs, ∃ text, x = .str text) : argument v = v := by
  cases v with
  | arr xs =>
    refine congrArg Json.arr ((List.map_congr_left fun x hx => ?_).trans (List.map_id xs))
    obtain ⟨text, rfl⟩ := h xs rfl x hx
    rfl
  | _ => rfl

theorem directive_toJson {d : Directive} (h : d.OfTexts) : directive d.toJson = .ok d := by
  have hargs : arguments (.obj d.arguments) = .ok d.arguments := by
    rw [arguments_obj]
    refine congrArg Except.ok ((List.map_congr_left fun e he => ?_).trans (List.map_id _))
    rw [argument_of_texts (h e he)]
    rfl
  unfold directive
  rw [bind_eq_ok]
  refine ⟨true, rfl, ?_⟩
  simp only [Bool.not_true, Bool.false_eq_true, if_false, bind_eq_ok]
  exact ⟨.obj d.arguments, rfl, d.arguments, hargs, d.name, rfl, rfl⟩

theorem directives_toJson {ms : List (String × Json)} {ds : List Directive} (h : ∀ d ∈ ds, d.OfTexts)
    (hget : Entries.get? "directives" ms = some (.arr (ds.map Directive.toJson))) : directives (.obj ms) = .ok ds := by
  unfold directives
  rw [bind_eq_ok]
  refine ⟨.arr (ds.map Directive.toJson), optional_eq_ok.mpr ⟨ms, rfl, by rw [hget]; rfl⟩, ?_⟩
  exact mapM_map_eq_ok fun d hd => directive_toJson (h d hd)

theorem field_toJson (model : Json) {f : Field} (h : ∀ d ∈ f.directives, d.OfTexts) :
    field model f.toJson = .ok f := by
  unfold field
  simp only [bind_eq_ok]
  exact ⟨f.name, rfl, f.type, rfl, .bool f.nullable, rfl, .bool f.list, rfl, f.directives, directives_toJson h rfl, rfl⟩

theorem addModel_toJson {m : Model} {n : String} (h : m.OfTexts) (hn : m.name = .str n)
    (models : List (Json × Model)) : addModel models m.toJson = .ok (Entries.put m.name m models) := by
  have hfields : (m.fields.map Field.toJson).mapM (field m.name) = .ok m.fields :=
    mapM_map_eq_ok fun f hf => field_toJson m.name (h.fields f hf)
  have hkey : m.name.toKey = .ok m.name := by rw [hn]; rfl
  unfold addModel
  simp only [bind_eq_ok]
  refine ⟨m.name, rfl, .arr (m.fields.map Field.toJson), rfl, m.fields.map Field.toJson, rfl, m.fields, hfields,
    m.directives, directives_toJson h.directives rfl, ?_⟩
  unfold bind
  rw [hkey]
  rfl

/-- Models that stand under their names, no two of them under names that are taken for one, are read in their order. -/
theorem foldlM_addModel_toJson {es : List (Json × Model)} (hown : ∀ e ∈ es, e.2.OfTexts ∧ e.1 = e.2.name ∧
    ∃ n, e.2.name = .str n) {done : List (Json × Model)} (happart : Entries.Apart (done ++ es)) :
    ((Entries.values es).map Model.toJson).foldlM addModel done = .ok (done ++ es) := by
  have hadd : ∀ models, ∀ e ∈ es, addModel models e.2.toJson = .ok (Entries.put e.1 e.2 models) := by
    intro models e he
    obtain ⟨htexts, hkey, n, hn⟩ := hown e he
    rw [addModel_toJson htexts hn, hkey]
  rw [Entries.values, List.map_map, List.foldlM_map, ← Entries.putAll_of_apart happart]
  exact foldlM_eq_ok_foldl hadd done

end Document

namespace Schema

open Document Runs

/-- The document that lists the models of a schema is read as the same models in the same order, and so the version is
    the same. A schema that was read so is read from its own document as it is. -/
theorem ofDocument_toDocument {d : Json} {s : Schema} (h : ofDocument d = .ok s)
    (hnames : ∀ m ∈ Entries.values s.models, ∃ n, m.name = .str n) :
    ∃ t, ofDocument s.toDocument = .ok t ∧ t.models = s.models ∧ t.enums = [] ∧ t.version = s.version ∧
      ofDocument t.toDocument = .ok t := by
  have hbound := bound_of_ofDocument h
  have hown : ∀ e ∈ s.models, e.2.OfTexts ∧ e.1 = e.2.name ∧ ∃ n, e.2.name = .str n := by
    intro e he
    obtain ⟨n, hn⟩ := hnames e.2 (List.mem_map_of_mem he)
    exact ⟨ofTexts_of_ofDocument h e he, (hbound.own e he n hn).trans hn.symm, n, hn⟩
  have hread : ofDocument s.toDocument = .ok { models := s.models } := by
    have hmodels : ((Entries.values s.models).map Model.toJson).foldlM addModel [] = .ok s.models :=
      foldlM_addModel_toJson hown (apart_of_ofDocument h)
    unfold toDocument ofDocument
    simp only [bind_eq_ok]
    exact ⟨_, rfl, s.models, hmodels, [], rfl, [], rfl, rfl⟩
  exact ⟨{ models := s.models }, hread, rfl, rfl, rfl, hread⟩

/-- Models by name, one of them under the name of another, with flags that are no truth values and a list argument of
    items that are no texts. -/
def shelves : Json :=
  .obj [("models", .obj [
    ("Shelf", .obj []),
    ("Book", .obj [("fields", .arr [.obj [("name", .str "id"), ("type", .str "ID"), ("isNullable", .int 0)]])]),
    ("stand", .obj [("name", .str "Shelf"), ("fields", .arr [.obj [("name", .str "books"), ("type", .str "Book"),
      ("isList", .str "yes"), ("directives", .arr [.obj [("name", .str "range"), ("arguments", .obj [
        ("fields", .arr [.str "from", .int 1, .null]), ("limits", .obj [("of", .arr [.int 1])])])]])]])])])]

def shelvesSchema : Schema :=
  { models := [
      (.str "Shelf", { name := .str "Shelf", fields := [
        { name := .str "books", type := .str "Book", list := true, directives := [{ name := .str "range", arguments := [
          ("fields", .arr [.str "from", .str "1", .str "None"]), ("limits", .obj [("of", .arr [.int 1])])] }] }] }),
      (.str "Book", { name := .str "Book", fields := [
        { name := .str "id", type := .str "ID", nullable := false }] })] }

theorem shelves_read_back :
    ofDocument shelves = .ok shelvesSchema ∧ shelvesSchema.toDocument ≠ shelves ∧
      ∃ t, ofDocument shelvesSchema.toDocument = .ok t ∧ t.models = shelvesSchema.models ∧
        t.version = shelvesSchema.version := by
  have hread : ofDocument shelves = .ok shelvesSchema := rfl
  obtain ⟨t, ht, hmodels, -, hversion, -⟩ := ofDocument_toDocument hread (fun m hm => by
    rcases List.mem_cons.mp hm with rfl | hm
    · exact ⟨_, rfl⟩
    · rw [List.mem_singleton.mp hm]
      exact ⟨_, rfl⟩)
  refine ⟨hread, fun h => ?_, t, ht, hmodels, hversion⟩
  cases h

end Schema

end SchemaForge

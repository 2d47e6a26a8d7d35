import SchemaForge.Proofs.Schema.Reading
import SchemaForge.Proofs.Schema.Shapes

/-
Models that a document has under their names. Each key of the mapping is put before the body as its name, and a name in
the body goes before it. So a model is named as its body says, if it says so (`ownName`), and stands where that name
stands: under the key only if the body does not say otherwise. What is kept is every entry under its key just in case
all bodies leave their name to the key, or repeat it (`keys_of_mapping_iff`).
-/

namespace SchemaForge

namespace Document

open Runs Json

/-- The name in the body of an entry, or its key. -/
def ownName (entry : String × Json) : Json := (entry.2.at? "name").getD (.str entry.1)

/-- Models are put one after the other, each under the name in its record. -/
theorem foldlM_addModel_eq_ok {raws : List Json} :
    ∀ {models models' : List (Json × Model)}, raws.foldlM addModel models = .ok models' →
      ∃ given, models' = Entries.putAll given models ∧
        Entries.keys given = raws.map (fun raw => (raw.at? "name").getD .null) ∧ ∀ e ∈ given, e.2.name = e.1 := by
  induction raws with
  | nil =>
    intro models models' h
    rw [List.foldlM_nil, pure_eq_ok] at h
    exact ⟨[], h, rfl, fun _ he => by cases he⟩
  | cons raw raws ih =>
    intro models models' h
    rw [List.foldlM_cons, bind_eq_ok] at h
    obtain ⟨_, hadd, h⟩ := h
    obtain ⟨ms, _, m, rfl, hname, -, -, -, rfl⟩ := addModel_eq_ok hadd
    obtain ⟨given, hmodels, hkeys, hnames⟩ := ih h
    refine ⟨(m.name, m) :: given, hmodels, ?_, List.forall_mem_cons.mpr ⟨rfl, hnames⟩⟩
    rw [Entries.keys_cons, hkeys, List.map_cons, hname]
    rfl

theorem name_of_recordOf {entry : String × Json} {raw : Json} (hentry : entry.2.WellKeyed)
    (h : recordOf entry = .ok raw) : (raw.at? "name").getD .null = ownName entry := by
  obtain ⟨ms, hms, rfl⟩ := recordOf_eq_ok h
  rw [hms, wellKeyed_obj] at hentry
  unfold ownName
  rw [hms, at?_obj, at?_obj, Entries.get?_putAll hentry.1]
  cases Entries.get? "name" ms <;> rfl

theorem wellKeyed_at? {d v : Json} {key : String} (hd : d.WellKeyed) (h : d.at? key = some v) : v.WellKeyed := by
  cases d with
  | obj ms => exact wellKeyed_get? hd h
  | _ => cases h

/-- What is kept of a mapping: the models in their order, each under the name that it has. -/
theorem exists_given {d : Json} {bodies : List (String × Json)} {s : Schema} (hd : d.WellKeyed)
    (hbodies : d.at? "models" = some (.obj bodies)) (h : Schema.ofDocument d = .ok s) :
    ∃ given, s.models = Entries.putAll given [] ∧ Entries.keys given = bodies.map ownName ∧
      ∀ e ∈ given, e.2.name = e.1 := by
  obtain ⟨ms, raws, rfl, hraws, hmodels⟩ := ofDocument_eq_ok h
  have hentries := (wellKeyed_obj.mp (wellKeyed_at? hd hbodies)).2
  rw [at?_obj] at hbodies
  rw [hbodies] at hraws
  obtain ⟨given, hgiven, hkeys, hnames⟩ := foldlM_addModel_eq_ok hmodels
  refine ⟨given, hgiven, hkeys.trans ?_, hnames⟩
  exact map_eq_map_of_mapM (fun e he raw hread => name_of_recordOf (hentries e he) hread) hraws

/-- Texts that are different are told apart. -/
theorem apart_of_keys {ν : Type} {given : List (Json × ν)} {bodies : List (String × Json)}
    (hkeys : Entries.keys given = bodies.map (fun e => .str e.1)) (hnodup : (Entries.keys bodies).Nodup) :
    Entries.Apart given := by
  have htexts : bodies.map (fun e => Json.str e.1) = (Entries.keys bodies).map Json.str := List.map_map.symm
  unfold Entries.Apart
  rw [hkeys, htexts, List.pairwise_map]
  refine hnodup.imp fun hne => ?_
  rw [Bool.eq_false_iff, Ne, beq_str_iff]
  exact fun heq => hne (Json.str.inj heq)

/-- The models are those of the mapping, in its order and each named by its key, just in case no body has a name other
    than its key. -/
theorem keys_of_mapping_iff {d : Json} {bodies : List (String × Json)} {s : Schema} (hd : d.WellKeyed)
    (hbodies : d.at? "models" = some (.obj bodies)) (h : Schema.ofDocument d = .ok s) :
    (Entries.keys s.models = bodies.map (fun e => .str e.1) ∧ ∀ e ∈ s.models, e.2.name = e.1) ↔
      ∀ e ∈ bodies, ∀ name, e.2.at? "name" = some name → name = .str e.1 := by
  obtain ⟨given, hgiven, hkeys, hnames⟩ := exists_given hd hbodies h
  have hown : bodies.map ownName = bodies.map (fun e => .str e.1) ↔
      ∀ e ∈ bodies, ∀ name, e.2.at? "name" = some name → name = .str e.1 := by
    rw [List.map_inj_left]
    refine forall₂_congr fun e _ => ?_
    unfold ownName
    cases e.2.at? "name" <;> simp
  rw [← hown, hgiven]
  constructor
  · rintro ⟨hall, -⟩
    have hlength : (Entries.putAll given []).length = given.length := by
      rw [← Entries.length_keys, hall, ← Entries.length_keys given, hkeys, List.length_map, List.length_map]
    rw [Entries.putAll_of_length (by simpa using hlength), List.nil_append, hkeys] at hall
    exact hall
  · intro hall
    have hkeys := hkeys.trans hall
    have happart : Entries.Apart ([] ++ given) := apart_of_keys hkeys (wellKeyed_obj.mp (wellKeyed_at? hd hbodies)).1
    rw [Entries.putAll_of_apart happart]
    exact ⟨hkeys, hnames⟩

/-- A body with the key of another one for its name, and a body with its own key. -/
def renamed : Json :=
  .obj [("models", .obj [
    ("Draft", .obj [("name", .str "Post")]),
    ("Post", .obj []),
    ("Tag", .obj [("name", .str "Tag")])])]

theorem renamed_loses_a_model :
    ∃ s, Schema.ofDocument renamed = .ok s ∧ Entries.keys s.models = [.str "Post", .str "Tag"] ∧
      ¬(Entries.keys s.models = [.str "Draft", .str "Post", .str "Tag"] ∧ ∀ e ∈ s.models, e.2.name = e.1) := by
  have hread : Schema.ofDocument renamed = .ok
      { models := [(.str "Post", { name := .str "Post" }), (.str "Tag", { name := .str "Tag" })] } := rfl
  have hbodies : renamed.at? "models" = some (.obj [("Draft", .obj [("name", .str "Post")]), ("Post", .obj []),
      ("Tag", .obj [("name", .str "Tag")])]) := rfl
  have hkeyed : renamed.WellKeyed := by
    show renamed.everywhere keysUnique = true
    decide
  refine ⟨_, hread, rfl, fun hkept => ?_⟩
  have hdraft := (keys_of_mapping_iff hkeyed hbodies hread).mp hkept _ (List.mem_cons_self ..) _ rfl
  exact absurd (Json.str.inj hdraft) (by decide)

end Document

end SchemaForge

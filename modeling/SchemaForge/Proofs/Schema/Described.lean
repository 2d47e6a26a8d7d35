import SchemaForge.Proofs.Schema.Reading
import SchemaForge.Proofs.Schema.Shapes

/-
What is read from a document that has the shape. A reading `Settles` if it gives what is described there, unless
something is missing, and then ends in an error that says so. Parts that settle make a whole that settles
(`Settles.bind`, `settles_mapM`, `settles_foldlM`), so every record settles by its own members (`settles_directive`,
`settles_field`, `settles_addModel`, `settles_addEnum`), and a document by its records.

Entries are put one after the other, whether their name was there before or not; what comes of it is one entry for each
name (`LastOfEach`). A record whose entry is replaced later was read all the same, so what it lacks is an error.
-/

namespace SchemaForge

namespace Document

open Runs

/-! ## Readings that can only miss something -/

/-- A reading that gives this value unless something is missing, and an error about a record if it is. -/
structure Settles {α : Type} (x : Reading α) (missing : Prop) (a : α) : Prop where
  complete : ¬missing → x = .ok a
  incomplete : missing → ∃ e, x = .error e ∧ ∀ f, e ≠ .fault f

section Rules

variable {α β : Type} {x : Reading α} {P Q : Prop} {a : α} {b : β}

theorem settles_ok (h : x = .ok a) : Settles x False a := ⟨fun _ => h, False.elim⟩

theorem Settles.congr (h : Settles x P a) (hPQ : P ↔ Q) : Settles x Q a :=
  ⟨fun hQ => h.complete (mt hPQ.mp hQ), fun hQ => h.incomplete (hPQ.mpr hQ)⟩

theorem Settles.bind {f : α → Reading β} (hx : Settles x P a) (hf : ¬P → Settles (f a) Q b) :
    Settles (x >>= f) (P ∨ Q) b where
  complete h := by
    obtain ⟨hP, hQ⟩ := not_or.mp h
    rw [hx.complete hP]
    exact (hf hP).complete hQ
  incomplete h := by
    by_cases hP : P
    · obtain ⟨e, he, hfault⟩ := hx.incomplete hP
      exact ⟨e, by rw [he]; rfl, hfault⟩
    · rw [hx.complete hP]
      exact (hf hP).incomplete (h.resolve_left hP)

theorem Settles.map {f : α → Reading β} (hx : Settles x P a) (hf : f a = .ok b) : Settles (x >>= f) P b :=
  (hx.bind fun _ => settles_ok hf).congr (iff_of_eq (or_false P))

theorem settles_mapM {f : α → Reading β} {g : α → β} {missing : α → Prop} {xs : List α}
    (h : ∀ x ∈ xs, Settles (f x) (missing x) (g x)) : Settles (xs.mapM f) (∃ x ∈ xs, missing x) (xs.map g) := by
  induction xs with
  | nil => exact (settles_ok rfl).congr (by simp)
  | cons x xs ih =>
    rw [List.mapM_cons]
    have hrest := ih fun y hy => h y (List.mem_cons_of_mem _ hy)
    have hcons : Settles (xs.mapM f >>= fun ys => pure (g x :: ys)) _ (g x :: xs.map g) := hrest.map rfl
    exact ((h x (List.mem_cons_self ..)).bind fun _ => hcons).congr (by simp)

theorem settles_foldlM {f : β → α → Reading β} {g : β → α → β} {missing : α → Prop} {xs : List α}
    (h : ∀ b, ∀ x ∈ xs, Settles (f b x) (missing x) (g b x)) (b : β) :
    Settles (xs.foldlM f b) (∃ x ∈ xs, missing x) (xs.foldl g b) := by
  induction xs generalizing b with
  | nil => exact (settles_ok rfl).congr (by simp)
  | cons x xs ih =>
    rw [List.foldlM_cons, List.foldl_cons]
    have hrest := ih (fun b y hy => h b y (List.mem_cons_of_mem _ hy)) (g b x)
    exact ((h b x (List.mem_cons_self ..)).bind fun _ => hrest).congr (by simp)

end Rules

/-! ## What a shape says -/

namespace Shape

variable {parts : List (String × Shape)} {p q : Shape} {raw v : Json} {key : String}

theorem exists_members (h : record parts raw = true) : ∃ ms, raw = .obj ms := by
  cases raw with
  | obj ms => exact ⟨ms, rfl⟩
  | _ => cases h

theorem of_at? (h : record parts raw = true) (hpart : Entries.get? key parts = some p) (hv : raw.at? key = some v) :
    p v = true := by
  obtain ⟨ms, rfl⟩ := exists_members h
  have hm := List.all_eq_true.mp h _ (Entries.mem_of_get? hv)
  rwa [hpart, Option.all_some] at hm

theorem exists_text (h : text v = true) : ∃ s, v = .str s := by
  cases v with
  | str s => exact ⟨s, rfl⟩
  | _ => cases h

theorem exists_items (h : listOf p v = true) : ∃ xs, v = .arr xs ∧ ∀ x ∈ xs, p x = true := by
  cases v with
  | arr xs => exact ⟨xs, rfl, List.all_eq_true.mp h⟩
  | _ => cases h

theorem exists_entries (h : mappingTo p v = true) : ∃ ms, v = .obj ms ∧ ∀ m ∈ ms, p m.2 = true := by
  cases v with
  | obj ms => exact ⟨ms, rfl, List.all_eq_true.mp h⟩
  | _ => cases h

theorem either_eq_true : either p q v = true ↔ p v = true ∨ q v = true := Bool.or_eq_true_iff

theorem at?_name (h : record parts raw = true) (hpart : Entries.get? "name" parts = some text)
    (hname : raw.at? "name" ≠ none) : raw.at? "name" = some (.str (nameIn raw)) := by
  obtain ⟨v, hv⟩ := Option.ne_none_iff_exists'.mp hname
  obtain ⟨s, rfl⟩ := exists_text (of_at? h hpart hv)
  unfold nameIn
  rw [hv]

/-- The elements of a list that may be missing, all in the shape of its items. -/
theorem elements_listed (h : record parts raw = true) (hpart : Entries.get? key parts = some (listOf p)) :
    ((raw.at? key).getD (.arr [])).elements = .ok (listed key raw) ∧ ∀ x ∈ listed key raw, p x = true := by
  unfold listed
  cases hv : raw.at? key with
  | none => exact ⟨rfl, fun _ hx => by cases hx⟩
  | some v =>
    obtain ⟨xs, rfl, hxs⟩ := exists_items (of_at? h hpart hv)
    exact ⟨rfl, hxs⟩

/-- Where a list or a mapping may stand, there is a list, if only an empty one, or a mapping with a record for each of
    its entries. -/
theorem recorded_cases (key : String) (entry : String → Json → Json) (h : record parts raw = true)
    (hpart : Entries.get? key parts = some (either (listOf p) (mappingTo q))) :
    (∃ xs, (raw.at? key).getD (.arr []) = .arr xs ∧ recorded key entry raw = xs ∧ ∀ x ∈ xs, p x = true) ∨
      ∃ ms, (raw.at? key).getD (.arr []) = .obj ms ∧ recorded key entry raw = ms.map (fun m => entry m.1 m.2) ∧
        ∀ m ∈ ms, q m.2 = true := by
  unfold recorded
  cases hv : raw.at? key with
  | none => exact Or.inl ⟨[], rfl, rfl, fun _ hx => by cases hx⟩
  | some v =>
    rcases either_eq_true.mp (of_at? h hpart hv) with hlist | hmapping
    · obtain ⟨xs, rfl, hxs⟩ := exists_items hlist
      exact Or.inl ⟨xs, rfl, rfl, hxs⟩
    · obtain ⟨ms, rfl, hms⟩ := exists_entries hmapping
      exact Or.inr ⟨ms, rfl, rfl, hms⟩

end Shape

open Shape

/-! ## Records -/

section Records

variable {raw : Json} {ms : List (String × Json)} {parts : List (String × Shape)}

theorem optional_obj (key : String) (absent : Json) :
    optional (.obj ms) key absent = .ok (((Json.obj ms).at? key).getD absent) := rfl

theorem settles_needed (model : Json) (key : String) :
    Settles (needed (.obj ms) model key) ((Json.obj ms).at? key = none) (((Json.obj ms).at? key).getD .null) := by
  rw [Json.at?_obj]
  cases hv : Entries.get? key ms with
  | none =>
    refine ⟨fun h => absurd rfl h, fun _ => ⟨.fieldIncomplete model key, ?_, by simp⟩⟩
    rw [needed, hv]
  | some v =>
    refine ⟨fun _ => ?_, fun h => by cases h⟩
    rw [needed, hv]
    rfl

/-- A record that has to have a name is read on only if it has one. -/
theorem settles_unless_unnamed {α : Type} {e : DocumentError} {rest : Unit → Reading α} {a : α}
    (he : ∀ f, e ≠ .fault f) (hrest : (Json.obj ms).at? "name" ≠ none → rest () = .ok a) :
    Settles (check ((Json.obj ms).hasText "name") >>= fun named => if !named then throw e >>= rest else rest ())
      ((Json.obj ms).at? "name" = none) a := by
  rw [Json.at?_obj] at hrest ⊢
  show Settles (if !Entries.has "name" ms then throw e >>= rest else rest ()) _ a
  rw [Entries.has_eq_isSome_get?]
  cases hname : Entries.get? "name" ms with
  | none => exact ⟨fun h => absurd rfl h, fun _ => ⟨e, rfl, he⟩⟩
  | some v => exact ⟨fun _ => hrest (by simp [hname]), fun h => by cases h⟩

theorem arguments_of_shape (h : Shape.directive raw = true) :
    arguments ((raw.at? "arguments").getD .null) = .ok (directiveOf raw).arguments := by
  unfold directiveOf
  cases hv : raw.at? "arguments" with
  | none => rfl
  | some v =>
    have hshape := of_at? h rfl hv
    cases v with
    | null => rfl
    | obj args => exact arguments_obj args
    | _ => cases hshape

theorem settles_directive (h : Shape.directive raw = true) :
    Settles (directive raw) (raw.at? "name" = none) (directiveOf raw) := by
  have hargs := arguments_of_shape h
  obtain ⟨ms, rfl⟩ := exists_members h
  unfold directive
  refine settles_unless_unnamed (fun _ => by simp) fun hname => ?_
  dsimp only
  rw [optional_obj, optional_obj, at?_name h rfl hname]
  show (arguments _ >>= _) = _
  rw [hargs]
  rfl

theorem settles_directives (h : record parts raw = true)
    (hpart : Entries.get? "directives" parts = some (listOf Shape.directive)) :
    Settles (directives raw) (∃ d ∈ listed "directives" raw, d.at? "name" = none)
      ((listed "directives" raw).map directiveOf) := by
  obtain ⟨hraws, hshape⟩ := elements_listed h hpart
  obtain ⟨ms, rfl⟩ := exists_members h
  unfold directives
  rw [optional_obj]
  show Settles (check _ >>= _) _ _
  rw [hraws]
  exact settles_mapM fun d hd => settles_directive (hshape d hd)

/-- What a field lacks, or one of its directives. -/
def FieldLacks (raw : Json) : Prop :=
  (raw.at? "name" = none ∨ raw.at? "type" = none) ∨ ∃ d ∈ listed "directives" raw, d.at? "name" = none

theorem settles_field (model : Json) (h : Shape.field raw = true) :
    Settles (field model raw) (FieldLacks raw) (fieldOf raw) := by
  have hds := settles_directives h rfl
  obtain ⟨ms, rfl⟩ := exists_members h
  unfold field
  refine Settles.congr ((settles_needed model "name").bind fun hname => (settles_needed model "type").bind fun _ => ?_)
    or_assoc.symm
  rw [optional_obj, optional_obj, at?_name h rfl hname]
  exact hds.map rfl

/-- What a model lacks, or one of its fields or directives. -/
def ModelLacks (raw : Json) : Prop :=
  raw.at? "name" = none ∨ (∃ f ∈ listed "fields" raw, FieldLacks f) ∨
    ∃ d ∈ listed "directives" raw, d.at? "name" = none

theorem settles_nameOf {e : DocumentError} (h : record parts raw = true)
    (hpart : Entries.get? "name" parts = some text) (he : ∀ f, e ≠ .fault f) :
    Settles (nameOf raw e) (raw.at? "name" = none) (.str (nameIn raw)) := by
  obtain ⟨ms, rfl⟩ := exists_members h
  unfold nameOf
  refine settles_unless_unnamed he fun hname => ?_
  show Except.ok (((Json.obj ms).at? "name").getD .null) = _
  rw [at?_name h hpart hname]
  rfl

theorem settles_addModel (h : Shape.model raw = true) (models : List (Json × Model)) :
    Settles (addModel models raw) (ModelLacks raw) (Entries.put (.str (nameIn raw)) (modelOf raw) models) := by
  have hname : Settles (nameOf raw (.modelUnnamed raw)) _ _ := settles_nameOf h rfl (by simp)
  obtain ⟨hraws, hshape⟩ : ((raw.at? "fields").getD (.arr [])).elements = .ok (listed "fields" raw) ∧ _ :=
    elements_listed h rfl
  have hfields : Settles ((listed "fields" raw).mapM (field (.str (nameIn raw)))) _ _ :=
    settles_mapM fun f hf => settles_field _ (hshape f hf)
  have hds := settles_directives h rfl
  obtain ⟨ms, rfl⟩ := exists_members h
  unfold addModel
  refine hname.bind fun _ => ?_
  rw [optional_obj]
  show Settles (check _ >>= _) _ _
  rw [hraws]
  exact hfields.bind fun _ => hds.map rfl

theorem enumValues_of_shape (h : Shape.enum raw = true) :
    enumValues ((raw.at? "values").getD (.arr [])) = .ok (enumOf raw).values := by
  unfold enumOf
  cases hv : raw.at? "values" with
  | none => rfl
  | some v =>
    rcases either_eq_true.mp (of_at? h rfl hv) with hlist | hmapping
    · obtain ⟨xs, rfl, -⟩ := exists_items hlist
      rfl
    · obtain ⟨entries, rfl, -⟩ := exists_entries hmapping
      rfl

theorem settles_addEnum (h : Shape.enum raw = true) (enums : List (Json × EnumType)) :
    Settles (addEnum enums raw) (raw.at? "name" = none) (Entries.put (.str (nameIn raw)) (enumOf raw) enums) := by
  have hvalues := enumValues_of_shape h
  obtain ⟨ms, rfl⟩ := exists_members h
  unfold addEnum
  refine settles_unless_unnamed (fun _ => by simp) fun hname => ?_
  dsimp only
  rw [optional_obj, optional_obj, at?_name h rfl hname]
  show (enumValues _ >>= _) = _
  rw [hvalues]
  rfl

end Records

/-! ## Documents -/

section Documents

variable {d : Json}

theorem model_named {key : String} {body : Json} (h : Shape.model body = true) :
    Shape.model (named key body) = true := by
  obtain ⟨ms, rfl⟩ := exists_members h
  refine List.all_eq_true.mpr fun m hm => ?_
  rcases Entries.mem_putAll hm with hm | hm
  · exact List.all_eq_true.mp h m hm
  · rw [List.mem_singleton.mp hm]
    rfl

theorem modelRecords_of_shape (h : Shape.document d = true) :
    modelRecords ((d.at? "models").getD (.arr [])) = .ok (listedModels d) ∧
      ∀ raw ∈ listedModels d, Shape.model raw = true := by
  unfold listedModels
  rcases recorded_cases "models" named h rfl with
    ⟨xs, hv, hrecords, hxs⟩ | ⟨ms, hv, hrecords, hms⟩ <;> rw [hv, hrecords]
  · exact ⟨rfl, hxs⟩
  · refine ⟨mapM_eq_ok_map fun m hm => ?_, fun raw hraw => ?_⟩
    · obtain ⟨body, hbody⟩ := exists_members (hms m hm)
      rw [recordOf, hbody]
      rfl
    · obtain ⟨m, hm, rfl⟩ := List.mem_map.mp hraw
      exact model_named (hms m hm)

theorem enumRecords_of_shape (h : Shape.document d = true) :
    enumRecords ((d.at? "enums").getD (.arr [])) = .ok (listedEnums d) ∧
      ∀ raw ∈ listedEnums d, Shape.enum raw = true := by
  unfold listedEnums
  rcases recorded_cases "enums" (fun key v => .obj [("name", .str key), ("values", v)]) h rfl with
    ⟨xs, hv, hrecords, hxs⟩ | ⟨ms, hv, hrecords, hms⟩ <;> rw [hv, hrecords]
  · exact ⟨rfl, hxs⟩
  · refine ⟨rfl, fun raw hraw => ?_⟩
    obtain ⟨m, hm, rfl⟩ := List.mem_map.mp hraw
    simp [Shape.enum, record, Entries.get?, text, hms m hm]

/-- What is missing somewhere in a document is missing in one of its models, or is the name of an enum. -/
theorem incomplete_iff : Incomplete d ↔
    (∃ raw ∈ listedModels d, ModelLacks raw) ∨ ∃ raw ∈ listedEnums d, raw.at? "name" = none := by
  constructor
  · rintro (⟨raw, hraw, hname⟩ | ⟨raw, hraw, hname⟩ | ⟨raw, hraw, hlacks⟩ | ⟨raw, hraw, hname⟩)
    · exact Or.inl ⟨raw, hraw, Or.inl hname⟩
    · exact Or.inr ⟨raw, hraw, hname⟩
    · obtain ⟨m, hm, hf⟩ := List.mem_flatMap.mp hraw
      exact Or.inl ⟨m, hm, Or.inr (Or.inl ⟨raw, hf, Or.inl hlacks⟩)⟩
    · obtain ⟨owner, howner, hd⟩ := List.mem_flatMap.mp hraw
      rcases List.mem_append.mp howner with hm | hfield
      · exact Or.inl ⟨owner, hm, Or.inr (Or.inr ⟨raw, hd, hname⟩)⟩
      · obtain ⟨m, hm, hf⟩ := List.mem_flatMap.mp hfield
        exact Or.inl ⟨m, hm, Or.inr (Or.inl ⟨owner, hf, Or.inr ⟨raw, hd, hname⟩⟩)⟩
  · rintro (⟨m, hm, hname | ⟨f, hf, hlacks | ⟨r, hr, hname⟩⟩ | ⟨r, hr, hname⟩⟩ | ⟨raw, hraw, hname⟩)
    · exact .model m hm hname
    · exact .field f (List.mem_flatMap.mpr ⟨m, hm, hf⟩) hlacks
    · have hfield : f ∈ fieldsIn d := List.mem_flatMap.mpr ⟨m, hm, hf⟩
      exact .directive r (List.mem_flatMap.mpr ⟨f, List.mem_append_right _ hfield, hr⟩) hname
    · exact .directive r (List.mem_flatMap.mpr ⟨m, List.mem_append_left _ hm, hr⟩) hname
    · exact .enum raw hraw hname

theorem settles_ofDocument (h : Shape.document d = true) :
    Settles (Schema.ofDocument d) (Incomplete d)
      { models := (listedModels d).foldl (fun es raw => Entries.put (.str (nameIn raw)) (modelOf raw) es) []
        enums := (listedEnums d).foldl (fun es raw => Entries.put (.str (nameIn raw)) (enumOf raw) es) [] } := by
  obtain ⟨hmodels, hmodel⟩ := modelRecords_of_shape h
  obtain ⟨henums, henum⟩ := enumRecords_of_shape h
  obtain ⟨ms, rfl⟩ := exists_members h
  rw [Json.at?_obj] at hmodels henums
  refine Settles.congr ?_ incomplete_iff.symm
  rw [Schema.ofDocument, hmodels, henums]
  refine (settles_foldlM (fun models raw hraw => settles_addModel (hmodel raw hraw) models) []).bind fun _ => ?_
  exact (settles_foldlM (fun enums raw hraw => settles_addEnum (henum raw hraw) enums) []).map rfl

end Documents

/-! ## Entries under their names -/

/-- One entry for each key that was given, in the order in which the keys come first, with the value that comes last. -/
structure LastOfEach {ν : Type} (given : List (String × ν)) (es : List (Json × ν)) : Prop where
  keys : Entries.keys es = (Entries.keys given).eraseDups.map Json.str
  last : ∀ before key v after, given = before ++ (key, v) :: after → key ∉ Entries.keys after → (.str key, v) ∈ es

theorem lastOfEach_foldl {α ν : Type} (name : α → String) (value : α → ν) (raws : List α) :
    LastOfEach (raws.map (fun raw => (name raw, value raw)))
      (raws.foldl (fun es raw => Entries.put (.str (name raw)) (value raw) es) []) := by
  have hputs : raws.foldl (fun es raw => Entries.put (.str (name raw)) (value raw) es) [] =
      (Entries.putAll (raws.map (fun raw => (name raw, value raw))) []).map (fun e => (Json.str e.1, e.2)) := by
    rw [← Entries.putAll_map (f := Json.str) fun _ _ => rfl, Entries.putAll, List.map_map, List.foldl_map]
    rfl
  rw [hputs]
  refine ⟨?_, fun before key v after hgiven hlast => ?_⟩
  · rw [← Entries.keys_putAll_nil, Entries.keys, Entries.keys, List.map_map, List.map_map]
    rfl
  · rw [hgiven]
    exact List.mem_map.mpr ⟨(key, v), Entries.mem_putAll_of_last hlast .., rfl⟩

/-- A document of the shape is refused if a record in it is incomplete, wherever it stands, and for nothing else. If all
    are complete, the schema has the models and the enums that are described, one for each name. -/
theorem ofDocument_of_shape {d : Json} (h : Shape.document d = true) :
    (Incomplete d ↔ ∃ e, Schema.ofDocument d = .error e ∧ ∀ f, e ≠ .fault f) ∧
      (∀ f, Schema.ofDocument d ≠ .error (.fault f)) ∧
      (¬Incomplete d → ∃ s, Schema.ofDocument d = .ok s ∧
        LastOfEach ((listedModels d).map (fun raw => (nameIn raw, modelOf raw))) s.models ∧
        LastOfEach ((listedEnums d).map (fun raw => (nameIn raw, enumOf raw))) s.enums) := by
  have hread := settles_ofDocument h
  refine ⟨⟨hread.incomplete, ?_⟩, ?_, fun hcomplete => ?_⟩
  · rintro ⟨e, he, -⟩
    by_contra hcomplete
    rw [hread.complete hcomplete] at he
    cases he
  · intro f hf
    by_cases hcomplete : Incomplete d
    · obtain ⟨e, he, hfault⟩ := hread.incomplete hcomplete
      rw [he] at hf
      exact hfault f (Except.error.inj hf)
    · rw [hread.complete hcomplete] at hf
      cases hf
  · exact ⟨_, hread.complete hcomplete, lastOfEach_foldl .., lastOfEach_foldl ..⟩

/-- A model that is listed again further down. The first time, a field has a directive with these members. -/
def orders (mark : List (String × Json)) : Json :=
  .obj [
    ("models", .arr [
      .obj [("name", .str "Order"), ("fields", .arr [
        .obj [("name", .str "id"), ("type", .str "ID"), ("directives", .arr [.obj mark])]])],
      .obj [("name", .str "Item")],
      .obj [("name", .str "Order"), ("fields", .arr [
        .obj [("name", .str "items"), ("type", .str "Item"), ("isList", .bool true)]])]]),
    ("enums", .obj [("Size", .obj [("small", .str "S"), ("large", .str "L")])])]

theorem orders_by_mark :
    (∃ s, Schema.ofDocument (orders [("name", .str "auth")]) = .ok s ∧
      Entries.keys s.models = [.str "Order", .str "Item"] ∧
      (.str "Order", { name := .str "Order", fields := [
        { name := .str "items", type := .str "Item", list := true }] }) ∈ s.models ∧
      Entries.keys s.enums = [.str "Size"]) ∧
      Shape.document (orders [("arguments", .null)]) = true ∧
      ∃ e, Schema.ofDocument (orders [("arguments", .null)]) = .error e ∧ ∀ f, e ≠ .fault f := by
  have hshape : Shape.document (orders [("name", .str "auth")]) = true := by decide
  have hunmarked : Shape.document (orders [("arguments", .null)]) = true := by decide
  obtain ⟨hmissing, -, hdescribed⟩ := ofDocument_of_shape hshape
  refine ⟨?_, hunmarked, (ofDocument_of_shape hunmarked).1.mp ?_⟩
  · obtain ⟨s, hs, hmodels, henums⟩ := hdescribed fun hincomplete => by
      obtain ⟨e, he, -⟩ := hmissing.mp hincomplete
      cases he
    exact ⟨s, hs, hmodels.keys, hmodels.last [_, _] _ _ [] rfl List.not_mem_nil, henums.keys⟩
  · exact .directive (.obj [("arguments", .null)]) (List.mem_singleton_self _) rfl

end Document

end SchemaForge

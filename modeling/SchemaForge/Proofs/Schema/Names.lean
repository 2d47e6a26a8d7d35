import SchemaForge.Proofs.Schema.Reading

/-
The names of the models and of the enums of a document. Each is kept under its name, and a later record of the same name
takes the place of the earlier one (`Bound`). So where all names are texts, no two models of a schema share one
(`nodup_names_of_ofDocument`), and no two enums do (`nodup_enumNames_of_ofDocument`).

Keys are told apart by what they denote, and a kept key stays as it was first written. So a name that is a number need
not be the key of its model, and these statements are about texts.
-/

namespace SchemaForge

namespace Document

open Runs

/-- Entries that have been put under their names. -/
structure Bound {ν : Type} (name : ν → Json) (es : List (Json × ν)) : Prop where
  /-- What has a text for its name stands under it. -/
  own : ∀ e ∈ es, ∀ n, name e.2 = .str n → e.1 = .str n
  /-- No text is a key twice. -/
  apart : (Entries.keys es).Pairwise (fun k k' => ∀ n, k = .str n → k' ≠ .str n)

section Entries

variable {ν : Type} {name : ν → Json} {es : List (Json × ν)}

theorem bound_nil : Bound name [] := ⟨by simp, .nil⟩

theorem bound_put (h : Bound name es) (x : ν) : Bound name (Entries.put (name x) x es) where
  own := by
    intro e he n hn
    rcases Entries.mem_put he with he | ⟨rfl, hkey⟩
    · exact h.own e he n hn
    · rw [hn] at hkey
      exact hkey.elim id Json.beq_str_iff.mp
  apart := by
    rw [Entries.keys_put_has]
    split
    · exact h.apart
    · rename_i hnew
      refine List.pairwise_append.mpr ⟨h.apart, List.pairwise_singleton _ _, fun k hk k' hk' n hn hn' => ?_⟩
      rw [List.mem_singleton.mp hk'] at hn'
      refine hnew (Entries.has_iff.mpr ⟨k, hk, ?_⟩)
      rw [hn, hn']
      exact Json.beq_str_iff.mpr rfl

theorem nodup_names_of_bound (h : Bound name es) (htexts : ∀ x ∈ Entries.values es, ∃ n, name x = .str n) :
    ((Entries.values es).map name).Nodup := by
  have own : ∀ e ∈ es, ∃ n, name e.2 = .str n ∧ e.1 = .str n := by
    intro e he
    obtain ⟨n, hn⟩ := htexts e.2 (List.mem_map_of_mem he)
    exact ⟨n, hn, h.own e he n hn⟩
  have hkeys : (Entries.values es).map name = Entries.keys es := by
    unfold Entries.values Entries.keys
    rw [List.map_map]
    refine List.map_congr_left (fun e he => ?_)
    obtain ⟨n, hn, hk⟩ := own e he
    exact hn.trans hk.symm
  rw [hkeys]
  refine h.apart.imp_of_mem (fun {k k'} hk _ happart => ?_)
  obtain ⟨e, he, rfl⟩ := List.mem_map.mp hk
  obtain ⟨n, -, hn⟩ := own e he
  exact fun heq => happart n hn (heq ▸ hn)

end Entries

/-! ## Models -/

variable {d : Json} {s : Schema}

theorem bound_of_ofDocument (h : Schema.ofDocument d = .ok s) : Bound Model.name s.models := by
  obtain ⟨ms, raws, -, -, hmodels⟩ := ofDocument_eq_ok h
  refine of_foldlM_eq_ok (P := Bound Model.name) (fun models raw _ models' hbound hadd => ?_) bound_nil hmodels
  obtain ⟨_, _, m, -, -, -, -, -, rfl⟩ := addModel_eq_ok hadd
  exact bound_put hbound m

theorem nodup_names_of_ofDocument (h : Schema.ofDocument d = .ok s)
    (htexts : ∀ m ∈ Entries.values s.models, ∃ n, m.name = .str n) :
    ((Entries.values s.models).map (·.name)).Nodup :=
  nodup_names_of_bound (bound_of_ofDocument h) htexts

/-! ## Enums -/

theorem addEnum_eq_ok {enums enums' : List (Json × EnumType)} {raw : Json} (h : addEnum enums raw = .ok enums') :
    ∃ e, enums' = Entries.put e.name e enums := by
  unfold addEnum at h
  simp only [bind_eq_ok] at h
  obtain ⟨named, -, h⟩ := h
  split at h
  · cases h
  · simp only [bind_eq_ok] at h
    obtain ⟨values, -, name, -, vs, -, h⟩ := h
    exact ⟨⟨name, vs⟩, bind_eq h⟩

theorem enums_of_ofDocument (h : Schema.ofDocument d = .ok s) :
    ∃ raws : List Json, raws.foldlM addEnum [] = .ok s.enums := by
  cases d with
  | obj ms =>
    unfold Schema.ofDocument at h
    simp only [bind_eq_ok, pure_eq_ok] at h
    obtain ⟨_, _, _, _, raws, _, _, henums, rfl⟩ := h
    exact ⟨raws, henums⟩
  | _ => cases h

theorem nodup_enumNames_of_ofDocument (h : Schema.ofDocument d = .ok s)
    (htexts : ∀ e ∈ Entries.values s.enums, ∃ n, e.name = .str n) :
    ((Entries.values s.enums).map (·.name)).Nodup := by
  obtain ⟨raws, henums⟩ := enums_of_ofDocument h
  refine nodup_names_of_bound (of_foldlM_eq_ok (P := Bound EnumType.name) (fun es raw _ es' hbound hadd => ?_)
    bound_nil henums) htexts
  obtain ⟨e, rfl⟩ := addEnum_eq_ok hadd
  exact bound_put hbound e

end Document

end SchemaForge

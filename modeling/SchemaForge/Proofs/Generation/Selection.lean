import SchemaForge.Generation.Backend

/-
What is in scope of a generation. Models and enums are selected by one setting, each from its own entries and with a
look at the others (`Selects`). So the numbers of both can be told from the setting and the entries alone
(`length_of_select`), and if the one can be selected, so can the other (`exists_select_swap`).
-/

namespace SchemaForge.Generation

variable {ν μ : Type}

/-- What is selected from the entries here, with a look at those of the other kind. -/
inductive Selects (s : Settings) (here : List (Json × ν)) (there : List (Json × μ)) : List (Json × ν) → Prop
  | all (hunset : s.selectedType.truthy = false) : Selects s here there here
  | one {v : ν} (hset : s.selectedType.truthy = true) (hkey : s.selectedType.isScalar = true)
      (hhere : Entries.get? s.selectedType here = some v) : Selects s here there [(s.selectedType, v)]
  | other (hset : s.selectedType.truthy = true) (hkey : s.selectedType.isScalar = true)
      (hhere : Entries.has s.selectedType here = false) (hthere : Entries.has s.selectedType there = true) :
      Selects s here there []

/-- How many entries are in scope. -/
def scopeSize (s : Settings) (here : List (Json × ν)) : Nat :=
  if s.selectedType.truthy then (if Entries.has s.selectedType here then 1 else 0) else here.length

variable {s : Settings} {here es : List (Json × ν)} {there : List (Json × μ)}

theorem select_eq_ok_iff : select s here there = .ok es ↔ Selects s here there es := by
  unfold select
  refine ⟨fun h => ?_, fun h => ?_⟩
  · split at h
    · rename_i hunset
      cases h
      exact .all (by simpa using hunset)
    · rename_i hset
      have hset : s.selectedType.truthy = true := by simpa using hset
      split at h
      · cases h
      · rename_i hkey
        have hkey : s.selectedType.isScalar = true := by simpa using hkey
        split at h
        · rename_i v hhere
          cases h
          exact .one hset hkey hhere
        · rename_i hhere
          split at h
          · rename_i hthere
            cases h
            exact .other hset hkey (Entries.get?_eq_none_iff_has.mp hhere) hthere
          · cases h
  · cases h with
    | all hunset => rw [hunset]; rfl
    | one hset hkey hhere => rw [hset, hkey, hhere]; rfl
    | other hset hkey hhere hthere => rw [hset, hkey, Entries.get?_eq_none_iff_has.mpr hhere, hthere]; rfl

/-- All entries are in scope, or at most one is. -/
theorem all_or_one_of_select (h : select s here there = .ok es) : es = here ∨ es.length ≤ 1 := by
  cases select_eq_ok_iff.mp h with
  | all _ => exact Or.inl rfl
  | one _ _ _ => exact Or.inr (Nat.le_refl 1)
  | other _ _ _ _ => exact Or.inr (Nat.zero_le 1)

/-- What is in scope is a part of what there is, in its order. -/
theorem values_select_sublist (h : select s here there = .ok es) :
    (Entries.values es).Sublist (Entries.values here) := by
  cases select_eq_ok_iff.mp h with
  | all _ => exact List.Sublist.refl _
  | @one v _ _ hhere =>
    obtain ⟨k, -, hmem⟩ := Entries.exists_mem_of_get? hhere
    exact List.singleton_sublist.mpr (List.mem_map.mpr ⟨(k, v), hmem, rfl⟩)
  | other _ _ _ _ => exact List.nil_sublist _

theorem length_of_select (h : select s here there = .ok es) : es.length = scopeSize s here := by
  unfold scopeSize
  cases select_eq_ok_iff.mp h with
  | all hunset => rw [hunset]; rfl
  | one hset _ hhere => rw [hset, Entries.exists_get?_iff_has.mp ⟨_, hhere⟩]; rfl
  | other hset _ hhere _ => rw [hset, hhere]; rfl

/-- A selection from the one kind of entries is one from the other kind, too. -/
theorem exists_select_swap (h : select s here there = .ok es) : ∃ others, select s there here = .ok others := by
  simp only [select_eq_ok_iff]
  cases select_eq_ok_iff.mp h with
  | all hunset => exact ⟨there, .all hunset⟩
  | other hset hkey _ hthere =>
    obtain ⟨w, hw⟩ := Entries.exists_get?_iff_has.mpr hthere
    exact ⟨_, .one hset hkey hw⟩
  | one hset hkey hhere =>
    have hhere : Entries.has s.selectedType here = true := Entries.exists_get?_iff_has.mp ⟨_, hhere⟩
    cases hthere : Entries.get? s.selectedType there with
    | some w => exact ⟨_, .one hset hkey hthere⟩
    | none => exact ⟨[], .other hset hkey (Entries.get?_eq_none_iff_has.mp hthere) hhere⟩

end SchemaForge.Generation

import SchemaForge.Files

/-
What is written is read. Writing puts a file at the place that a path leads to. The directories on the way stay
directories (`at?_put_of_directory`), so the path leads to the same place again and the file is found there
(`walk_put`).
-/

namespace SchemaForge.FileStore

variable {s s' : FileStore} {place : List String} {bytes : List UInt8} {p : Path}

/-- The store with a file at a place, whatever stood there. -/
def put (s : FileStore) (place : List String) (bytes : List UInt8) : FileStore :=
  { entries := s.entries.filter (fun e => !(e.1 == place)) ++ [(place, .file bytes)] }

theorem at?_put_self (h : isStanding place = false) : (s.put place bytes).at? place = some (.file bytes) := by
  have hothers : (s.entries.filter (fun e => !(e.1 == place))).find? (·.1 == place) = none := by
    rw [List.find?_eq_none]
    intro e he
    simpa using (List.mem_filter.mp he).2
  unfold at? put
  rw [h, if_neg Bool.false_ne_true, List.find?_append, hothers]
  simp

theorem at?_put_of_directory {here : List String} (hne : here ≠ place) (h : s.at? here = some .directory) :
    (s.put place bytes).at? here = some .directory := by
  have hfind : (s.put place bytes).entries.find? (·.1 == here) = s.entries.find? (·.1 == here) := by
    have hkept : ∀ e : List String × Content,
        decide ((!(e.1 == place)) = true ∧ (e.1 == here) = true) = (e.1 == here) := by
      intro e
      by_cases he : e.1 = here
      · simp [he, hne]
      · simp [he]
    have hnew : ((place, Content.file bytes).1 == here) = false := by simpa using Ne.symm hne
    unfold put
    rw [List.find?_append, List.find?_filter, funext hkept, List.find?_singleton, hnew, if_neg Bool.false_ne_true,
      Option.or_none]
  have habove : s.entries.any (fun e => here.isPrefixOf e.1) = true →
      (s.put place bytes).entries.any (fun e => here.isPrefixOf e.1) = true := by
    rw [List.any_eq_true, List.any_eq_true]
    rintro ⟨e, he, hprefix⟩
    by_cases hplace : e.1 = place
    · exact ⟨(place, .file bytes), List.mem_append_right _ (List.mem_singleton.mpr rfl), hplace ▸ hprefix⟩
    · exact ⟨e, List.mem_append_left _ (List.mem_filter.mpr ⟨he, by simpa using hplace⟩), hprefix⟩
  unfold at? at h ⊢
  split
  · rfl
  · rename_i hstanding
    rw [if_neg hstanding] at h
    rw [hfind]
    cases hentry : s.entries.find? (·.1 == here) with
    | some e =>
      rw [hentry] at h
      exact h
    | none =>
      rw [hentry] at h
      dsimp only at h ⊢
      split at h
      · rename_i hany
        rw [if_pos (habove hany)]
      · cases h

theorem walk_found {here : List String} {parts : List String} {found : Option Content}
    (h : s.walk here parts = .ok (place, found)) : found = s.at? place := by
  induction parts generalizing here with
  | nil =>
    cases h
    rfl
  | cons part rest ih =>
    unfold walk at h
    split at h
    · cases h
    · cases h
    · split at h
      · cases h
      · exact ih h

theorem walk_put {here : List String} {parts : List String} {found : Option Content}
    (h : s.walk here parts = .ok (place, found)) (hfound : found ≠ some .directory) :
    (s.put place bytes).walk here parts = .ok (place, some (.file bytes)) := by
  have hplace : s.at? place ≠ some .directory := walk_found h ▸ hfound
  induction parts generalizing here with
  | nil =>
    obtain ⟨rfl, -⟩ := Prod.mk.inj (Except.ok.inj h)
    have hstanding : isStanding here.reverse = false := by
      rw [Bool.eq_false_iff]
      exact fun hs => hplace (if_pos hs)
    unfold walk
    rw [at?_put_self hstanding]
  | cons part rest ih =>
    unfold walk at h ⊢
    cases hhere : s.at? here.reverse with
    | none =>
      rw [hhere] at h
      cases h
    | some content =>
      cases content with
      | file _ =>
        rw [hhere] at h
        cases h
      | directory =>
        have hne : here.reverse ≠ place := by
          rintro rfl
          exact hplace hhere
        rw [hhere] at h
        rw [at?_put_of_directory hne hhere]
        dsimp only at h ⊢
        split at h
        · cases h
        · rename_i hlong
          rw [if_neg hlong]
          exact ih h

theorem write_eq_ok (h : s.write p bytes = .ok s') :
    ∃ place found, s.locate p = .ok (place, found) ∧ found ≠ some .directory ∧ s' = s.put place bytes := by
  unfold write at h
  split at h
  · cases h
  · cases h
  · rename_i place found hdirectory hlocate
    exact ⟨place, found, hlocate, fun hf => hdirectory (by rw [hf]), (Except.ok.inj h).symm⟩

/-- The path leads to a place in a directory that is none itself. -/
def Writable (s : FileStore) (p : Path) : Prop :=
  ∃ place found, s.locate p = .ok (place, found) ∧ found ≠ some .directory

theorem locate_of_write (h : s.write p bytes = .ok s') : ∃ place, s'.locate p = .ok (place, some (.file bytes)) := by
  obtain ⟨place, found, hlocate, hfound, rfl⟩ := write_eq_ok h
  refine ⟨place, ?_⟩
  unfold locate at hlocate ⊢
  split at hlocate
  · cases hlocate
  · rename_i hlong
    rw [if_neg hlong]
    exact walk_put hlocate hfound

theorem read_of_write (h : s.write p bytes = .ok s') : s'.read p = .ok bytes := by
  obtain ⟨place, hlocate⟩ := locate_of_write h
  unfold read
  rw [hlocate]

theorem exists_of_write (h : s.write p bytes = .ok s') (hnul : p.holdsNul = false) : s'.exists? p = .ok true := by
  obtain ⟨place, hlocate⟩ := locate_of_write h
  unfold exists?
  rw [hnul, if_neg Bool.false_ne_true, hlocate]
  rfl

end SchemaForge.FileStore

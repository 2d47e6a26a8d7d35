import SchemaForge.Proofs.Runs
import SchemaForge.Settings.Load

/-
Settings and the members they are made of. A member with the name of a field sets that field; every other member
becomes a custom setting, before the entries of `custom` (`ofMembers_eq_ok`). Members are told apart by their names,
so it does not matter in what order they stand.
-/

namespace SchemaForge

open Entries

namespace Custom

variable {ms old : List (String × Json)}

theorem get?_keyed (k : String) (ms : List (String × Json)) : Entries.get? (.str k) (keyed ms) = Entries.get? k ms := by
  induction ms with
  | nil => rfl
  | cons m ms ih =>
    show (if (Json.str m.1 == Json.str k) = true then _ else Entries.get? (.str k) (keyed ms)) = _
    rw [ih]
    rfl

theorem put_keyed (k : String) (v : Json) (ms : List (String × Json)) :
    put (.str k) v (keyed ms) = keyed (put k v ms) := by
  induction ms with
  | nil => rfl
  | cons m ms ih =>
    show (if (Json.str m.1 == Json.str k) = true then _ else (Json.str m.1, m.2) :: put (.str k) v (keyed ms)) = _
    rw [ih, put]
    show (if (m.1 == k) = true then _ else _) = _
    split <;> rfl

theorem putAll_keyed (new old : List (String × Json)) : putAll (keyed new) (keyed old) = keyed (putAll new old) := by
  induction new generalizing old with
  | nil => rfl
  | cons m new ih =>
    show putAll (keyed new) (put (.str m.1) m.2 (keyed old)) = _
    rw [put_keyed, ih]
    rfl

end Custom

namespace Settings

variable {s : Settings} {ms : Members} {name : String} {v : Json}

/-! ## Fields -/

/-- Members that can be settings: each name once, and under `custom` an object, with each name once. -/
structure Proper (ms : Members) : Prop where
  names_nodup : (keys ms).Nodup
  custom : ∀ v, get? "custom" ms = some v → ∃ c, v = .obj c ∧ (keys c).Nodup

/-- The entries under `custom`. -/
def customOf (ms : Members) : Members :=
  match get? "custom" ms with
  | some (.obj c) => c
  | _ => []

theorem setField_of_ne (s : Settings) (hname : name ∈ names) (hcustom : name ≠ "custom") (v : Json) :
    ∃ s', s.setField name v = .ok s' ∧ s'.toMembers = put name v s.toMembers ∧ s'.custom = s.custom := by
  simp only [names, toMembers, List.map_cons, List.map_nil, List.mem_cons, List.not_mem_nil, or_false] at hname
  rcases hname with rfl | rfl | rfl | rfl | rfl | rfl | rfl
  all_goals first
    | exact absurd rfl hcustom
    | exact ⟨_, rfl, rfl, rfl⟩

theorem toMembers_custom (s : Settings) (c : Custom) :
    ({ s with custom := c } : Settings).toMembers = put "custom" c.toJson s.toMembers := rfl

/-- Fields set in turn, each once: what is set is what stands in the members. -/
theorem setFields_eq_ok (hnodup : (keys ms).Nodup) (hnames : ∀ n ∈ keys ms, n ∈ names) (s : Settings) :
    ∃ s', ms.foldlM (fun s m => s.setField m.1 m.2) s = .ok s' ∧
      (∀ n, n ≠ "custom" → get? n s'.toMembers = (get? n ms).or (get? n s.toMembers)) ∧
      s'.custom = ((get? "custom" ms).map Custom.ofJson).getD s.custom := by
  induction ms generalizing s with
  | nil => exact ⟨s, rfl, fun _ _ => rfl, rfl⟩
  | cons m ms ih =>
    rw [keys_cons, List.nodup_cons] at hnodup
    have ih := ih hnodup.2 (fun n hn => hnames n (List.mem_cons_of_mem _ hn))
    have hrest : get? m.1 ms = none := get?_eq_none_iff.mpr hnodup.1
    rw [List.foldlM_cons]
    by_cases hcustom : m.1 = "custom"
    · have hset : s.setField m.1 m.2 = .ok { s with custom := Custom.ofJson m.2 } := by rw [hcustom]; rfl
      obtain ⟨s', hs', hfields, hs'custom⟩ := ih { s with custom := Custom.ofJson m.2 }
      refine ⟨s', by rw [hset]; exact hs', fun n hn => ?_, ?_⟩
      · rw [hfields n hn, toMembers_custom, get?_put_of_ne hn, get?, if_neg (by simpa [hcustom] using Ne.symm hn)]
      · rw [hs'custom, ← hcustom, hrest, get?, if_pos BEq.rfl]
        rfl
    · obtain ⟨next, hset, hnext, hnextCustom⟩ := setField_of_ne s (hnames _ (List.mem_cons_self ..)) hcustom m.2
      obtain ⟨s', hs', hfields, hs'custom⟩ := ih next
      refine ⟨s', by rw [hset]; exact hs', fun n hn => ?_, ?_⟩
      · rw [hfields n hn, hnext, get?_put, get?]
        by_cases hname : m.1 = n
        · rw [if_pos (beq_iff_eq.mpr hname), if_pos (beq_iff_eq.mpr hname), ← hname, hrest]
          rfl
        · rw [if_neg (by simpa using hname), if_neg (by simpa using hname)]
      · rw [hs'custom, hnextCustom, get?, if_neg (by simpa using hcustom)]

/-! ## Members of any name -/

/-- The members without a field of their own. -/
def unnamed (ms : Members) : Members := ms.filter (fun m => !names.contains m.1)

/-- The members with a field of their own. -/
def named (ms : Members) : Members := ms.filter (fun m => names.contains m.1)

theorem get?_named (name : String) (ms : Members) :
    get? name (named ms) = if name ∈ names then get? name ms else none := by
  simp only [named, get?_filter (names.contains ·), List.contains_iff_mem]

theorem get?_unnamed (name : String) (ms : Members) :
    get? name (unnamed ms) = if name ∈ names then none else get? name ms := by
  rw [unnamed, get?_filter (fun n => !names.contains n)]
  by_cases h : name ∈ names <;> simp [h]

/-- The custom settings under `custom`, or none. -/
def givenCustom (ms : Members) : Custom := ((get? "custom" ms).map Custom.ofJson).getD (.entries [])

theorem givenCustom_of_proper (h : Proper ms) : givenCustom ms = .entries (Custom.keyed (customOf ms)) := by
  unfold givenCustom customOf
  cases hget : get? "custom" ms with
  | none => rfl
  | some v =>
    obtain ⟨c, rfl, -⟩ := h.custom v hget
    rfl

theorem ofFields_named (hnodup : (keys ms).Nodup) : ∃ s, ofFields (named ms) = .ok s ∧
    (∀ n ∈ names, n ≠ "custom" → get? n s.toMembers = (get? n ms).or (get? n ({} : Settings).toMembers)) ∧
    s.custom = givenCustom ms := by
  have hnamed : (keys (named ms)).Nodup := (List.filter_sublist.map _).nodup hnodup
  have hnames : ∀ n ∈ keys (named ms), n ∈ names := by
    intro n hn
    obtain ⟨m, hm, rfl⟩ := List.mem_map.mp hn
    exact List.contains_iff_mem.mp (List.mem_filter.mp hm).2
  obtain ⟨s, hs, hfields, hcustom⟩ := setFields_eq_ok hnamed hnames {}
  refine ⟨s, hs, fun n hn hne => ?_, ?_⟩
  · rw [hfields n hne, get?_named, if_pos hn]
  · rw [hcustom, get?_named, if_pos (by decide)]
    rfl

/-- Settings from members of any name are those of the fields, with what has no field put into the custom entries. -/
theorem ofMembers_eq (hnodup : (keys ms).Nodup) : ∃ s,
    (∀ n ∈ names, n ≠ "custom" → get? n s.toMembers = (get? n ms).or (get? n ({} : Settings).toMembers)) ∧
    s.custom = givenCustom ms ∧
    ofMembers ms = if (unnamed ms).isEmpty then .ok s else do
      let old ← (givenCustom ms).toEntries
      return { s with custom := .entries (putAll (Custom.keyed (unnamed ms)) old) } := by
  obtain ⟨s, hs, hfields, hcustom⟩ := ofFields_named hnodup
  refine ⟨s, hfields, hcustom, ?_⟩
  unfold named at hs
  simp only [ofMembers, hs, bind, Except.bind, hcustom]
  rfl

theorem ofMembers_eq_ok (h : Proper ms) : ∃ s, ofMembers ms = .ok s ∧
    (∀ n ∈ names, n ≠ "custom" → get? n s.toMembers = (get? n ms).or (get? n ({} : Settings).toMembers)) ∧
    s.custom = .entries (Custom.keyed (putAll (unnamed ms) (customOf ms))) := by
  obtain ⟨s, hfields, hcustom, hof⟩ := ofMembers_eq h.names_nodup
  rw [givenCustom_of_proper h] at hcustom hof
  by_cases hnone : (unnamed ms).isEmpty = true
  · refine ⟨s, by rw [hof, if_pos hnone], hfields, ?_⟩
    rw [hcustom, List.isEmpty_iff.mp hnone]
    rfl
  · refine ⟨_, by rw [hof, if_neg hnone]; rfl, ?_, by rw [Custom.putAll_keyed]⟩
    intro n hn hne
    rw [toMembers_custom, get?_put_of_ne hne, hfields n hn hne]

/-- Custom entries come from the members without a field and from what is under `custom`. -/
theorem entries_of_ofMembers {es : List (Json × Json)} (hnodup : (keys ms).Nodup) (h : ofMembers ms = .ok s)
    (hs : s.custom = .entries es) :
    ∃ old, (givenCustom ms).toEntries = .ok old ∧ es = putAll (Custom.keyed (unnamed ms)) old := by
  obtain ⟨s₀, -, hcustom, hof⟩ := ofMembers_eq hnodup
  rw [hof] at h
  split at h
  · rename_i hnone
    cases h
    rw [← hcustom, hs, List.isEmpty_iff.mp hnone]
    exact ⟨es, rfl, rfl⟩
  · obtain ⟨old, hold, h⟩ := Runs.bind_eq_ok.mp h
    cases h
    cases hs
    exact ⟨old, hold, rfl⟩

end Settings

end SchemaForge

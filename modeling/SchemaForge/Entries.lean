/-
Entries: key–value pairs in order of first insertion. Putting a key that is present replaces its value
where it stands; a new key goes to the end. Keys are told apart by the boolean equality of their type.

What is put stands under its key or one that is not told apart from it (`mem_put`), and the key is a new one
only if it is told apart from all (`keys_put_has`), when it goes to the end (`put_of_not_has`), so all keys stay apart
(`apart_putAll`). There are as many entries as were put only if none took the place of another (`putAll_of_length`).

For keys whose equality is lawful: a key that was put is found with the value it was put with
(`get?_put_self`), no other key is touched (`get?_put_of_ne`), and the keys grow only by a new one
(`keys_put`), so each stands once (`nodup_keys_put`). Putting all entries of a list lets them go before the old
ones (`get?_putAll`), and leaves one entry for each key, where it was put first (`keys_putAll`) and with the value that
was put last (`mem_putAll_of_last`). Where each key stands once, an entry is what is found under its key
(`get?_of_mem`). Erasing a key that was new when it was put gives the entries before it back (`erase_concat`).
-/

namespace SchemaForge.Entries

variable {κ ν : Type} [BEq κ]

def get? (k : κ) : List (κ × ν) → Option ν
  | [] => none
  | (k', v) :: rest => if k' == k then some v else get? k rest

def has (k : κ) (es : List (κ × ν)) : Bool := es.any (·.1 == k)

def put (k : κ) (v : ν) : List (κ × ν) → List (κ × ν)
  | [] => [(k, v)]
  | (k', v') :: rest => if k' == k then (k', v) :: rest else (k', v') :: put k v rest

/-- Puts every pair in turn. -/
def putAll (new old : List (κ × ν)) : List (κ × ν) :=
  new.foldl (fun es (k, v) => put k v es) old

def erase (k : κ) (es : List (κ × ν)) : List (κ × ν) := es.filter (fun e => !(e.1 == k))

def keys (es : List (κ × ν)) : List κ := es.map (·.1)

def values (es : List (κ × ν)) : List ν := es.map (·.2)

theorem keys_cons {κ ν : Type} (e : κ × ν) (es : List (κ × ν)) : keys (e :: es) = e.1 :: keys es := rfl

theorem putAll_cons (e : κ × ν) (new old : List (κ × ν)) : putAll (e :: new) old = putAll new (put e.1 e.2 old) := rfl

theorem putAll_append (first second old : List (κ × ν)) :
    putAll (first ++ second) old = putAll second (putAll first old) := List.foldl_append

/-! Other values under the same keys -/

theorem values_mapValues {κ ν μ : Type} (f : ν → μ) (es : List (κ × ν)) :
    values (es.map (fun e => (e.1, f e.2))) = (values es).map f := by
  unfold values
  rw [List.map_map, List.map_map]
  rfl

theorem has_mapValues {μ : Type} (f : ν → μ) (k : κ) (es : List (κ × ν)) :
    has k (es.map (fun e => (e.1, f e.2))) = has k es := by
  unfold has
  rw [List.any_map]
  rfl

theorem get?_mapValues {μ : Type} (f : ν → μ) (k : κ) (es : List (κ × ν)) :
    get? k (es.map (fun e => (e.1, f e.2))) = (get? k es).map f := by
  induction es with
  | nil => rfl
  | cons e es ih =>
    rw [List.map_cons, get?, get?]
    split
    · rfl
    · exact ih

/-! What putting changes -/

theorem has_iff {k : κ} {es : List (κ × ν)} : has k es = true ↔ ∃ k' ∈ keys es, (k' == k) = true := by
  simp [has, keys]

/-- Putting adds its key if there is none that it is not told apart from. -/
theorem keys_put_has (k : κ) (v : ν) (es : List (κ × ν)) :
    keys (put k v es) = if has k es then keys es else keys es ++ [k] := by
  induction es with
  | nil => rfl
  | cons e es ih =>
    by_cases he : (e.1 == k) = true
    · simp [put, keys, has, he]
    · have hput : keys (put k v (e :: es)) = e.1 :: keys (put k v es) := by simp [put, keys, he]
      have hhas : has k (e :: es) = has k es := by simp [has, he]
      rw [hput, hhas, ih]
      split <;> rfl

/-- What is put stands under its key or one that is not told apart from it, and the rest is as it was. -/
theorem mem_put {k : κ} {v : ν} {es : List (κ × ν)} {e : κ × ν} (h : e ∈ put k v es) :
    e ∈ es ∨ e.2 = v ∧ (e.1 = k ∨ (e.1 == k) = true) := by
  induction es with
  | nil =>
    rw [List.mem_singleton.mp h]
    exact Or.inr ⟨rfl, Or.inl rfl⟩
  | cons d es ih =>
    unfold put at h
    split at h
    · rename_i hd
      rcases List.mem_cons.mp h with rfl | h
      · exact Or.inr ⟨rfl, Or.inr hd⟩
      · exact Or.inl (List.mem_cons_of_mem _ h)
    · rcases List.mem_cons.mp h with rfl | h
      · exact Or.inl (List.mem_cons_self ..)
      · exact (ih h).imp_left (List.mem_cons_of_mem _)

/-- What stands after putting all stood before, or was put under its key or one that is not told apart from it. -/
theorem mem_or_exists_of_mem_putAll {new old : List (κ × ν)} {e : κ × ν} (h : e ∈ putAll new old) :
    e ∈ old ∨ ∃ d ∈ new, e.2 = d.2 ∧ (e.1 = d.1 ∨ (e.1 == d.1) = true) := by
  induction new generalizing old with
  | nil => exact Or.inl h
  | cons d new ih =>
    rcases ih (putAll_cons d new old ▸ h) with h | ⟨c, hc, hput⟩
    · exact (mem_put h).imp_right fun hput => ⟨d, List.mem_cons_self .., hput⟩
    · exact Or.inr ⟨c, List.mem_cons_of_mem _ hc, hput⟩

/-- What is found stands under a key that is not told apart. -/
theorem exists_mem_of_get? {k : κ} {v : ν} {es : List (κ × ν)} (h : get? k es = some v) :
    ∃ k', (k' == k) = true ∧ (k', v) ∈ es := by
  induction es with
  | nil => cases h
  | cons e es ih =>
    obtain ⟨k', v'⟩ := e
    unfold get? at h
    split at h
    · rename_i hk
      cases h
      exact ⟨k', hk, List.mem_cons_self ..⟩
    · obtain ⟨k'', hk, hmem⟩ := ih h
      exact ⟨k'', hk, List.mem_cons_of_mem _ hmem⟩

theorem has_eq_isSome_get? (k : κ) (es : List (κ × ν)) : has k es = (get? k es).isSome := by
  induction es with
  | nil => rfl
  | cons e es ih =>
    obtain ⟨k', v⟩ := e
    unfold has at ih ⊢
    rw [List.any_cons, get?]
    split
    · rename_i hk
      rw [hk]
      rfl
    · rename_i hk
      rw [Bool.eq_false_iff.mpr hk, Bool.false_or, ih]

theorem get?_eq_none_iff_has {k : κ} {es : List (κ × ν)} : get? k es = none ↔ has k es = false := by
  rw [has_eq_isSome_get?, Option.isSome_eq_false_iff, Option.isNone_iff_eq_none]

theorem exists_get?_iff_has {k : κ} {es : List (κ × ν)} : (∃ v, get? k es = some v) ↔ has k es = true := by
  rw [has_eq_isSome_get?, Option.isSome_iff_exists]

/-- A key that is told apart from those that stand in front is put behind them. -/
theorem put_append_of_not_has {k : κ} {es : List (κ × ν)} (h : has k es = false) (v : ν) (later : List (κ × ν)) :
    put k v (es ++ later) = es ++ put k v later := by
  induction es with
  | nil => rfl
  | cons e es ih =>
    obtain ⟨he, h⟩ := Bool.or_eq_false_iff.mp h
    rw [List.cons_append, put, if_neg (Bool.eq_false_iff.mp he), ih h, List.cons_append]

/-- A key that is told apart from all goes to the end. -/
theorem put_of_not_has {k : κ} {es : List (κ × ν)} (h : has k es = false) (v : ν) : put k v es = es ++ [(k, v)] := by
  have happend := put_append_of_not_has h v []
  rwa [List.append_nil] at happend

theorem putAll_append_of_not_has {new es : List (κ × ν)} (h : ∀ k ∈ keys new, has k es = false)
    (later : List (κ × ν)) : putAll new (es ++ later) = es ++ putAll new later := by
  induction new generalizing later with
  | nil => rfl
  | cons e new ih =>
    obtain ⟨he, h⟩ := List.forall_mem_cons.mp h
    rw [putAll_cons, putAll_cons, put_append_of_not_has he, ih h]

/-- No two keys are taken for one. -/
def Apart (es : List (κ × ν)) : Prop := (keys es).Pairwise (fun a b => (a == b) = false)

theorem apart_nil : Apart ([] : List (κ × ν)) := List.Pairwise.nil

theorem apart_put {es : List (κ × ν)} (h : Apart es) (k : κ) (v : ν) : Apart (put k v es) := by
  unfold Apart
  rw [keys_put_has]
  split
  · exact h
  · rename_i hk
    refine List.pairwise_append.mpr ⟨h, List.pairwise_singleton .., fun a ha b hb => ?_⟩
    rw [List.mem_singleton.mp hb, Bool.eq_false_iff]
    exact fun heq => hk (has_iff.mpr ⟨a, ha, heq⟩)

theorem apart_putAll {old : List (κ × ν)} (h : Apart old) (new : List (κ × ν)) : Apart (putAll new old) := by
  induction new generalizing old with
  | nil => exact h
  | cons e new ih => exact ih (apart_put h e.1 e.2)

/-- Telling keys apart is all that putting asks of them. -/
theorem put_map {κ' : Type} [BEq κ'] {f : κ → κ'} (hf : ∀ a b, (f a == f b) = (a == b)) (k : κ) (v : ν)
    (es : List (κ × ν)) : put (f k) v (es.map (fun e => (f e.1, e.2))) = (put k v es).map (fun e => (f e.1, e.2)) := by
  induction es with
  | nil => rfl
  | cons e es ih =>
    by_cases he : (e.1 == k) = true
    · simp [put, hf, he]
    · simp [put, hf, he, ih]

theorem putAll_map {κ' : Type} [BEq κ'] {f : κ → κ'} (hf : ∀ a b, (f a == f b) = (a == b)) (new old : List (κ × ν)) :
    putAll (new.map (fun e => (f e.1, e.2))) (old.map (fun e => (f e.1, e.2))) =
      (putAll new old).map (fun e => (f e.1, e.2)) := by
  induction new generalizing old with
  | nil => rfl
  | cons e new ih => rw [List.map_cons, putAll_cons, putAll_cons, ← ih, put_map hf]

theorem not_has_of_apart {es later : List (κ × ν)} {e : κ × ν} (h : Apart (es ++ e :: later)) : has e.1 es = false := by
  unfold Apart keys at h
  rw [List.map_append, List.pairwise_append] at h
  rw [Bool.eq_false_iff]
  intro hhas
  obtain ⟨k, hk, heq⟩ := has_iff.mp hhas
  rw [h.2.2 k hk e.1 (List.mem_cons_self ..)] at heq
  cases heq

theorem length_keys {κ ν : Type} (es : List (κ × ν)) : (keys es).length = es.length := List.length_map _

theorem length_put_le (k : κ) (v : ν) (es : List (κ × ν)) : (put k v es).length ≤ es.length + 1 := by
  rw [← length_keys, keys_put_has, ← length_keys es]
  split <;> simp

theorem length_putAll_le (new old : List (κ × ν)) : (putAll new old).length ≤ old.length + new.length := by
  induction new generalizing old with
  | nil => exact Nat.le_refl _
  | cons e new ih =>
    have hput := length_put_le e.1 e.2 old
    have hrest := ih (put e.1 e.2 old)
    rw [putAll_cons, List.length_cons]
    omega

/-- If there are as many entries as were put, none was put in the place of another. -/
theorem putAll_of_length {new old : List (κ × ν)} (h : (putAll new old).length = old.length + new.length) :
    putAll new old = old ++ new := by
  induction new generalizing old with
  | nil => exact (List.append_nil _).symm
  | cons e new ih =>
    rw [putAll_cons, List.length_cons] at h
    have hrest := length_putAll_le new (put e.1 e.2 old)
    cases hhas : has e.1 old with
    | true =>
      have hput : (put e.1 e.2 old).length = old.length := by
        rw [← length_keys, keys_put_has, if_pos hhas, length_keys]
      omega
    | false =>
      rw [put_of_not_has hhas, List.length_append, List.length_singleton] at hrest
      rw [put_of_not_has hhas] at h
      rw [putAll_cons, put_of_not_has hhas, ih, List.append_assoc, List.singleton_append]
      rw [h, List.length_append, List.length_singleton]
      omega

/-- Entries with their keys apart are put one behind the other. -/
theorem putAll_of_apart {new old : List (κ × ν)} (h : Apart (old ++ new)) : putAll new old = old ++ new := by
  induction new generalizing old with
  | nil => exact (List.append_nil _).symm
  | cons e new ih =>
    rw [putAll_cons, put_of_not_has (not_has_of_apart h), ih, List.append_assoc, List.singleton_append]
    rwa [List.append_assoc, List.singleton_append]

section Lawful

variable [LawfulBEq κ]

theorem has_iff_mem_keys {k : κ} {es : List (κ × ν)} : has k es = true ↔ k ∈ keys es := by
  simp [has, keys]

theorem get?_put_self (k : κ) (v : ν) (es : List (κ × ν)) : get? k (put k v es) = some v := by
  induction es with
  | nil => simp [put, get?]
  | cons e es ih => by_cases h : e.1 = k <;> simp [put, get?, h, ih]

theorem get?_put_of_ne {k k' : κ} (h : k' ≠ k) (v : ν) (es : List (κ × ν)) :
    get? k' (put k v es) = get? k' es := by
  induction es with
  | nil => simp [put, get?, h.symm]
  | cons e es ih =>
    by_cases he : e.1 = k
    · simp [put, get?, he, h.symm]
    · by_cases he' : e.1 = k' <;> simp [put, get?, he, he', ih, h]

theorem keys_put (k : κ) (v : ν) (es : List (κ × ν)) :
    keys (put k v es) = if k ∈ keys es then keys es else keys es ++ [k] := by
  simp only [keys_put_has, has_iff_mem_keys]

theorem nodup_keys_put {es : List (κ × ν)} (h : (keys es).Nodup) (k : κ) (v : ν) :
    (keys (put k v es)).Nodup := by
  rw [keys_put]
  split
  · exact h
  · rename_i hk
    refine List.nodup_append.2 ⟨h, by simp, ?_⟩
    intro a ha b hb
    rw [List.mem_singleton.1 hb]
    exact fun e => hk (e ▸ ha)

theorem mem_keys_put {k k' : κ} {v : ν} {es : List (κ × ν)} : k' ∈ keys (put k v es) ↔ k' = k ∨ k' ∈ keys es := by
  rw [keys_put]
  split
  · rename_i hk
    refine ⟨Or.inr, ?_⟩
    rintro (rfl | h)
    · exact hk
    · exact h
  · rw [List.mem_append, List.mem_singleton, or_comm]

theorem has_put (k k' : κ) (v : ν) (es : List (κ × ν)) : has k' (put k v es) = (k' == k || has k' es) := by
  rw [Bool.eq_iff_iff, Bool.or_eq_true, has_iff_mem_keys, has_iff_mem_keys, mem_keys_put, beq_iff_eq]

/-- A new key goes to the end. -/
theorem put_of_not_mem {k : κ} {es : List (κ × ν)} (h : k ∉ keys es) (v : ν) : put k v es = es ++ [(k, v)] :=
  put_of_not_has (Bool.eq_false_iff.mpr fun hk => h (has_iff_mem_keys.mp hk)) v

/-! Looking up -/

theorem mem_of_get? {k : κ} {v : ν} {es : List (κ × ν)} (h : get? k es = some v) : (k, v) ∈ es := by
  obtain ⟨k', hk, hmem⟩ := exists_mem_of_get? h
  rwa [beq_iff_eq.mp hk] at hmem

theorem get?_of_mem {k : κ} {v : ν} {es : List (κ × ν)} (hn : (keys es).Nodup) (h : (k, v) ∈ es) :
    get? k es = some v := by
  induction es with
  | nil => cases h
  | cons e es ih =>
    obtain ⟨k', v'⟩ := e
    rw [keys_cons, List.nodup_cons] at hn
    unfold get?
    rcases List.mem_cons.mp h with he | h
    · cases he
      exact if_pos BEq.rfl
    · have : k' ≠ k := by
        rintro rfl
        exact hn.1 (List.mem_map.mpr ⟨_, h, rfl⟩)
      rw [if_neg (by simpa using this)]
      exact ih hn.2 h

theorem get?_eq_none_iff {k : κ} {es : List (κ × ν)} : get? k es = none ↔ k ∉ keys es := by
  induction es with
  | nil => simp [get?, keys]
  | cons e es ih =>
    by_cases he : e.1 = k
    · simp [get?, keys, he]
    · rw [keys_cons, List.mem_cons, not_or, and_iff_right (Ne.symm he), get?, if_neg (by simpa using he)]
      exact ih

theorem exists_get?_iff {k : κ} {es : List (κ × ν)} : (∃ v, get? k es = some v) ↔ k ∈ keys es := by
  rw [← Option.isSome_iff_exists, Option.isSome_iff_ne_none, Ne, get?_eq_none_iff, Classical.not_not]

theorem get?_put (k k' : κ) (v : ν) (es : List (κ × ν)) :
    get? k' (put k v es) = if k == k' then some v else get? k' es := by
  by_cases h : k = k'
  · rw [if_pos (beq_iff_eq.mpr h), ← h, get?_put_self]
  · rw [if_neg (by simpa using h), get?_put_of_ne (Ne.symm h)]

/-- Entries whose keys are told by `p` are found as before, and no others. -/
theorem get?_filter (p : κ → Bool) (k : κ) (es : List (κ × ν)) :
    get? k (es.filter (fun e => p e.1)) = if p k then get? k es else none := by
  induction es with
  | nil => simp [get?]
  | cons e es ih =>
    by_cases he : e.1 = k
    · subst he
      by_cases hp : p e.1 <;> simp [hp, get?, ih]
    · by_cases hp : p e.1 <;> simp [hp, get?, he, ih]

/-! Putting all -/

theorem mem_keys_putAll {k : κ} {new old : List (κ × ν)} :
    k ∈ keys (putAll new old) ↔ k ∈ keys new ∨ k ∈ keys old := by
  induction new generalizing old with
  | nil => simp [putAll, keys]
  | cons e new ih =>
    rw [putAll_cons, ih, mem_keys_put, keys_cons, List.mem_cons, or_left_comm, or_assoc]

theorem nodup_keys_putAll {new old : List (κ × ν)} (h : (keys old).Nodup) : (keys (putAll new old)).Nodup := by
  induction new generalizing old with
  | nil => exact h
  | cons e new ih => exact ih (nodup_keys_put h e.1 e.2)

/-- What stands after putting all was put or stood before. -/
theorem mem_putAll {new old : List (κ × ν)} {e : κ × ν} (h : e ∈ putAll new old) : e ∈ new ∨ e ∈ old := by
  rcases mem_or_exists_of_mem_putAll h with h | ⟨d, hd, hvalue, hkey⟩
  · exact Or.inr h
  · have hkey : e.1 = d.1 := hkey.elim id beq_iff_eq.mp
    exact Or.inl ((Prod.ext hkey hvalue : e = d) ▸ hd)

/-- New keys go to the end. -/
theorem putAll_of_not_mem {new old : List (κ × ν)} (hnew : (keys new).Nodup) (hold : ∀ k ∈ keys new, k ∉ keys old) :
    putAll new old = old ++ new := by
  induction new generalizing old with
  | nil => exact (List.append_nil _).symm
  | cons e new ih =>
    rw [keys_cons, List.nodup_cons] at hnew
    rw [putAll_cons, put_of_not_mem (hold _ (List.mem_cons_self ..)), ih hnew.2, List.append_assoc,
      List.singleton_append]
    intro k hk
    rw [keys, List.map_append, List.mem_append, not_or]
    refine ⟨hold k (List.mem_cons_of_mem _ hk), fun he => ?_⟩
    rw [List.mem_singleton.mp he] at hk
    exact hnew.1 hk

theorem putAll_nil {es : List (κ × ν)} (h : (keys es).Nodup) : putAll es [] = es :=
  putAll_of_not_mem h fun _ _ => List.not_mem_nil

theorem get?_putAll_of_not_mem {k : κ} {new : List (κ × ν)} (h : k ∉ keys new) (old : List (κ × ν)) :
    get? k (putAll new old) = get? k old := by
  induction new generalizing old with
  | nil => rfl
  | cons e new ih =>
    rw [keys_cons, List.mem_cons, not_or] at h
    rw [putAll_cons, ih h.2, get?_put_of_ne h.1]

/-- Under entries of one value, that value is found. -/
theorem get?_putAll_of_mem {k : κ} {v : ν} {new : List (κ × ν)} (hv : ∀ e ∈ new, e.2 = v) (hk : k ∈ keys new)
    (old : List (κ × ν)) : get? k (putAll new old) = some v := by
  induction new generalizing old with
  | nil => cases hk
  | cons e new ih =>
    rw [putAll_cons]
    by_cases hnew : k ∈ keys new
    · exact ih (fun d hd => hv d (List.mem_cons_of_mem _ hd)) hnew _
    · have he : k = e.1 := (List.mem_cons.mp hk).resolve_right hnew
      rw [get?_putAll_of_not_mem hnew, he, get?_put_self, hv e (List.mem_cons_self ..)]

/-- What is put goes before what stood there. -/
theorem get?_putAll {new : List (κ × ν)} (h : (keys new).Nodup) (old : List (κ × ν)) (k : κ) :
    get? k (putAll new old) = (get? k new).or (get? k old) := by
  induction new generalizing old with
  | nil => rfl
  | cons e new ih =>
    rw [keys_cons, List.nodup_cons] at h
    rw [putAll_cons, ih h.2]
    by_cases he : e.1 = k
    · rw [get?_eq_none_iff.mpr (he ▸ h.1), ← he, get?_put_self, get?, if_pos BEq.rfl]
      rfl
    · rw [get?_put_of_ne (Ne.symm he), get?, if_neg (by simpa using he)]

/-- What is put under a key for the last time stands there. -/
theorem mem_putAll_of_last {k : κ} {after : List (κ × ν)} (h : k ∉ keys after) (v : ν) (before old : List (κ × ν)) :
    (k, v) ∈ putAll (before ++ (k, v) :: after) old := by
  refine mem_of_get? ?_
  rw [putAll_append, putAll_cons, get?_putAll_of_not_mem h, get?_put_self]

/-- The old keys come first, then every new one where it first occurs. -/
theorem keys_putAll (new old : List (κ × ν)) :
    keys (putAll new old) = keys old ++ ((keys new).filter (fun k => !has k old)).eraseDups := by
  induction new generalizing old with
  | nil => simp [putAll, keys]
  | cons e new ih =>
    rw [putAll_cons, ih, keys_put_has, keys_cons]
    by_cases h : has e.1 old = true
    · have hlater : ∀ k, has k (put e.1 e.2 old) = has k old := by
        intro k
        by_cases hk : k = e.1 <;> simp [has_put, hk, h]
      simp [h, hlater]
    · have hlater : (keys new).filter (fun k => !has k (put e.1 e.2 old)) =
          ((keys new).filter (fun k => !has k old)).filter (fun k => !k == e.1) := by
        rw [List.filter_filter]
        exact List.filter_congr fun k _ => by rw [has_put, Bool.not_or]
      rw [if_neg h, List.filter_cons_of_pos (by simpa using h), List.eraseDups_cons, hlater, List.append_assoc,
        List.singleton_append]

theorem keys_putAll_nil (new : List (κ × ν)) : keys (putAll new []) = (keys new).eraseDups := by
  rw [keys_putAll, List.filter_eq_self.mpr]
  · rfl
  · intro _ _
    rfl

/-! Erasing -/

theorem mem_keys_erase {k k' : κ} {es : List (κ × ν)} : k' ∈ keys (erase k es) ↔ k' ∈ keys es ∧ k' ≠ k := by
  simp only [keys, erase, List.mem_map, List.mem_filter, Bool.not_eq_true', beq_eq_false_iff_ne]
  refine ⟨?_, ?_⟩
  · rintro ⟨e, ⟨he, hne⟩, rfl⟩
    exact ⟨⟨e, he, rfl⟩, hne⟩
  · rintro ⟨⟨e, he, rfl⟩, hne⟩
    exact ⟨e, ⟨he, hne⟩, rfl⟩

theorem erase_of_not_mem {k : κ} {es : List (κ × ν)} (h : k ∉ keys es) : erase k es = es := by
  refine List.filter_eq_self.mpr fun e he => ?_
  rw [Bool.not_eq_true', beq_eq_false_iff_ne]
  rintro rfl
  exact h (List.mem_map_of_mem he)

/-- Erasing a new last entry gives those before it back. -/
theorem erase_concat {k : κ} {es : List (κ × ν)} (h : k ∉ keys es) (v : ν) : erase k (es ++ [(k, v)]) = es := by
  have hlast : erase k [(k, v)] = [] := by simp [erase]
  have hsplit : erase k (es ++ [(k, v)]) = erase k es ++ erase k [(k, v)] := List.filter_append es [(k, v)]
  rw [hsplit, erase_of_not_mem h, hlast, List.append_nil]

end Lawful

end SchemaForge.Entries

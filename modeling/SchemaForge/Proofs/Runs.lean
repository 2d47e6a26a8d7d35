/-
Runs that end in a value or in an error. A run of two parts gives a value when the first part gives one and the second
gives the value from it (`bind_eq_ok`); what every step of a fold keeps, the fold keeps (`of_foldlM_eq_ok`).
-/

namespace SchemaForge.Runs

variable {ε α β : Type}

theorem bind_eq_ok {x : Except ε α} {f : α → Except ε β} {b : β} :
    (x >>= f) = .ok b ↔ ∃ a, x = .ok a ∧ f a = .ok b := by
  cases x with
  | error e =>
    refine ⟨fun h => ?_, fun hr => ?_⟩
    · cases h
    · obtain ⟨a, h, _⟩ := hr
      cases h
  | ok a =>
    refine ⟨fun h => ?_, fun hr => ?_⟩
    · exact ⟨a, rfl, h⟩
    · obtain ⟨_, ha, h⟩ := hr
      cases ha
      exact h

theorem pure_eq_ok {a b : α} : (pure a : Except ε α) = .ok b ↔ b = a := by
  refine ⟨fun h => ?_, fun h => ?_⟩
  · cases h
    rfl
  · obtain rfl := h
    rfl

theorem mem_of_mapM_eq_ok {f : α → Except ε β} {xs : List α} :
    ∀ {ys : List β}, xs.mapM f = .ok ys → ∀ y ∈ ys, ∃ x ∈ xs, f x = .ok y := by
  induction xs with
  | nil =>
    intro ys h y hy
    rw [List.mapM_nil, pure_eq_ok] at h
    rw [h] at hy
    cases hy
  | cons x xs ih =>
    intro ys h y hy
    rw [List.mapM_cons, bind_eq_ok] at h
    obtain ⟨z, hz, h⟩ := h
    obtain ⟨zs, hzs, h⟩ := bind_eq_ok.mp h
    rw [pure_eq_ok] at h
    rw [h] at hy
    rcases List.mem_cons.mp hy with rfl | hy
    · exact ⟨x, List.mem_cons_self .., hz⟩
    · obtain ⟨x', hx', hfx'⟩ := ih hzs y hy
      exact ⟨x', List.mem_cons_of_mem _ hx', hfx'⟩

theorem exists_mapM_eq_ok {f : α → Except ε β} {xs : List α} (h : ∀ x ∈ xs, ∃ y, f x = .ok y) :
    ∃ ys, xs.mapM f = .ok ys := by
  induction xs with
  | nil => exact ⟨[], by rw [List.mapM_nil, pure_eq_ok]⟩
  | cons x xs ih =>
    obtain ⟨y, hy⟩ := h x (List.mem_cons_self ..)
    obtain ⟨ys, hys⟩ := ih (fun x' hx' => h x' (List.mem_cons_of_mem _ hx'))
    exact ⟨y :: ys, by rw [List.mapM_cons, hy, hys]; rfl⟩

/-- What each result has in common with what it is made from, the lists of them have. -/
theorem map_eq_map_of_mapM {γ : Type} {f : α → Except ε β} {g : β → γ} {g' : α → γ} {xs : List α}
    (h : ∀ x ∈ xs, ∀ y, f x = .ok y → g y = g' x) : ∀ {ys : List β}, xs.mapM f = .ok ys → ys.map g = xs.map g' := by
  induction xs with
  | nil =>
    intro ys hys
    rw [List.mapM_nil, pure_eq_ok] at hys
    rw [hys]
    rfl
  | cons x xs ih =>
    intro ys hys
    simp only [List.mapM_cons, bind_eq_ok, pure_eq_ok] at hys
    obtain ⟨y, hy, rest, hrest, rfl⟩ := hys
    rw [List.map_cons, List.map_cons, h x (List.mem_cons_self ..) y hy,
      ih (fun x' hx' => h x' (List.mem_cons_of_mem _ hx')) hrest]

theorem mapM_eq_ok_map {f : α → Except ε β} {g : α → β} {xs : List α} (h : ∀ x ∈ xs, f x = .ok (g x)) :
    xs.mapM f = .ok (xs.map g) := by
  induction xs with
  | nil => rfl
  | cons x xs ih =>
    rw [List.mapM_cons, h x (List.mem_cons_self ..), ih fun y hy => h y (List.mem_cons_of_mem _ hy)]
    rfl

/-- If what is made of each element is read as that element, what is made of a list is read as the list. -/
theorem mapM_map_eq_ok {f : β → Except ε α} {g : α → β} {xs : List α} (h : ∀ x ∈ xs, f (g x) = .ok x) :
    (xs.map g).mapM f = .ok xs := by
  have hsame : xs.mapM (f ∘ g) = .ok (xs.map id) := mapM_eq_ok_map h
  rw [List.mapM_map, hsame, List.map_id]

theorem foldlM_eq_ok_foldl {f : β → α → Except ε β} {g : β → α → β} {xs : List α}
    (h : ∀ b, ∀ x ∈ xs, f b x = .ok (g b x)) (b : β) : xs.foldlM f b = .ok (xs.foldl g b) := by
  induction xs generalizing b with
  | nil => rfl
  | cons x xs ih =>
    rw [List.foldlM_cons, h b x (List.mem_cons_self ..)]
    exact ih (fun b y hy => h b y (List.mem_cons_of_mem _ hy)) (g b x)

/-- What every step keeps, the whole fold keeps. -/
theorem of_foldlM_eq_ok {f : β → α → Except ε β} {P : β → Prop} {xs : List α}
    (step : ∀ b, ∀ x ∈ xs, ∀ b', P b → f b x = .ok b' → P b') :
    ∀ {b b' : β}, P b → xs.foldlM f b = .ok b' → P b' := by
  induction xs with
  | nil =>
    intro b b' hb h
    rw [List.foldlM_nil, pure_eq_ok] at h
    rwa [h]
  | cons x xs ih =>
    intro b b' hb h
    rw [List.foldlM_cons, bind_eq_ok] at h
    obtain ⟨c, hc, h⟩ := h
    exact ih (fun d y hy => step d y (List.mem_cons_of_mem _ hy)) (step b x (List.mem_cons_self ..) c hb hc) h

end SchemaForge.Runs

import SchemaForge.Proofs.Builder.Keys

/-
What a builder's plan is, for any fields and any keys. Making one fails exactly when the chain would have two items of
one key or an item of a reserved one (`Collides`). A plan that is made serves its items (`Plan.Serves`): nothing is
lost, doubled or moved when they are parted into the chain, the setters and the identity.

`serves_ofSteps` is about the parting and the chain, which do not look at keys; `checkKeys_chained` is about the keys.
Where keys are values that may fail to be usable as keys, `planBuilderValues_eq` says that usable ones make no
difference.
-/

namespace SchemaForge.Builder

variable {α κ : Type} [BEq κ] {field : α → Field} {key : α → κ} {reserved : List κ} {items : List α}

/-- The item is set on the way to the terminal step. -/
def OnChain (field : α → Field) (x : α) : Prop := (field x).required = true ∧ (field x).isIdentity = false

/-- Two items of the chain have one key, the later one compared with the earlier, or one has a reserved key. -/
def Collides (field : α → Field) (key : α → κ) (reserved : List κ) (items : List α) : Prop :=
  (∃ x y, [x, y].Sublist items ∧ OnChain field x ∧ OnChain field y ∧ (key y == key x) = true) ∨
    ∃ x ∈ items, OnChain field x ∧ reserved.contains (key x) = true

structure Plan.Serves (field : α → Field) (items : List α) (p : Plan α) : Prop where
  /-- Every item that is not named as the identity has one place, and no other item has any. -/
  places : (p.steps.map (·.item) ++ p.optional).Perm (items.filter (fun x => !(field x).isIdentity))
  required : ∀ c ∈ p.steps, (field c.item).nullable = false
  nullable : ∀ x ∈ p.optional, (field x).nullable = true
  stepOrder : (p.steps.map (·.item)).Sublist items
  optionalOrder : p.optional.Sublist items
  successor : ∀ (i : Nat) (h : i < p.steps.length), p.steps[i].next = p.steps[i + 1]?.map (·.item)
  last : ∀ (i : Nat) (h : i < p.steps.length), p.steps[i].isLast = true ↔ i + 1 = p.steps.length
  /-- The first item named as the identity is it, if there is one. -/
  identity : match p.identity with
    | none => ∀ x ∈ items, (field x).isIdentity = false
    | some x => ∃ before after, items = before ++ x :: after ∧ (field x).isIdentity = true ∧
        ∀ y ∈ before, (field y).isIdentity = false
  slots : p.slots = items

/-! ## The chain -/

theorem length_contracts (xs : List α) : (contracts xs).length = xs.length := by
  rw [← List.length_map (f := (·.item)), map_item_contracts]

theorem getElem_contracts (xs : List α) (i : Nat) (h : i < (contracts xs).length) :
    (contracts xs)[i] = ⟨xs.get ⟨i, length_contracts xs ▸ h⟩, xs[i + 1]?⟩ := by
  induction xs generalizing i with
  | nil => cases h
  | cons x xs ih =>
    simp only [contracts_cons]
    cases i with
    | zero => simp [List.head?_eq_getElem?]
    | succ i => simpa using ih i (by simpa [contracts_cons] using h)

theorem chain_of_contracts (xs : List α) (i : Nat) (h : i < (contracts xs).length) :
    (contracts xs)[i].next = (contracts xs)[i + 1]?.map (·.item) ∧
      ((contracts xs)[i].isLast = true ↔ i + 1 = (contracts xs).length) := by
  have items : ∀ j : Nat, (contracts xs)[j]?.map Contract.item = xs[j]? := fun j => by
    rw [← List.getElem?_map, map_item_contracts]
  have hlen := length_contracts xs
  rw [items, getElem_contracts]
  refine ⟨rfl, ?_⟩
  show xs[i + 1]?.isNone = true ↔ _
  rw [Option.isNone_iff_eq_none, List.getElem?_eq_none_iff, hlen]
  omega

/-! ## The parting -/

theorem serves_ofSteps (field : α → Field) (items : List α) :
    (Plan.ofSteps field items (contracts (chained field items))).Serves field items where
  places := by
    have hsplit := List.filter_append_perm (fun x => (field x).required)
      (items.filter (fun x => !(field x).isIdentity))
    simp only [List.filter_filter] at hsplit
    simpa only [Plan.ofSteps, map_item_contracts, chained] using hsplit
  required := by
    intro c hc
    have hitem : c.item ∈ chained field items := by
      rw [← map_item_contracts (chained field items)]
      exact List.mem_map_of_mem hc
    have := (List.mem_filter.mp hitem).2
    simp only [Field.required, Bool.and_eq_true, Bool.not_eq_true'] at this
    exact this.1
  nullable := by
    intro x hx
    have := (List.mem_filter.mp hx).2
    simp only [Field.required, Bool.not_not, Bool.and_eq_true] at this
    exact this.1
  stepOrder := by
    simp only [Plan.ofSteps, map_item_contracts]
    exact List.filter_sublist
  optionalOrder := List.filter_sublist
  successor := fun i h => (chain_of_contracts _ i h).1
  last := fun i h => (chain_of_contracts _ i h).2
  identity := by
    show match items.find? (fun x => (field x).isIdentity) with
      | none => _
      | some x => _
    split
    · rename_i hnone
      simpa using hnone
    · rename_i x hfound
      obtain ⟨hx, before, after, hitems, hbefore⟩ := List.find?_eq_some_iff_append.mp hfound
      exact ⟨before, after, hitems, hx, fun y hy => by simpa using hbefore y hy⟩
  slots := rfl

/-! ## The keys -/

theorem mem_chained {x : α} : x ∈ chained field items ↔ x ∈ items ∧ OnChain field x := by
  simp [chained, OnChain]

theorem pair_sublist_chained {x y : α} :
    [x, y].Sublist (chained field items) ↔ [x, y].Sublist items ∧ OnChain field x ∧ OnChain field y := by
  refine ⟨fun h => ?_, fun h => ?_⟩
  · have hx : x ∈ chained field items := h.subset (by simp)
    have hy : y ∈ chained field items := h.subset (by simp)
    exact ⟨h.trans List.filter_sublist, (mem_chained.mp hx).2, (mem_chained.mp hy).2⟩
  · obtain ⟨hpair, ⟨hx, hxid⟩, hy, hyid⟩ := h
    have := hpair.filter (fun x => (field x).required && !(field x).isIdentity)
    simpa [chained, hx, hxid, hy, hyid] using this

/-- The keys of a chain pass exactly when nothing collides. -/
theorem checkKeys_chained :
    checkKeys reserved [] ((chained field items).map key) = .ok () ↔ ¬ Collides field key reserved items := by
  rw [checkKeys_eq_ok, List.pairwise_map, List.pairwise_iff_forall_sublist]
  refine ⟨fun hchecked hcollides => ?_, fun hfree => ⟨fun k hk => ?_, fun hpair => ?_⟩⟩
  · obtain ⟨hreserved, hpairs⟩ := hchecked
    rcases hcollides with ⟨x, y, hpair, hx, hy, hkey⟩ | ⟨x, hx, hchain, hkey⟩
    · rw [hpairs (pair_sublist_chained.mpr ⟨hpair, hx, hy⟩)] at hkey
      cases hkey
    · rw [(hreserved _ (List.mem_map_of_mem (mem_chained.mpr ⟨hx, hchain⟩))).1] at hkey
      cases hkey
  · obtain ⟨x, hx, rfl⟩ := List.mem_map.mp hk
    obtain ⟨hx, hchain⟩ := mem_chained.mp hx
    exact ⟨Bool.eq_false_iff.mpr fun hkey => hfree (Or.inr ⟨x, hx, hchain, hkey⟩), rfl⟩
  · obtain ⟨hpair, hx, hy⟩ := pair_sublist_chained.mp hpair
    exact Bool.eq_false_iff.mpr fun hkey => hfree (Or.inl ⟨_, _, hpair, hx, hy, hkey⟩)

/-! ## Keys that are values -/

theorem usableKeys_eq {valueKey : α → Except Fault Json} {key : α → Json} {reserved : List Json} {xs : List α}
    (h : ∀ x ∈ xs, valueKey x = .ok (key x) ∧ (key x).isScalar = true) :
    usableKeys valueKey reserved xs = (xs.map key, none) := by
  induction xs with
  | nil => rfl
  | cons x xs ih =>
    obtain ⟨hkey, hscalar⟩ := h x (List.mem_cons_self ..)
    simp only [usableKeys, hkey, hscalar, if_true, ih fun y hy => h y (List.mem_cons_of_mem _ hy), List.map_cons]

/-- Where every item of the chain has a key that can be used, planning by values is planning by those keys. -/
theorem planBuilderValues_eq {valueKey : α → Except Fault Json} {key : α → Json} {reserved : List Json}
    (h : ∀ x ∈ chained field items, valueKey x = .ok (key x) ∧ (key x).isScalar = true) :
    planBuilderValues field valueKey reserved items =
      (planBuilder field key reserved items).mapError ValueChainError.chain := by
  unfold planBuilderValues planValues
  rw [usableKeys_eq h, planBuilder_eq]
  cases hkeys : checkKeys reserved [] ((chained field items).map key) <;> simp only [hkeys] <;> rfl

/-- Whatever the fields, their keys, the equality of keys and the reserved ones are, a plan is refused exactly when two
    items of the chain collide with each other or one with a reserved key, and otherwise it serves every field. -/
theorem plan_of_items (field : α → Field) (key : α → κ) (reserved : List κ) (items : List α) :
    match planBuilder field key reserved items with
    | .error _ => Collides field key reserved items
    | .ok p => ¬ Collides field key reserved items ∧ p.Serves field items := by
  rw [planBuilder_eq]
  cases hkeys : checkKeys reserved [] ((chained field items).map key) with
  | ok => exact ⟨checkKeys_chained.mp hkeys, serves_ofSteps field items⟩
  | error e =>
    show Collides field key reserved items
    refine Classical.byContradiction fun hfree => ?_
    rw [checkKeys_chained.mpr hfree] at hkeys
    cases hkeys

end SchemaForge.Builder

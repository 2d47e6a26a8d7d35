import SchemaForge.Builder.Plan

/-
When keys make a chain. `checkKeys_eq_ok`: exactly when none is reserved and none equals one before it, whatever
equality they are compared by; where that is equality proper, the keys are pairwise different (`checkKeys_eq_ok_iff`).
`contracts_cons`: a chain is its first item, leading to the next one if there is one, and then the chain of the rest.
`planBuilder_eq`: keys decide whether there is a plan, and nothing else about it. So the plan of other items that have
the same keys and the same parts to play is the same plan with these items in it (`planBuilder_map`).
-/

namespace SchemaForge.Builder

variable {κ : Type} [BEq κ]

theorem checkKeys_eq_ok {reserved seen ks : List κ} :
    checkKeys reserved seen ks = .ok () ↔
      (∀ k ∈ ks, reserved.contains k = false ∧ seen.contains k = false) ∧ ks.Pairwise (fun a b => (b == a) = false) := by
  induction ks generalizing seen with
  | nil => simp [checkKeys]
  | cons k ks ih =>
    unfold checkKeys
    cases hr : reserved.contains k with
    | true => simp [hr]
    | false =>
      cases hs : seen.contains k with
      | true => simp [hr, hs]
      | false =>
        simp only [Bool.false_eq_true, if_false, ih, List.contains_cons, Bool.or_eq_false_iff, List.mem_cons,
          forall_eq_or_imp, hr, hs, List.pairwise_cons, true_and, and_true]
        refine ⟨fun h => ?_, fun h => ?_⟩
        · obtain ⟨hall, hpairs⟩ := h
          exact ⟨fun x hx => ⟨(hall x hx).1, (hall x hx).2.2⟩, fun x hx => (hall x hx).2.1, hpairs⟩
        · obtain ⟨hall, hfirst, hpairs⟩ := h
          exact ⟨fun x hx => ⟨(hall x hx).1, hfirst x hx, (hall x hx).2⟩, hpairs⟩

theorem checkKeys_eq_ok_iff [LawfulBEq κ] {reserved seen ks : List κ} :
    checkKeys reserved seen ks = .ok () ↔ (∀ k ∈ ks, k ∉ reserved ∧ k ∉ seen) ∧ ks.Nodup := by
  have hcontains : ∀ (xs : List κ) (k : κ), xs.contains k = false ↔ k ∉ xs := fun xs k => by
    rw [← List.contains_iff_mem, Bool.not_eq_true]
  have hpairs : ks.Pairwise (fun a b => (b == a) = false) ↔ ks.Nodup :=
    ⟨List.Pairwise.imp fun h => (beq_eq_false_iff_ne.mp h).symm, List.Pairwise.imp fun h => beq_eq_false_iff_ne.mpr h.symm⟩
  simp only [checkKeys_eq_ok, hcontains, hpairs]

theorem contracts_cons {α : Type} (x : α) (xs : List α) : contracts (x :: xs) = ⟨x, xs.head?⟩ :: contracts xs := by
  cases xs <;> rfl

theorem planBuilder_eq {α : Type} (field : α → Field) (key : α → κ) (reserved : List κ) (items : List α) :
    planBuilder field key reserved items =
      (checkKeys reserved [] ((chained field items).map key)).map
        (fun _ => Plan.ofSteps field items (contracts (chained field items))) := by
  unfold planBuilder planChain
  cases checkKeys reserved [] ((chained field items).map key) <;> rfl

theorem planBuilder_eq_ok {α : Type} {field : α → Field} {key : α → κ} {reserved : List κ} {items : List α}
    {plan : Plan α} (h : planBuilder field key reserved items = .ok plan) :
    checkKeys reserved [] ((chained field items).map key) = .ok () ∧
      plan = Plan.ofSteps field items (contracts (chained field items)) := by
  rw [planBuilder_eq] at h
  cases hkeys : checkKeys reserved [] ((chained field items).map key) with
  | error e =>
    rw [hkeys] at h
    cases h
  | ok =>
    rw [hkeys] at h
    exact ⟨rfl, (Except.ok.inj h).symm⟩

/-! ## Other items of the same plan -/

section Map

variable {α β : Type}

def Contract.map (v : α → β) (c : Contract α) : Contract β := { item := v c.item, next := c.next.map v }

def Plan.map (v : α → β) (p : Plan α) : Plan β :=
  { steps := p.steps.map (Contract.map v)
    identity := p.identity.map v
    optional := p.optional.map v
    slots := p.slots.map v }

theorem contracts_map (v : α → β) (xs : List α) : contracts (xs.map v) = (contracts xs).map (Contract.map v) := by
  induction xs with
  | nil => rfl
  | cons x xs ih =>
    rw [List.map_cons, contracts_cons, contracts_cons, ih, List.map_cons, List.head?_map]
    rfl

theorem planBuilder_map {field : α → Field} {field' : β → Field} {key : α → κ} {key' : β → κ} {v : α → β}
    (hrequired : ∀ x, (field' (v x)).required = (field x).required)
    (hidentity : ∀ x, (field' (v x)).isIdentity = (field x).isIdentity) (hkey : ∀ x, key' (v x) = key x)
    (reserved : List κ) (items : List α) :
    planBuilder field' key' reserved (items.map v) = (planBuilder field key reserved items).map (Plan.map v) := by
  have hchained : chained field' (items.map v) = (chained field items).map v := by
    unfold chained
    rw [List.filter_map]
    refine congrArg (List.map v) (List.filter_congr fun x _ => ?_)
    simp only [Function.comp, hrequired, hidentity]
  have hkeys : ((chained field items).map v).map key' = (chained field items).map key := by
    rw [List.map_map]
    exact List.map_congr_left fun x _ => hkey x
  have hplan : Plan.ofSteps field' (items.map v) (contracts ((chained field items).map v)) =
      (Plan.ofSteps field items (contracts (chained field items))).map v := by
    unfold Plan.ofSteps Plan.map
    rw [contracts_map, List.find?_map, List.filter_map]
    simp only [Function.comp_def, hrequired, hidentity]
  rw [planBuilder_eq, planBuilder_eq, hchained, hkeys, hplan]
  cases checkKeys reserved [] ((chained field items).map key) <;> rfl

end Map

end SchemaForge.Builder

import Mathlib.Data.List.Nodup
import Mathlib.Data.List.TakeWhile
import SchemaForge.Proofs.Builder.Plans

/-
Walks along a chain of values. A contract names the item that comes next, and the terminal step is next when it names
none. A null cannot be told from none there (`leadsNowhere_iff`). So the contract before a null item is taken for the
last one, and a walk from the first contract ends there, whatever comes after (`visits_iff`).

Keys that pass the check are different, so the items are (`planValues_eq_ok`), and an item is found under one contract
only. What a chain does therefore depends on the items alone, and it does what it should exactly if no item after the
first is null (`walks_of_planValues`).
-/

namespace SchemaForge

theorem Json.beq_self_of_isScalar {v : Json} (h : v.isScalar = true) : (v == v) = true := by
  show Json.same v v = true
  cases v with
  | float x =>
    simp only [Json.same, Json.numeric?]
    cases x.toInt? <;> simp [Json.Numeric.same, Binary64.same]
  | arr xs => cases h
  | obj ms => cases h
  | _ => simp [Json.same, Json.numeric?, Json.Numeric.same]

namespace Builder

/-! ## Planning by values -/

section Planning

variable {α : Type} {key : α → Except Fault Json} {reserved : List Json} {xs : List α}

theorem exists_key_of_usableKeys {ks : List Json} (h : usableKeys key reserved xs = (ks, none)) :
    ∀ x ∈ xs, ∃ k, key x = .ok k ∧ k.isScalar = true := by
  induction xs generalizing ks with
  | nil => simp
  | cons x xs ih =>
    unfold usableKeys at h
    split at h
    · cases h
    · rename_i k hk
      split at h
      · rename_i hscalar
        cases hrest : usableKeys key reserved xs with
        | mk rest stop =>
          rw [hrest] at h
          cases h
          exact List.forall_mem_cons.mpr ⟨⟨k, hk, hscalar⟩, ih hrest⟩
      · split at h <;> cases h

/-- Keys that equal themselves and not each other belong to different items. -/
theorem nodup_of_checkKeys {key : α → Json} (hscalar : ∀ x ∈ xs, (key x).isScalar = true)
    (h : checkKeys reserved [] (xs.map key) = .ok ()) : xs.Nodup := by
  obtain ⟨-, hpairs⟩ := checkKeys_eq_ok.mp h
  refine (List.pairwise_map.mp hpairs).imp_of_mem fun hx _ hne heq => ?_
  rw [heq, Json.beq_self_of_isScalar (heq ▸ hscalar _ hx)] at hne
  cases hne

theorem planValues_eq_ok {cs : List (Contract α)} (h : planValues key reserved xs = .ok cs) :
    cs = contracts xs ∧ xs.Nodup := by
  unfold planValues at h
  cases hkeys : usableKeys key reserved xs with
  | mk ks stop =>
    rw [hkeys] at h
    simp only at h
    split at h
    · cases h
    · cases h
    · rename_i hchecked
      refine ⟨(Except.ok.inj h).symm, ?_⟩
      have husable := exists_key_of_usableKeys hkeys
      choose! keyOf hkey using husable
      rw [usableKeys_eq hkey] at hkeys
      cases hkeys
      exact nodup_of_checkKeys (fun x hx => (hkey x hx).2) hchecked

end Planning

/-! ## Walking -/

theorem leadsNowhere_iff {c : Contract Json} : c.leadsNowhere = true ↔ c.next.getD .null = .null := by
  unfold Contract.leadsNowhere
  cases c.next with
  | none => simp
  | some v => cases v <;> simp

/-- The items met on a walk along the contracts. The walk ends with a contract that is taken for the last one, and goes
    on from any other to one of the item that comes next. -/
inductive Visits (cs : List (Contract Json)) : Contract Json → List Json → Prop
  | ends {c : Contract Json} : c.leadsNowhere = true → Visits cs c [c.item]
  | goes {c d : Contract Json} {path : List Json} : c.leadsNowhere = false → d ∈ cs → c.next = some d.item →
      Visits cs d path → Visits cs c (c.item :: path)

/-- A null is not told from no item. -/
def isThere : Json → Bool
  | .null => false
  | _ => true

theorem isThere_eq_false_iff {v : Json} : isThere v = false ↔ v = .null := by
  cases v <;> simp [isThere]

theorem takeWhile_isThere_eq_iff {xs : List Json} : xs.takeWhile isThere = xs ↔ .null ∉ xs := by
  rw [List.takeWhile_eq_self_iff]
  refine ⟨fun hall hnull => Bool.false_ne_true (hall _ hnull), fun hnull v hv => ?_⟩
  by_contra hv'
  exact hnull (isThere_eq_false_iff.mp (Bool.eq_false_iff.mpr hv') ▸ hv)

theorem mem_contracts {α : Type} (before : List α) (x : α) (xs : List α) :
    ⟨x, xs.head?⟩ ∈ contracts (before ++ x :: xs) := by
  induction before with
  | nil => simp [contracts_cons]
  | cons y before ih => exact List.cons_append ▸ contracts_cons y _ ▸ List.mem_cons_of_mem _ ih

theorem eq_of_mem_contracts {α : Type} {xs : List α} (h : xs.Nodup) {c d : Contract α} (hc : c ∈ contracts xs)
    (hd : d ∈ contracts xs) (hitem : c.item = d.item) : c = d := by
  rw [← map_item_contracts xs] at h
  exact List.inj_on_of_nodup_map h hc hd hitem

theorem visits_of_leadsNowhere {cs : List (Contract Json)} {c : Contract Json} {path : List Json}
    (h : c.leadsNowhere = true) : Visits cs c path ↔ path = [c.item] := by
  refine ⟨fun hvisits => ?_, fun hpath => hpath ▸ .ends h⟩
  cases hvisits with
  | ends _ => rfl
  | goes hgoes => exact absurd h (Bool.eq_false_iff.mp hgoes)

/-- From any item on, a walk goes as far as the next null. -/
theorem visits_iff {before xs path : List Json} {x : Json} (h : (before ++ x :: xs).Nodup) :
    Visits (contracts (before ++ x :: xs)) ⟨x, xs.head?⟩ path ↔ path = x :: xs.takeWhile isThere := by
  induction xs generalizing before x path with
  | nil => exact visits_of_leadsNowhere rfl
  | cons y ys ih =>
    cases hy : isThere y with
    | false =>
      obtain rfl := isThere_eq_false_iff.mp hy
      exact visits_of_leadsNowhere rfl
    | true =>
      have hgoes : (⟨x, (y :: ys).head?⟩ : Contract Json).leadsNowhere = false := by
        rw [Bool.eq_false_iff, Ne, leadsNowhere_iff]
        exact fun hnull => Bool.eq_false_iff.mp (isThere_eq_false_iff.mpr hnull) hy
      have hsplit : before ++ x :: y :: ys = (before ++ [x]) ++ y :: ys := by simp
      have hnext : ⟨y, ys.head?⟩ ∈ contracts (before ++ x :: y :: ys) := hsplit ▸ mem_contracts _ y ys
      have hrest : ∀ path, Visits (contracts (before ++ x :: y :: ys)) ⟨y, ys.head?⟩ path ↔
          path = y :: ys.takeWhile isThere := fun path => hsplit ▸ ih (hsplit ▸ h)
      rw [List.takeWhile_cons_of_pos hy]
      refine ⟨fun hvisits => ?_, fun hpath => hpath ▸ .goes hgoes hnext rfl ((hrest _).mpr rfl)⟩
      cases hvisits with
      | ends hends => exact absurd hends (Bool.eq_false_iff.mp hgoes)
      | goes _ hd hitem hpath =>
        obtain rfl := eq_of_mem_contracts h hnext hd (Option.some.inj hitem)
        rw [(hrest _).mp hpath]

/-! ## The law of a chain -/

/-- Just the final contract is taken for the last one. -/
def EndsAtLast (cs : List (Contract Json)) : Prop :=
  ∀ (i : Nat) (h : i < cs.length), cs[i].leadsNowhere = true ↔ i + 1 = cs.length

theorem leadsNowhere_contracts (items : List Json) (i : Nat) (h : i < (contracts items).length) :
    (contracts items)[i].leadsNowhere = true ↔ i + 1 = (contracts items).length ∨ items[i + 1]? = some .null := by
  have hlength := length_contracts items
  rw [leadsNowhere_iff, getElem_contracts]
  cases hnext : items[i + 1]? with
  | none =>
    have := List.getElem?_eq_none_iff.mp hnext
    exact iff_of_true rfl (Or.inl (by omega))
  | some v =>
    obtain ⟨hi, -⟩ := List.getElem?_eq_some_iff.mp hnext
    rw [Option.getD_some, or_iff_right (by omega), Option.some_inj]

theorem endsAtLast_contracts_iff {items : List Json} : EndsAtLast (contracts items) ↔ .null ∉ items.tail := by
  have hlength := length_contracts items
  refine ⟨fun hends hnull => ?_, fun hnull i hi => ?_⟩
  · obtain ⟨i, hi⟩ := List.mem_iff_getElem?.mp hnull
    rw [List.getElem?_tail] at hi
    obtain ⟨hlt, -⟩ := List.getElem?_eq_some_iff.mp hi
    have hlast := (hends i (by omega)).mp ((leadsNowhere_contracts items i (by omega)).mpr (Or.inr hi))
    omega
  · rw [leadsNowhere_contracts items i hi, or_iff_left]
    rw [← List.getElem?_tail]
    exact fun hi => hnull (List.mem_of_getElem? hi)

/-- In a chain of values the contracts hold the items in order, each but the final one names the item that follows, and a
    contract is taken for the last one if it is final or the item that follows is null. So a walk from the first contract
    visits the items in order up to the first null after it. Just the final contract is taken for the last one, and the
    walk visits all items, exactly if no item after the first is null. -/
theorem walks_of_planValues {key : Json → Except Fault Json} {reserved items : List Json} {cs : List (Contract Json)}
    (h : planValues key reserved items = .ok cs) :
    cs.map (·.item) = items ∧
      (∀ (i : Nat) (hi : i < cs.length), cs[i].next = items[i + 1]? ∧
        (cs[i].leadsNowhere = true ↔ i + 1 = cs.length ∨ items[i + 1]? = some .null)) ∧
      (EndsAtLast cs ↔ .null ∉ items.tail) ∧
      ∀ first ∈ cs.head?,
        (∀ path, Visits cs first path ↔ path = first.item :: items.tail.takeWhile isThere) ∧
          (Visits cs first items ↔ .null ∉ items.tail) := by
  obtain ⟨rfl, hnodup⟩ := planValues_eq_ok h
  refine ⟨map_item_contracts items, fun i hi => ⟨?_, leadsNowhere_contracts items i hi⟩, endsAtLast_contracts_iff,
    fun first hfirst => ?_⟩
  · rw [getElem_contracts]
  · cases items with
    | nil => cases hfirst
    | cons x xs =>
      rw [contracts_cons] at hfirst
      obtain rfl := Option.some.inj hfirst
      have hvisits : ∀ path, Visits (contracts (x :: xs)) ⟨x, xs.head?⟩ path ↔ path = x :: xs.takeWhile isThere :=
        fun path => visits_iff (show ([] ++ x :: xs).Nodup from hnodup)
      refine ⟨hvisits, ?_⟩
      rw [hvisits, List.cons.injEq, and_iff_right rfl, eq_comm]
      exact takeWhile_isThere_eq_iff

/-- A null between two items is taken for the end. -/
theorem null_step_cuts_the_chain :
    ∃ cs first, planValues Except.ok [.str "build"] [.str "title", .null, .str "rating"] = .ok cs ∧
      cs.map (·.item) = [.str "title", .null, .str "rating"] ∧ first ∈ cs.head? ∧ ¬ EndsAtLast cs ∧
      (∀ path, Visits cs first path ↔ path = [.str "title"]) := by
  have h : planValues Except.ok [.str "build"] [.str "title", .null, .str "rating"] =
      .ok (contracts [.str "title", .null, .str "rating"]) := by rfl
  obtain ⟨hitems, -, hends, hwalks⟩ := walks_of_planValues h
  obtain ⟨hvisits, -⟩ := hwalks _ rfl
  exact ⟨_, _, h, hitems, rfl, fun hlaw => hends.mp hlaw (by simp), hvisits⟩

end Builder

end SchemaForge

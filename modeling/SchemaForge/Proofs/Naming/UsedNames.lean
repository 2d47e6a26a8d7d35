import Mathlib.Data.List.Nodup
import Mathlib.Data.List.Perm.Subperm
import SchemaForge.Proofs.Naming.Histories

/-
What an allocator keeps, whatever is called on it. Its used names are the answers it remembers, and each of them is
remembered for one request text (`Coherent`). Every call keeps this, so it holds after any history (`coherent_after`).

A request that is not remembered is answered with the first of its names that is not used (`FirstFree`). The search for
it has no bound of its own. It ends because the names of a request are all different, whatever its suffix is, so at most
as many of them are passed over as there are used names (`le_length_of_forall_mem`).
-/

namespace SchemaForge.Naming.Allocator

variable {r : Rules} {a : Allocator} {q : Request}

/-! ## The search -/

theorem le_length_of_forall_mem {used : List String} {base suffix : String} {k : Nat}
    (h : ∀ i < k, nthName base suffix i ∈ used) : k ≤ used.length := by
  have hnodup : ((List.range k).map (nthName base suffix)).Nodup := List.nodup_range.map fun _ _ => nthName_inj
  have hused : (List.range k).map (nthName base suffix) ⊆ used := by
    intro x hx
    obtain ⟨i, hi, rfl⟩ := List.mem_map.mp hx
    exact h i (List.mem_range.mp hi)
  simpa using (List.subperm_of_subset hnodup hused).length_le

/-- The text is the first name of the request that is not used, and no more names are passed over than are used. -/
def FirstFree (r : Rules) (used : List String) (q : Request) (text : String) : Prop :=
  ∃ k ≤ used.length, text = q.nth r k ∧ q.nth r k ∉ used ∧ ∀ i < k, q.nth r i ∈ used

theorem firstFree_of_new (h : a.answered? q.key = none) : FirstFree r a.used q (a.answer r q) := by
  obtain ⟨⟨k, hnth, hpassed⟩, hunused, -⟩ := assign_of_new (r := r) h
  exact ⟨k, le_length_of_forall_mem hpassed, hnth, hnth ▸ hunused, hpassed⟩

/-! ## The invariant -/

structure Coherent (a : Allocator) : Prop where
  keys : (Entries.keys a.assigned).Nodup
  /-- No name is remembered for two texts. -/
  answers : (Entries.values a.assigned).Nodup
  used : ∀ x, x ∈ a.used ↔ x ∈ Entries.values a.assigned

theorem coherent_empty : Coherent {} where
  keys := List.nodup_nil
  answers := List.nodup_nil
  used := fun _ => Iff.rfl

theorem coherent_run (h : Coherent a) (call : Call) : Coherent (call.run r a) := by
  cases call with
  | convert q => exact h
  | reset => exact coherent_empty
  | assign q =>
    cases hq : a.answered? q.key with
    | some text =>
      rw [(assign_of_answered hq).2]
      exact h
    | none =>
      obtain ⟨-, hunused, hrun⟩ := assign_of_new (r := r) hq
      have hkey : q.key ∉ Entries.keys a.assigned := Entries.get?_eq_none_iff.mp hq
      have hanswer : a.answer r q ∉ Entries.values a.assigned := fun hx => hunused ((h.used _).mpr hx)
      rw [hrun, Entries.put_of_not_mem hkey]
      refine ⟨?_, ?_, fun x => ?_⟩
      · simpa [Entries.keys] using h.keys.concat hkey
      · simpa [Entries.values] using h.answers.concat hanswer
      · simp [Entries.values, h.used, or_comm]

theorem coherent_after (r : Rules) (calls : List Call) : Coherent (after r calls) :=
  List.foldlRecOn calls (Call.run r) coherent_empty fun _ h call _ => coherent_run h call

/-- After any calls, the used names are the answers that are remembered, no two texts have one answer, and the next
    request gets the answer that is remembered for its text or else the first of its names that is not used. -/
theorem coherent_and_first_free_after (r : Rules) (calls : List Call) :
    (after r calls).Coherent ∧ ∀ q : Request,
      match (after r calls).answered? q.key with
      | some text => (after r calls).answer r q = text
      | none => FirstFree r (after r calls).used q ((after r calls).answer r q) := by
  refine ⟨coherent_after r calls, fun q => ?_⟩
  cases hq : (after r calls).answered? q.key with
  | some text => exact (assign_of_answered hq).1
  | none => exact firstFree_of_new hq

end SchemaForge.Naming.Allocator

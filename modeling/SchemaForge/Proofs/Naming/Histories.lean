import SchemaForge.Proofs.Naming.Numbering

/-
An allocator in use. A history is a list of calls on one allocator: requests for names, conversions, which leave no
trace, and resets. `assign_of_answered` and `assign_of_new` say all that one request can do.

What is answered after a history is always a name of some request: its converted name, or that under a suffix and a
number (`answer_after`). Which request that is, its text decides (`Request.key`). It need not be the one that is being
answered: a name may end in what another request has as its style.
-/

namespace SchemaForge.Naming

structure Request where
  name : String
  style : Case
  suffix : String

namespace Request

/-- All that an allocator knows a request by. -/
def key (q : Request) : String := Allocator.requestKey q.name q.style q.suffix

/-- The names a request can be answered with, in the order in which they are tried. -/
def nth (r : Rules) (q : Request) (i : Nat) : String := nthName (r.convert q.name q.style q.suffix) q.suffix i

end Request

inductive Call
  | assign (q : Request)
  | convert (q : Request)
  | reset

def Call.run (r : Rules) (a : Allocator) : Call → Allocator
  | .assign q => (a.assign r q.name q.style q.suffix).2
  | .convert _ => a
  | .reset => a.reset

namespace Allocator

def answer (r : Rules) (a : Allocator) (q : Request) : String := (a.assign r q.name q.style q.suffix).1

def after (r : Rules) (calls : List Call) : Allocator := calls.foldl (Call.run r) {}

variable {r : Rules} {calls : List Call} {a : Allocator}

/-! ## One request -/

section Assign

variable {q : Request}

theorem assign_of_answered {text : String} (h : a.answered? q.key = some text) :
    a.answer r q = text ∧ (Call.assign q).run r a = a := by
  have h : a.answered? (requestKey q.name q.style q.suffix) = some text := h
  simp only [answer, Call.run, assign, h]
  exact ⟨trivial, trivial⟩

/-- A new answer is the first name of the request that is not used. -/
theorem assign_of_new (hnew : a.answered? q.key = none) :
    (∃ k, a.answer r q = q.nth r k ∧ ∀ i < k, q.nth r i ∈ a.used) ∧ a.answer r q ∉ a.used ∧
      (Call.assign q).run r a =
        { assigned := Entries.put q.key (a.answer r q) a.assigned, used := a.answer r q :: a.used } := by
  have hnew : a.answered? (requestKey q.name q.style q.suffix) = none := hnew
  have hanswer : a.answer r q = free a.used (r.convert q.name q.style q.suffix) q.suffix := by
    simp only [answer, assign, hnew]
  refine ⟨?_, ?_, ?_⟩
  · rw [hanswer]
    exact free_eq a.used (r.convert q.name q.style q.suffix) q.suffix
  · rw [hanswer]
    exact free_not_mem a.used (r.convert q.name q.style q.suffix) q.suffix
  · rw [hanswer]
    simp only [Call.run, assign, hnew]
    rfl

/-- A request is remembered by its text, and what was remembered for other texts stays. -/
theorem answered?_assign (r : Rules) (a : Allocator) (q : Request) (key : String) :
    ((Call.assign q).run r a).answered? key = if key = q.key then some (a.answer r q) else a.answered? key := by
  cases hq : a.answered? q.key with
  | some text =>
    obtain ⟨hanswer, hsame⟩ := assign_of_answered (r := r) hq
    rw [hsame, hanswer]
    split
    · rename_i hkey
      rw [hkey, hq]
    · rfl
  | none =>
    obtain ⟨-, -, hrun⟩ := assign_of_new (r := r) hq
    rw [hrun]
    split
    · rename_i hkey
      rw [hkey]
      exact Entries.get?_put_self ..
    · rename_i hkey
      exact Entries.get?_put_of_ne hkey ..

end Assign

/-! ## Where answers come from -/

/-- Every answer that is kept is a name of a request of its text. -/
def Explained (r : Rules) (calls : List Call) (a : Allocator) : Prop :=
  ∀ key answer, a.answered? key = some answer → ∃ q i, .assign q ∈ calls ∧ q.key = key ∧ answer = q.nth r i

/-- Then a request is answered with a name of its own or of an earlier request with the same text. -/
theorem answer_of_explained (h : Explained r calls a) (q : Request) :
    ∃ q' i, (q' = q ∨ .assign q' ∈ calls) ∧ q'.key = q.key ∧ a.answer r q = q'.nth r i := by
  cases hq : a.answered? q.key with
  | some text =>
    obtain ⟨q', i, hq', hkey, hnth⟩ := h q.key text hq
    exact ⟨q', i, Or.inr hq', hkey, (assign_of_answered hq).1.trans hnth⟩
  | none =>
    obtain ⟨⟨k, hnth, -⟩, -⟩ := assign_of_new (r := r) hq
    exact ⟨q, k, Or.inl rfl, rfl, hnth⟩

theorem explained_run (h : Explained r calls a) {call : Call} (hcall : call ∈ calls) :
    Explained r calls (call.run r a) := by
  cases call with
  | convert q => exact h
  | reset =>
    intro key text hanswer
    cases hanswer
  | assign q =>
    intro key text hanswer
    rw [answered?_assign] at hanswer
    split at hanswer
    · rename_i hkey
      obtain rfl := Option.some.inj hanswer
      obtain ⟨q', i, hq', hsame, hnth⟩ := answer_of_explained h q
      refine ⟨q', i, ?_, hsame.trans hkey.symm, hnth⟩
      rcases hq' with rfl | hq'
      · exact hcall
      · exact hq'
    · exact h key text hanswer

theorem explained_after (r : Rules) (calls : List Call) : Explained r calls (after r calls) :=
  List.foldlRecOn calls (Call.run r) (fun _ _ hanswer => nomatch hanswer) fun _ h _ hcall => explained_run h hcall

/-- Whatever came before, an answer is a name of the request itself or of an earlier one with the same text. -/
theorem answer_after (r : Rules) (calls : List Call) (q : Request) :
    ∃ q' i, (q' = q ∨ .assign q' ∈ calls) ∧ q'.key = q.key ∧ (after r calls).answer r q = q'.nth r i :=
  answer_of_explained (explained_after r calls) q

end Allocator

end SchemaForge.Naming

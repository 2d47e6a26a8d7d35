import SchemaForge.Proofs.Naming.Histories

/-
Words that names have to avoid. A converted name that is forbidden gets the suffix and is not looked at again, also not
when a number makes it unique. So all depends on the suffix: a name of a request is its conversion, which was found to
be allowed, or has the suffix in it (`nth_cases`). With a suffix that no forbidden word has in it, all names of a
request are allowed (`forbids_nth`).

An allocator may answer with what it remembers of another request. So a run is followed by what is remembered: with such
suffixes every call keeps that allowed and returns an allowed name (`allowed_run`), and so does a run of any calls
(`forbids_of_returned`).
-/

namespace SchemaForge.Naming

/-- No forbidden word has the suffix in it. -/
def Rules.SafeSuffix (r : Rules) (suffix : String) : Prop :=
  ∀ word, r.forbids word = true → ¬ suffix.toList <:+: word.toList

/-- The request of a call that asks for a name. -/
def Call.request? : Call → Option Request
  | .assign q => some q
  | .convert q => some q
  | .reset => none

def Call.returned? (r : Rules) (a : Allocator) : Call → Option String
  | .assign q => some (a.answer r q)
  | .convert q => some (r.convert q.name q.style q.suffix)
  | .reset => none

variable {r : Rules} {q : Request}

theorem nth_cases (r : Rules) (q : Request) (i : Nat) :
    q.nth r i = styled q.style q.name ∧ r.forbids (styled q.style q.name) = false ∨
      q.suffix.toList <:+: (q.nth r i).toList := by
  cases i with
  | zero =>
    show r.convert q.name q.style q.suffix = _ ∧ _ ∨ _ <:+: (r.convert q.name q.style q.suffix).toList
    rw [convert_eq]
    split
    · refine Or.inr ?_
      rw [String.toList_append]
      exact (List.suffix_append ..).isInfix
    · rename_i hallowed
      exact Or.inl ⟨rfl, Bool.eq_false_iff.mpr hallowed⟩
  | succ i =>
    refine Or.inr ⟨(r.convert q.name q.style q.suffix).toList, (toString (i + 1)).toList, ?_⟩
    rw [Request.nth, nthName, Allocator.numbered, String.toList_append, String.toList_append]

theorem forbids_nth (h : r.SafeSuffix q.suffix) (i : Nat) : r.forbids (q.nth r i) = false := by
  rcases nth_cases r q i with ⟨hstyled, hallowed⟩ | hsuffix
  · rw [hstyled, hallowed]
  · exact Bool.eq_false_iff.mpr fun hforbidden => h _ hforbidden hsuffix

namespace Allocator

variable {a : Allocator}

/-- The names that calls return one after the other. -/
def returned (r : Rules) (a : Allocator) : List Call → List String
  | [] => []
  | call :: calls => (call.returned? r a).toList ++ returned r (call.run r a) calls

/-- No forbidden name is remembered. -/
def Allowed (r : Rules) (a : Allocator) : Prop := ∀ key text, a.answered? key = some text → r.forbids text = false

theorem allowed_empty (r : Rules) : Allowed r {} := fun _ _ h => nomatch h

theorem forbids_answer (h : Allowed r a) (hsafe : r.SafeSuffix q.suffix) : r.forbids (a.answer r q) = false := by
  cases hq : a.answered? q.key with
  | some text =>
    rw [(assign_of_answered hq).1]
    exact h q.key text hq
  | none =>
    obtain ⟨⟨k, hnth, -⟩, -⟩ := assign_of_new (r := r) hq
    rw [hnth]
    exact forbids_nth hsafe k

theorem allowed_run (h : Allowed r a) {call : Call}
    (hcall : ∀ q, call.request? = some q → r.SafeSuffix q.suffix) :
    Allowed r (call.run r a) ∧ ∀ n, call.returned? r a = some n → r.forbids n = false := by
  cases call with
  | reset => exact ⟨allowed_empty r, fun _ hn => nomatch hn⟩
  | convert q =>
    refine ⟨h, fun n hn => ?_⟩
    obtain rfl := Option.some.inj hn
    exact forbids_nth (hcall q rfl) 0
  | assign q =>
    have hanswer := forbids_answer h (hcall q rfl)
    refine ⟨fun key text hkept => ?_, fun n hn => ?_⟩
    · rw [answered?_assign] at hkept
      split at hkept
      · obtain rfl := Option.some.inj hkept
        exact hanswer
      · exact h key text hkept
    · obtain rfl := Option.some.inj hn
      exact hanswer

/-- With suffixes that occur in no forbidden word, no call of a run returns a forbidden name. -/
theorem forbids_of_returned {calls : List Call} (h : Allowed r a)
    (hcalls : ∀ call ∈ calls, ∀ q, call.request? = some q → r.SafeSuffix q.suffix) :
    ∀ n ∈ returned r a calls, r.forbids n = false := by
  induction calls generalizing a with
  | nil => exact fun _ hn => nomatch hn
  | cons call calls ih =>
    obtain ⟨hcall, hcalls⟩ := List.forall_mem_cons.mp hcalls
    obtain ⟨hkept, hreturned⟩ := allowed_run h hcall
    intro n hn
    rcases List.mem_append.mp hn with hn | hn
    · exact hreturned n (Option.mem_toList.mp hn)
    · exact ih hkept hcalls n hn

end Allocator

end SchemaForge.Naming

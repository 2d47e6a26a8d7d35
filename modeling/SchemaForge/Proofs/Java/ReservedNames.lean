import SchemaForge.Java.Names
import SchemaForge.Proofs.Naming.Avoidance

/-
The words a Java name must not be. None of them has an underscore in it, so a name with the suffix, or with the suffix
and a number, is none of them, whichever word it was moved away from (`safeSuffix_conflictSuffix`). With this suffix no
call of any run returns one of them (`allowed_of_returned`).
-/

namespace SchemaForge.Java

open Naming Naming.Allocator

theorem forbids_iff {n : String} : rules.forbids n = true ↔ n ∈ reservedWords ++ generatedNames := by
  simp [Rules.forbids, rules]

theorem safeSuffix_conflictSuffix : rules.SafeSuffix conflictSuffix := by
  have hplain : ∀ word ∈ reservedWords ++ generatedNames, '_' ∉ word.toList := by decide +kernel
  intro word hforbidden hsuffix
  exact hplain word (forbids_iff.mp hforbidden) (hsuffix.mem (by simp [conflictSuffix]))

/-- Names are asked for, converted and forgotten in any order, in any case, all with the suffix for conflicts. Then no
    name that is returned is a reserved word or a name that generated classes use. -/
theorem allowed_of_returned (calls : List Call)
    (hsuffix : ∀ call ∈ calls, ∀ q, call.request? = some q → q.suffix = conflictSuffix) :
    ∀ n ∈ returned rules {} calls, n ∉ reservedWords ∧ n ∉ generatedNames := by
  have hsafe : ∀ call ∈ calls, ∀ q, call.request? = some q → rules.SafeSuffix q.suffix := by
    intro call hcall q hq
    rw [hsuffix call hcall q hq]
    exact safeSuffix_conflictSuffix
  intro n hn
  have hallowed := forbids_of_returned (allowed_empty rules) hsafe n hn
  have hword : n ∉ reservedWords ++ generatedNames := fun hmem =>
    Bool.eq_false_iff.mp hallowed (forbids_iff.mpr hmem)
  exact ⟨fun hmem => hword (List.mem_append_left _ hmem), fun hmem => hword (List.mem_append_right _ hmem)⟩

/-- Conversions in all four cases, then class names that collide behind their suffix, one of them asked for twice and
    once more after a reset. -/
def collisions : List Call :=
  [.convert ⟨"class", .snake, "_"⟩, .convert ⟨"Class", .camel, "_"⟩, .convert ⟨"class", .pascal, "_"⟩,
    .convert ⟨"class", .screamingSnake, "_"⟩, .assign ⟨"string", .pascal, "_"⟩, .assign ⟨"String", .pascal, "_"⟩,
    .assign ⟨"string", .pascal, "_"⟩, .assign ⟨"STRING", .pascal, "_"⟩, .reset, .assign ⟨"String", .pascal, "_"⟩]

theorem collisions_are_allowed :
    returned rules {} collisions =
        ["class_", "class_", "Class_", "CLASS", "String_", "String__1", "String_", "String__2", "String_"] ∧
      ∀ n ∈ returned rules {} collisions, n ∉ reservedWords ∧ n ∉ generatedNames := by
  refine ⟨by decide +kernel, allowed_of_returned collisions ?_⟩
  intro call hcall q hq
  simp only [collisions, List.mem_cons, List.not_mem_nil, or_false] at hcall
  rcases hcall with rfl | rfl | rfl | rfl | rfl | rfl | rfl | rfl | rfl | rfl <;> cases hq <;> rfl

end SchemaForge.Java

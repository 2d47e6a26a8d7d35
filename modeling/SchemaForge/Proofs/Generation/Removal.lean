import SchemaForge.Proofs.Generation.Aliases

/-
What removing a language undoes. A registration that does not replace only adds to the registry: the language to the
end of the languages, and the aliases up to the first that is refused to the end of the aliases. None of these was an
alias before (`enter_eq_append`). An alias that was there could only be accepted if it pointed at the language already,
and after any history no alias points at a language that is not there.

So whichever way the registration of a new language ends, removing the language gives the registry back
(`unregister_of_registered`).
-/

namespace SchemaForge.Generation.Registry

open Text Entries

variable {r : Registry} {key : String} {names : List String}

/-- An alias that a new language is given was no alias before. -/
theorem not_mem_aliases_of_accepted (hinv : Inv r) (hnew : key ∉ keys r.languages)
    (h : ∀ n ∈ names, r.refusal? key n = none) {a : String} (ha : a ∈ keys (pointing key names)) :
    a ∉ keys r.aliases := by
  obtain ⟨hne, n, hn, rfl⟩ := mem_keys_pointing.mp ha
  obtain ⟨-, hfree⟩ := (refusal?_eq_none.mp (h n hn)).resolve_left hne
  intro hthere
  obtain ⟨target, htarget⟩ := exists_get?_iff.mpr hthere
  have hpoints : (lowerText n, key) ∈ r.aliases := hfree target htarget ▸ mem_of_get? htarget
  exact hnew (hinv.registered _ hpoints)

/-- A new language and its aliases are added behind what is there. -/
theorem enter_eq_append (hinv : Inv r) (hnew : key ∉ keys r.languages) (h : ∀ n ∈ names, r.refusal? key n = none)
    (c : GeneratorClass) :
    r.enter key c names =
      { languages := r.languages ++ [(key, c)], aliases := r.aliases ++ putAll (pointing key names) [] } := by
  have haliases : ∀ a ∈ keys (pointing key names), has a r.aliases = false := by
    intro a ha
    rw [Bool.eq_false_iff]
    exact fun hthere => not_mem_aliases_of_accepted hinv hnew h ha (has_iff_mem_keys.mp hthere)
  have hadded := putAll_append_of_not_has haliases []
  rw [List.append_nil] at hadded
  rw [enter, put_of_not_mem hnew, hadded]

/-- Nothing points at a language that is not there. -/
theorem filter_aliases_of_new (hinv : Inv r) (hnew : key ∉ keys r.languages) :
    r.aliases.filter (fun a => !(a.2 == key)) = r.aliases := by
  refine List.filter_eq_self.mpr fun e he => ?_
  rw [Bool.not_eq_true', beq_eq_false_iff_ne]
  rintro rfl
  exact hnew (hinv.registered e he)

theorem unregister_of_new {language : String} (hinv : Inv r) (hnew : lowerText language ∉ keys r.languages) :
    r.unregister language = r := by
  simp only [unregister, erase_of_not_mem hnew, filter_aliases_of_new hinv hnew]

/-- Removing a language drops what was added with it, all of which points at it, and nothing else. -/
theorem unregister_append {language : String} (hinv : Inv r) (hnew : lowerText language ∉ keys r.languages)
    (c : GeneratorClass) {added : List (String × String)} (hadded : ∀ e ∈ added, e.2 = lowerText language) :
    ({ languages := r.languages ++ [(lowerText language, c)], aliases := r.aliases ++ added } : Registry).unregister
      language = r := by
  have hdropped : added.filter (fun a => !(a.2 == lowerText language)) = [] := by
    refine List.filter_eq_nil_iff.mpr fun e he => ?_
    simp [hadded e he]
  simp only [unregister, erase_concat hnew, List.filter_append, filter_aliases_of_new hinv hnew, hdropped,
    List.append_nil]

/-- What a registration of a new language can leave behind. -/
theorem register_of_new {language : String} (hinv : Inv r) (hnew : lowerText language ∉ keys r.languages)
    (c : GeneratorClass) (names : List String) :
    c.isGenerator = false ∧ (r.register language c names false).2 = r ∨
      c.isGenerator = true ∧ ∃ added, (∀ e ∈ added, e.2 = lowerText language) ∧
        (r.register language c names false).2 =
          { languages := r.languages ++ [(lowerText language, c)], aliases := r.aliases ++ added } := by
  have hpoints : ∀ before, ∀ e ∈ putAll (pointing (lowerText language) before) [], e.2 = lowerText language := by
    intro before e he
    rcases mem_putAll he with he | he
    · obtain ⟨_, -, -, -, htarget⟩ := mem_pointing.mp he
      exact htarget
    · cases he
  have hends := ends_register r language c names false
  generalize r.register language c names false = out at hends
  cases hends with
  | refused hclass => exact Or.inl ⟨hclass, rfl⟩
  | skipped _ _ hthere => exact absurd hthere hnew
  | entered hclass haccepted =>
    obtain ⟨-, haccepted⟩ := haccepted.resolve_left (by decide)
    exact Or.inr ⟨hclass, _, hpoints names, enter_eq_append hinv hnew haccepted c⟩
  | @stopped before _ _ _ hclass _ _ _ hbefore _ =>
    exact Or.inr ⟨hclass, _, hpoints before, enter_eq_append hinv hnew hbefore c⟩

/-- After any history, a language that is not registered is registered without replacing, with whatever class and
    aliases. However that ends, the languages, classes and aliases that were there stand in front of what was added, and
    removing the language gives the registry back as it was. In between the language is there if the class is one for
    generators, so that there is something to remove. -/
theorem unregister_of_registered (calls : List Call) {language : String} (c : GeneratorClass) (names : List String)
    (hnew : lowerText language ∉ keys (after calls).languages) :
    ((after calls).register language c names false).2.unregister language = after calls ∧
      (after calls).languages <+: ((after calls).register language c names false).2.languages ∧
      (after calls).aliases <+: ((after calls).register language c names false).2.aliases ∧
      (c.isGenerator = true → ((after calls).register language c names false).2.classOf language = .ok c) := by
  have hinv := inv_after calls
  rcases register_of_new hinv hnew c names with ⟨hclass, hsame⟩ | ⟨-, added, hadded, hregistered⟩
  · rw [hsame]
    refine ⟨unregister_of_new hinv hnew, List.prefix_rfl, List.prefix_rfl, fun hgenerator => ?_⟩
    rw [hclass] at hgenerator
    cases hgenerator
  · rw [hregistered]
    refine ⟨unregister_append hinv hnew c hadded, List.prefix_append .., List.prefix_append .., fun _ => ?_⟩
    have hfound : get? (lowerText language) ((after calls).languages ++ [(lowerText language, c)]) = some c := by
      rw [← put_of_not_mem hnew, get?_put_self]
    exact classOf_of_resolve (resolve_eq_ok_iff.mpr (Or.inl ⟨exists_get?_iff.mp ⟨c, hfound⟩, rfl⟩)) hfound

/-- `JVM` belongs to Kotlin, so Swift is registered with `ios` only, and neither is left when Swift is removed. -/
theorem swift_leaves_no_trace :
    ∃ r', (after promotions).register "Swift" javaClass ["ios", "JVM", "swiftui"] false =
        (.error (.aliasTaken "JVM" "kotlin"), r') ∧
      r'.resolve "IOS" = .ok "swift" ∧ r'.supports "swiftui" = false ∧ r'.unregister "Swift" = after promotions := by
  have hnew : lowerText "Swift" ∉ keys (after promotions).languages := by decide
  obtain ⟨hremoved, -, -, -⟩ := unregister_of_registered promotions javaClass ["ios", "JVM", "swiftui"] hnew
  exact ⟨_, rfl, by rfl, by rfl, hremoved⟩

end SchemaForge.Generation.Registry

import SchemaForge.Proofs.Generation.Registration
import SchemaForge.Proofs.Runs
import SchemaForge.Proofs.Text.Casing

/-
Languages and aliases after any history of calls: registrations that succeed, are skipped or fail half way, with or
without replacing, and removals.

(1) No alias is left pointing at a language that is gone (`inv_after`). So a language is supported exactly when it can
be resolved, and then there is a class for it (`supported_iff_resolved`).

(2) An alias that is listed for a language is resolved to it unless it has become a language of its own
(`resolve_listed_alias_iff`). Registering a name that is an alias makes it one, and so does an alias that is a language
where conflicts are not checked. Nothing else does (`faithful_run_iff`).
-/

namespace SchemaForge.Generation.Registry

open Text Entries

inductive Call
  | register (language : String) (c : GeneratorClass) (aliases : List String) (replace : Bool)
  | unregister (language : String)

def Call.run (r : Registry) : Call → Registry
  | .register language c aliases replace => (r.register language c aliases replace).2
  | .unregister language => r.unregister language

def after (calls : List Call) : Registry := calls.foldl Call.run {}

theorem after_concat (calls : List Call) (call : Call) : after (calls ++ [call]) = call.run (after calls) := by
  rw [after, List.foldl_append]
  rfl

/-! ## What every history keeps -/

structure Inv (r : Registry) : Prop where
  languages_lower : ∀ k ∈ keys r.languages, lowerText k = k
  aliases_lower : ∀ a ∈ keys r.aliases, lowerText a = a
  aliases_nodup : (keys r.aliases).Nodup
  /-- Every alias points at a language that is registered. -/
  registered : ∀ e ∈ r.aliases, e.2 ∈ keys r.languages
  /-- No language is an alias of itself. -/
  proper : ∀ e ∈ r.aliases, e.1 ≠ e.2

variable {r : Registry} {key : String} {names : List String}

theorem inv_empty : Inv {} where
  languages_lower := by simp [keys]
  aliases_lower := by simp [keys]
  aliases_nodup := List.nodup_nil
  registered := by simp
  proper := by simp

theorem inv_enter (h : Inv r) (hkey : lowerText key = key) (c : GeneratorClass) (names : List String) :
    Inv (r.enter key c names) where
  languages_lower := by
    intro k hk
    rcases mem_keys_put.mp hk with rfl | hk
    · exact hkey
    · exact h.languages_lower k hk
  aliases_lower := by
    intro a ha
    rcases mem_keys_putAll.mp ha with ha | ha
    · obtain ⟨-, n, -, rfl⟩ := mem_keys_pointing.mp ha
      exact lowerText_lowerText n
    · exact h.aliases_lower a ha
  aliases_nodup := nodup_keys_putAll h.aliases_nodup
  registered := by
    intro e he
    refine mem_keys_put.mpr ?_
    rcases mem_putAll he with he | he
    · obtain ⟨n, -, -, -, htarget⟩ := mem_pointing.mp he
      exact Or.inl htarget
    · exact Or.inr (h.registered e he)
  proper := by
    intro e he
    rcases mem_putAll he with he | he
    · obtain ⟨n, -, -, hne, htarget⟩ := mem_pointing.mp he
      exact htarget ▸ hne
    · exact h.proper e he

/-- With a language all aliases that point at it go, and no others. -/
theorem inv_unregister (h : Inv r) (language : String) : Inv (r.unregister language) where
  languages_lower := fun k hk => h.languages_lower k (mem_keys_erase.mp hk).1
  aliases_lower := fun a ha => h.aliases_lower a ((List.filter_sublist.map _).subset ha)
  aliases_nodup := (List.filter_sublist.map _).nodup h.aliases_nodup
  registered := by
    intro e he
    obtain ⟨he, hne⟩ := List.mem_filter.mp he
    exact mem_keys_erase.mpr ⟨h.registered e he, by simpa using hne⟩
  proper := fun e he => h.proper e (List.mem_filter.mp he).1

theorem inv_run (h : Inv r) (call : Call) : Inv (call.run r) := by
  cases call with
  | unregister language => exact inv_unregister h language
  | register language c names replace =>
    show Inv (r.register language c names replace).2
    have hends := ends_register r language c names replace
    generalize r.register language c names replace = out at hends
    cases hends with
    | refused => exact h
    | skipped => exact h
    | entered => exact inv_enter h (lowerText_lowerText language) c names
    | @stopped before => exact inv_enter h (lowerText_lowerText language) c before

theorem inv_after (calls : List Call) : Inv (after calls) :=
  List.foldlRecOn calls Call.run inv_empty fun _ h call _ => inv_run h call

/-! ## Supported languages -/

theorem resolve_eq_ok_iff {x l : String} : r.resolve x = .ok l ↔
    lowerText x ∈ keys r.languages ∧ l = lowerText x ∨
      lowerText x ∉ keys r.languages ∧ get? (lowerText x) r.aliases = some l := by
  unfold resolve
  by_cases hlanguage : lowerText x ∈ keys r.languages
  · rw [if_pos (has_iff_mem_keys.mpr hlanguage), Except.ok.injEq]
    simp only [hlanguage, true_and, not_true, false_and, or_false]
    exact eq_comm
  · rw [if_neg (mt has_iff_mem_keys.mp hlanguage)]
    cases get? (lowerText x) r.aliases <;> simp [hlanguage]

theorem eq_of_resolve_eq_error {x : String} {e : RegistryError} (h : r.resolve x = .error e) :
    e = .unknownLanguage x r.languageNames := by
  unfold resolve at h
  simp only at h
  split at h
  · cases h
  · split at h
    · cases h
    · exact (Except.error.inj h).symm

theorem supports_iff {x : String} :
    r.supports x = true ↔ lowerText x ∈ keys r.languages ∨ lowerText x ∈ keys r.aliases := by
  simp only [supports, Bool.or_eq_true, has_iff_mem_keys]

theorem exists_resolve_iff {x : String} : (∃ l, r.resolve x = .ok l) ↔ r.supports x = true := by
  simp only [resolve_eq_ok_iff, supports_iff]
  by_cases hlanguage : lowerText x ∈ keys r.languages
  · simp [hlanguage]
  · simp [hlanguage, exists_get?_iff]

theorem mem_languages_of_resolve (h : Inv r) {x l : String} (hl : r.resolve x = .ok l) : l ∈ keys r.languages := by
  rcases resolve_eq_ok_iff.mp hl with ⟨hlanguage, rfl⟩ | ⟨-, hget⟩
  · exact hlanguage
  · exact h.registered _ (mem_of_get? hget)

theorem classOf_of_resolve {x l : String} {c : GeneratorClass} (hl : r.resolve x = .ok l)
    (hc : get? l r.languages = some c) : r.classOf x = .ok c := by
  rw [classOf, hl]
  simp only [bind, Except.bind, hc]
  rfl

/-- After any history, a language is supported exactly when its name is resolved, and exactly when there is a class for
    it. What a name is resolved to is registered, with that class, and no alias points anywhere else. So a missing
    class is never what goes wrong: the one answer besides is that the language is unknown. -/
theorem supported_iff_resolved (calls : List Call) (x : String) :
    ((after calls).supports x = true ↔ ∃ l, (after calls).resolve x = .ok l) ∧
    ((after calls).supports x = true ↔ ∃ c, (after calls).classOf x = .ok c) ∧
    (∀ l, (after calls).resolve x = .ok l →
      ∃ c, get? l (after calls).languages = some c ∧ (after calls).classOf x = .ok c) ∧
    (∀ e ∈ (after calls).aliases, e.2 ∈ keys (after calls).languages) ∧
    (∀ e, (after calls).classOf x = .error e → e = .unknownLanguage x (after calls).languageNames) := by
  have hclass : ∀ l, (after calls).resolve x = .ok l →
      ∃ c, get? l (after calls).languages = some c ∧ (after calls).classOf x = .ok c := by
    intro l hl
    obtain ⟨c, hc⟩ := exists_get?_iff.mpr (mem_languages_of_resolve (inv_after calls) hl)
    exact ⟨c, hc, classOf_of_resolve hl hc⟩
  refine ⟨exists_resolve_iff.symm, ⟨fun h => ?_, fun h => ?_⟩, hclass, (inv_after calls).registered, fun e he => ?_⟩
  · obtain ⟨l, hl⟩ := exists_resolve_iff.mpr h
    obtain ⟨c, -, hc⟩ := hclass l hl
    exact ⟨c, hc⟩
  · obtain ⟨c, hc⟩ := h
    obtain ⟨l, hl, -⟩ := Runs.bind_eq_ok.mp hc
    exact exists_resolve_iff.mp ⟨l, hl⟩
  · cases hl : (after calls).resolve x with
    | ok l =>
      obtain ⟨c, -, hc⟩ := hclass l hl
      rw [hc] at he
      cases he
    | error f =>
      rw [classOf, hl] at he
      cases he
      exact eq_of_resolve_eq_error hl

/-! ## Aliases and the languages they are listed for -/

theorem mem_aliasesOf {language a : String} : a ∈ r.aliasesOf language ↔ (a, lowerText language) ∈ r.aliases := by
  simp only [aliasesOf, sorted, List.mem_mergeSort, List.mem_map, List.mem_filter, beq_iff_eq]
  refine ⟨?_, fun h => ⟨_, ⟨h, rfl⟩, rfl⟩⟩
  rintro ⟨e, ⟨he, htarget⟩, rfl⟩
  exact htarget ▸ he

/-- A listed alias is resolved to its language, unless it has become a language itself. -/
theorem resolve_of_mem_aliasesOf (h : Inv r) {language a : String} (ha : a ∈ r.aliasesOf language) :
    r.resolve a = .ok (if a ∈ keys r.languages then a else lowerText language) := by
  rw [mem_aliasesOf] at ha
  rw [resolve_eq_ok_iff, h.aliases_lower a (List.mem_map_of_mem ha)]
  by_cases hlanguage : a ∈ keys r.languages
  · exact Or.inl ⟨hlanguage, if_pos hlanguage⟩
  · exact Or.inr ⟨hlanguage, by rw [if_neg hlanguage, get?_of_mem h.aliases_nodup ha]⟩

/-- Every alias that is listed for a registered language is resolved to it. -/
def Faithful (r : Registry) : Prop :=
  ∀ language, lowerText language ∈ keys r.languages → ∀ a ∈ r.aliasesOf language,
    r.resolve a = .ok (lowerText language)

theorem faithful_empty : Faithful {} := by
  intro language hlanguage
  cases hlanguage

/-- No name is both an alias and a language. -/
def Apart (r : Registry) : Prop := ∀ a ∈ keys r.aliases, a ∉ keys r.languages

theorem faithful_iff_apart (h : Inv r) : Faithful r ↔ Apart r := by
  refine ⟨fun hfaithful a ha hlanguage => ?_, fun hapart language _ a ha => ?_⟩
  · -- Such an alias is listed for the language it points at, and that is another one than itself.
    obtain ⟨e, he, rfl⟩ := List.mem_map.mp ha
    have htarget := h.registered e he
    have hlower := h.languages_lower e.2 htarget
    have hlisted : e.1 ∈ r.aliasesOf e.2 := mem_aliasesOf.mpr (by rw [hlower]; exact he)
    have hresolve := hfaithful e.2 (by rw [hlower]; exact htarget) e.1 hlisted
    rw [resolve_of_mem_aliasesOf h hlisted, if_pos hlanguage, hlower] at hresolve
    exact h.proper e he (Except.ok.inj hresolve)
  · rw [resolve_of_mem_aliasesOf h ha, if_neg]
    exact hapart a (List.mem_map_of_mem (mem_aliasesOf.mp ha))

/-- The call enters a language under a name that is an alias, or makes an alias of a language because it replaces and
    so does not check. -/
def Call.Shadows (r : Registry) : Call → Prop
  | .register language c aliases replace =>
    c.isGenerator = true ∧ (replace = true ∨ lowerText language ∉ keys r.languages) ∧
      (lowerText language ∈ keys r.aliases ∨
        replace = true ∧ ∃ a ∈ aliases, lowerText a ≠ lowerText language ∧ lowerText a ∈ keys r.languages)
  | .unregister _ => False

theorem apart_enter_iff (h : Apart r) (key : String) (c : GeneratorClass) (names : List String) :
    Apart (r.enter key c names) ↔
      key ∉ keys r.aliases ∧ ∀ n ∈ names, lowerText n ≠ key → lowerText n ∉ keys r.languages := by
  simp only [Apart, enter, mem_keys_putAll, mem_keys_put, mem_keys_pointing, not_or]
  refine ⟨fun hapart => ⟨fun hkey => ?_, fun n hn hne => ?_⟩, fun hfree a ha => ?_⟩
  · exact (hapart key (Or.inr hkey)).1 rfl
  · exact (hapart (lowerText n) (Or.inl ⟨hne, n, hn, rfl⟩)).2
  · rcases ha with ⟨hne, n, hn, rfl⟩ | ha
    · exact ⟨hne, hfree.2 n hn hne⟩
    · exact ⟨fun heq => hfree.1 (heq ▸ ha), h a ha⟩

theorem language_free_of_accepted (h : ∀ n ∈ names, r.refusal? key n = none) :
    ∀ n ∈ names, lowerText n ≠ key → lowerText n ∉ keys r.languages :=
  fun n hn hne => ((refusal?_eq_none.mp (h n hn)).resolve_left hne).1

theorem apart_run_iff (h : Apart r) (call : Call) : Apart (call.run r) ↔ ¬ call.Shadows r := by
  cases call with
  | unregister language =>
    refine iff_of_true (fun a ha => ?_) id
    exact fun hlanguage => h a ((List.filter_sublist.map _).subset ha) (mem_keys_erase.mp hlanguage).1
  | register language c names replace =>
    show Apart (r.register language c names replace).2 ↔ _
    have hends := ends_register r language c names replace
    generalize r.register language c names replace = out at hends
    cases hends with
    | refused hclass => exact iff_of_true h (by simp [Call.Shadows, hclass])
    | skipped hclass hreplace hlanguage => exact iff_of_true h (by simp [Call.Shadows, hreplace, hlanguage])
    | entered hclass hfree =>
      rw [apart_enter_iff h]
      rcases Bool.eq_false_or_eq_true replace with hreplace | hreplace
      · simp [Call.Shadows, hclass, hreplace]
      · obtain ⟨hnew, haccepted⟩ := hfree.resolve_left (by simp [hreplace])
        rw [and_iff_left (language_free_of_accepted haccepted)]
        simp [Call.Shadows, hclass, hreplace, hnew]
    | stopped hclass hreplace hnew _ hbefore =>
      rw [apart_enter_iff h, and_iff_left (language_free_of_accepted hbefore)]
      simp [Call.Shadows, hclass, hreplace, hnew]

/-- Once all listed aliases are resolved to their languages, a call leaves it so unless it makes a name both. -/
theorem faithful_run_iff (h : Inv r) (hr : Faithful r) (call : Call) : Faithful (call.run r) ↔ ¬ call.Shadows r := by
  rw [faithful_iff_apart (inv_run h call)]
  exact apart_run_iff ((faithful_iff_apart h).mp hr) call

theorem faithful_foldl {calls : List Call} (h : Inv r) (hr : Faithful r)
    (hcalls : ∀ before call rest, calls = before ++ call :: rest → ¬ call.Shadows (before.foldl Call.run r)) :
    Faithful (calls.foldl Call.run r) := by
  induction calls generalizing r with
  | nil => exact hr
  | cons call calls ih =>
    refine ih (inv_run h call) ((faithful_run_iff h hr call).mpr (hcalls [] call calls rfl)) ?_
    rintro before later rest rfl
    exact hcalls (call :: before) later rest rfl

/-- After any history, an alias that is listed for a registered language is resolved to it, unless the alias has become
    a language of its own; then it is resolved to itself. In a history this happens only by a call that enters a
    language under a name that is an alias, or that replaces with an alias that is a language; and where it has not
    happened yet, each such call brings it about. -/
theorem resolve_listed_alias_iff (calls : List Call) :
    (∀ language, lowerText language ∈ keys (after calls).languages → ∀ a ∈ (after calls).aliasesOf language,
      ((after calls).resolve a = .ok (lowerText language) ↔ a ∉ keys (after calls).languages) ∧
      (a ∈ keys (after calls).languages → (after calls).resolve a = .ok a)) ∧
    ((∀ before call rest, calls = before ++ call :: rest → ¬ call.Shadows (after before)) → Faithful (after calls)) ∧
    (Faithful (after calls) → ∀ call, Faithful (after (calls ++ [call])) ↔ ¬ call.Shadows (after calls)) := by
  have hinv := inv_after calls
  refine ⟨fun language _ a ha => ?_, faithful_foldl inv_empty faithful_empty, fun hfaithful call => ?_⟩
  · have hresolve := resolve_of_mem_aliasesOf hinv ha
    refine ⟨⟨fun heq hlanguage => ?_, fun hlanguage => ?_⟩, fun hlanguage => ?_⟩
    · rw [hresolve, if_pos hlanguage] at heq
      exact hinv.proper _ (mem_aliasesOf.mp ha) (Except.ok.inj heq)
    · rw [hresolve, if_neg hlanguage]
    · rw [hresolve, if_pos hlanguage]
  · rw [after_concat]
    exact faithful_run_iff hinv hfaithful call

/-- A history in which an alias of Kotlin is registered as a language. -/
def promotions : List Call :=
  [.register "Kotlin" javaClass ["jvm", "Android"] false, .register "android" javaClass ["apk", "jvm"] false]

/-- `android` is listed for Kotlin and resolved to itself. The other alias of Kotlin is resolved to it. -/
theorem android_is_listed_but_not_resolved :
    "android" ∈ (after promotions).aliasesOf "kotlin" ∧ (after promotions).resolve "android" = .ok "android" ∧
      "jvm" ∈ (after promotions).aliasesOf "kotlin" ∧ (after promotions).resolve "jvm" = .ok "kotlin" ∧
      Faithful (after (promotions.take 1)) ∧ ¬ Faithful (after promotions) := by
  have hkotlin : lowerText "kotlin" ∈ keys (after promotions).languages := by decide
  have hjvm : "jvm" ∈ (after promotions).aliasesOf "kotlin" := mem_aliasesOf.mpr (by decide)
  have handroid : "android" ∈ (after promotions).aliasesOf "kotlin" := mem_aliasesOf.mpr (by decide)
  obtain ⟨hlisted, -, -⟩ := resolve_listed_alias_iff promotions
  obtain ⟨-, hempty, hfirst⟩ := resolve_listed_alias_iff []
  obtain ⟨-, -, hsecond⟩ := resolve_listed_alias_iff (promotions.take 1)
  have hone : Faithful (after (promotions.take 1)) := by
    refine (hfirst (hempty (by simp)) (.register "Kotlin" javaClass ["jvm", "Android"] false)).mpr ?_
    rintro ⟨-, -, h | ⟨h, -⟩⟩
    · exact absurd h (by decide)
    · exact absurd h (by decide)
  refine ⟨handroid, (hlisted _ hkotlin _ handroid).2 (by decide), hjvm, (hlisted _ hkotlin _ hjvm).1.mpr (by decide),
    hone, fun htwo => ?_⟩
  exact (hsecond hone (.register "android" javaClass ["apk", "jvm"] false)).mp htwo
    ⟨rfl, Or.inr (by decide), Or.inl (by decide)⟩

end SchemaForge.Generation.Registry

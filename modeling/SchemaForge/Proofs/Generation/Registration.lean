import SchemaForge.Targets

/-
What one registration does. It is refused, it is skipped, or it enters the language and then its aliases one by one,
up to the first that is refused (`ends_register`). Whether an alias is refused can be told from the registry as it was
before the call, because aliases of one registration do not stand in each other's way (`refusal?_point`).

So a registration that an alias stops is half done: the language and the aliases before stay
(`registry_of_failed_registration`).
-/

namespace SchemaForge.Generation.Registry

open Text Entries

variable {r : Registry} {key name : String} {c : GeneratorClass} {names : List String}

/-! ## Aliases that point at a language -/

/-- Why a name stops the registration of a language. Its own name never does. -/
def refusal? (r : Registry) (key name : String) : Option RegistryError :=
  if lowerText name == key then none else r.conflict? key name

/-- The names as aliases of a language. -/
def pointing (key : String) (names : List String) : List (String × String) :=
  (names.filter (fun n => lowerText n != key)).map (fun n => (lowerText n, key))

def point (r : Registry) (key : String) (names : List String) : Registry :=
  { r with aliases := putAll (pointing key names) r.aliases }

theorem mem_pointing {e : String × String} :
    e ∈ pointing key names ↔ ∃ n ∈ names, lowerText n = e.1 ∧ e.1 ≠ key ∧ e.2 = key := by
  simp only [pointing, List.mem_map, List.mem_filter, bne_iff_ne]
  refine ⟨?_, ?_⟩
  · rintro ⟨n, ⟨hn, hne⟩, rfl⟩
    exact ⟨n, hn, rfl, hne, rfl⟩
  · rintro ⟨n, hn, hlower, hne, htarget⟩
    exact ⟨n, ⟨hn, hlower ▸ hne⟩, Prod.ext hlower htarget.symm⟩

theorem mem_keys_pointing {k : String} : k ∈ keys (pointing key names) ↔ k ≠ key ∧ ∃ n ∈ names, lowerText n = k := by
  simp only [keys, List.mem_map, mem_pointing]
  refine ⟨?_, ?_⟩
  · rintro ⟨e, ⟨n, hn, hlower, hne, -⟩, rfl⟩
    exact ⟨hne, n, hn, hlower⟩
  · rintro ⟨hne, n, hn, hlower⟩
    exact ⟨(k, key), ⟨n, hn, hlower, hne, rfl⟩, rfl⟩

theorem refusal?_eq_none : r.refusal? key name = none ↔
    lowerText name = key ∨ lowerText name ∉ keys r.languages ∧
      ∀ other, get? (lowerText name) r.aliases = some other → other = key := by
  unfold refusal? conflict?
  by_cases hkey : lowerText name = key
  · simp [hkey]
  by_cases hlanguage : lowerText name ∈ keys r.languages
  · simp [hkey, hlanguage, has_iff_mem_keys]
  cases hget : get? (lowerText name) r.aliases with
  | none => simp [hkey, hlanguage, hget, has_iff_mem_keys]
  | some other => by_cases hother : other = key <;> simp [hkey, hlanguage, hget, hother, has_iff_mem_keys]

/-- Aliases that were accepted do not change what is refused. -/
theorem refusal?_point (h : ∀ n ∈ names, r.refusal? key n = none) (name : String) :
    (r.point key names).refusal? key name = r.refusal? key name := by
  by_cases hkey : lowerText name = key
  · simp [refusal?, hkey]
  by_cases hmem : lowerText name ∈ keys (pointing key names)
  · obtain ⟨-, n, hn, hlower⟩ := mem_keys_pointing.mp hmem
    have hfree := (refusal?_eq_none.mp (h n hn)).resolve_left (hlower ▸ hkey)
    rw [hlower] at hfree
    rw [refusal?_eq_none.mpr (Or.inr hfree), refusal?_eq_none]
    refine Or.inr ⟨hfree.1, fun other hother => ?_⟩
    rw [point, get?_putAll_of_mem (fun e he => (mem_pointing.mp he).choose_spec.2.2.2) hmem] at hother
    exact (Option.some.inj hother).symm
  · simp only [refusal?, conflict?, point, get?_putAll_of_not_mem hmem]

theorem point_cons_self (h : lowerText name = key) : r.point key (name :: names) = r.point key names := by
  simp only [point, pointing, List.filter_cons, h, bne_self_eq_false, Bool.false_eq_true, if_false]

theorem point_cons (h : lowerText name ≠ key) :
    r.point key (name :: names) = { r with aliases := put (lowerText name) key r.aliases }.point key names := by
  simp only [point, pointing, List.filter_cons, bne_iff_ne.mpr h, if_true, List.map_cons, putAll_cons]

/-- Aliases are added from left to right. -/
theorem addAliases_append {replace : Bool} {before : List String}
    (h : replace = true ∨ ∀ n ∈ before, r.refusal? key n = none) (rest : List String) :
    r.addAliases key replace (before ++ rest) = (r.point key before).addAliases key replace rest := by
  induction before generalizing r with
  | nil => rfl
  | cons n before ih =>
    rw [List.cons_append, addAliases]
    by_cases hkey : lowerText n = key
    · rw [if_pos (beq_iff_eq.mpr hkey), point_cons_self hkey]
      exact ih (h.imp_right fun h m hm => h m (List.mem_cons_of_mem _ hm))
    rw [if_neg (by simpa using hkey), point_cons hkey]
    cases replace with
    | true => exact ih (Or.inl rfl)
    | false =>
      have h := h.resolve_left (by decide)
      have hfree : r.conflict? key n = none := by
        simpa [refusal?, hkey] using h n (List.mem_cons_self ..)
      simp only [Bool.false_eq_true, if_false, hfree]
      -- The names that follow are accepted by the new registry because they were by the old one.
      refine ih (Or.inr fun m hm => ?_)
      have hpoint : { r with aliases := put (lowerText n) key r.aliases } = r.point key [n] := by
        rw [point_cons hkey]
        rfl
      rw [hpoint, refusal?_point (by simpa using h n (List.mem_cons_self ..))]
      exact h m (List.mem_cons_of_mem _ hm)

theorem addAliases_of_refused {e : RegistryError} (h : r.refusal? key name = some e) (rest : List String) :
    r.addAliases key false (name :: rest) = (.error e, r) := by
  unfold refusal? at h
  split at h
  · cases h
  · rename_i hkey
    simp only [addAliases, hkey, Bool.false_eq_true, if_false, h]

/-- Either all names are accepted or there is a first one that is not. -/
theorem accepted_or_refused (r : Registry) (key : String) (names : List String) :
    (∀ n ∈ names, r.refusal? key n = none) ∨ ∃ before name rest e, names = before ++ name :: rest ∧
      (∀ n ∈ before, r.refusal? key n = none) ∧ r.refusal? key name = some e := by
  induction names with
  | nil => exact Or.inl (by simp)
  | cons n names ih =>
    cases hn : r.refusal? key n with
    | some e => exact Or.inr ⟨[], n, names, e, rfl, by simp, hn⟩
    | none =>
      rcases ih with h | ⟨before, name, rest, e, rfl, hbefore, hname⟩
      · exact Or.inl (List.forall_mem_cons.mpr ⟨hn, h⟩)
      · exact Or.inr ⟨n :: before, name, rest, e, rfl, List.forall_mem_cons.mpr ⟨hn, hbefore⟩, hname⟩

/-! ## One registration -/

/-- The registry with a language and names that point at it. -/
def enter (r : Registry) (key : String) (c : GeneratorClass) (names : List String) : Registry :=
  { languages := put key c r.languages, aliases := putAll (pointing key names) r.aliases }

/-- That the language is entered first does not matter for its aliases. -/
theorem refusal?_enter_nil (r : Registry) (key : String) (c : GeneratorClass) (name : String) :
    (r.enter key c []).refusal? key name = r.refusal? key name := by
  by_cases hkey : lowerText name = key
  · simp [refusal?, hkey]
  have hhas : has (lowerText name) (put key c r.languages) = has (lowerText name) r.languages := by
    rw [Bool.eq_iff_iff, has_iff_mem_keys, has_iff_mem_keys, mem_keys_put, or_iff_right hkey]
  simp only [refusal?, conflict?, enter, hhas]
  rfl

theorem refusal?_enter {before : List String} (h : ∀ n ∈ before, r.refusal? key n = none) (c : GeneratorClass)
    (name : String) : (r.enter key c before).refusal? key name = r.refusal? key name :=
  (refusal?_point (fun n hn => (refusal?_enter_nil r key c n).trans (h n hn)) name).trans
    (refusal?_enter_nil r key c name)

/-- What a registration can end in: an answer and the registry after it. -/
inductive Ends (r : Registry) (language : String) (c : GeneratorClass) (names : List String) (replace : Bool) :
    Except RegistryError Unit × Registry → Prop
  /-- The class is no generator class. -/
  | refused : c.isGenerator = false → Ends r language c names replace (.error .notGenerator, r)
  /-- The language is there and is not to be replaced. -/
  | skipped : c.isGenerator = true → replace = false → lowerText language ∈ keys r.languages →
      Ends r language c names replace (.ok (), r)
  | entered : c.isGenerator = true →
      replace = true ∨ lowerText language ∉ keys r.languages ∧
        (∀ n ∈ names, r.refusal? (lowerText language) n = none) →
      Ends r language c names replace (.ok (), r.enter (lowerText language) c names)
  /-- An alias is refused, and those before it are not. -/
  | stopped {before rest : List String} {name : String} {e : RegistryError} : c.isGenerator = true →
      replace = false → lowerText language ∉ keys r.languages → names = before ++ name :: rest →
      (∀ n ∈ before, r.refusal? (lowerText language) n = none) →
      r.refusal? (lowerText language) name = some e →
      Ends r language c names replace (.error e, r.enter (lowerText language) c before)

theorem addAliases_enter {replace : Bool} {before : List String}
    (h : replace = true ∨ ∀ n ∈ before, r.refusal? key n = none) (c : GeneratorClass) (rest : List String) :
    ({ r with languages := put key c r.languages } : Registry).addAliases key replace (before ++ rest) =
      (r.enter key c before).addAliases key replace rest :=
  addAliases_append (h.imp_right fun h n hn => (refusal?_enter_nil r key c n).trans (h n hn)) rest

theorem ends_register (r : Registry) (language : String) (c : GeneratorClass) (names : List String) (replace : Bool) :
    Ends r language c names replace (r.register language c names replace) := by
  unfold register
  cases hclass : c.isGenerator with
  | false => exact .refused hclass
  | true =>
    by_cases hskip : lowerText language ∈ keys r.languages ∧ replace = false
    · have : (has (lowerText language) r.languages && !replace) = true := by
        simp [has_iff_mem_keys.mpr hskip.1, hskip.2]
      simp only [Bool.not_true, Bool.false_eq_true, if_false, this, if_true]
      exact .skipped hclass hskip.2 hskip.1
    have : ¬ (has (lowerText language) r.languages && !replace) = true := by
      simpa [has_iff_mem_keys] using hskip
    simp only [Bool.not_true, Bool.false_eq_true, if_false, this]
    rcases Bool.eq_false_or_eq_true replace with hreplace | hreplace
    · rw [← List.append_nil names, addAliases_enter (Or.inl hreplace), List.append_nil]
      exact .entered hclass (Or.inl hreplace)
    -- The names are checked once the language is there, which `addAliases_enter` traces back to the registry before.
    have hnew : lowerText language ∉ keys r.languages := fun h => hskip ⟨h, hreplace⟩
    rcases accepted_or_refused r (lowerText language) names with h | ⟨before, name, rest, e, hnames, hbefore, hname⟩
    · rw [← List.append_nil names, addAliases_enter (Or.inr h), List.append_nil]
      exact .entered hclass (Or.inr ⟨hnew, h⟩)
    · rw [hnames, addAliases_enter (Or.inr hbefore), hreplace,
        addAliases_of_refused ((refusal?_enter hbefore c name).trans hname)]
      exact .stopped hclass rfl hnew rfl hbefore hname

/-! ## After a failure -/

/-- An alias that was accepted while others are not replaced pointed at the language before, or nowhere. -/
theorem get?_enter {before : List String} (h : ∀ n ∈ before, r.refusal? key n = none) {a target : String}
    (ha : get? a r.aliases = some target) : get? a (r.enter key c before).aliases = some target := by
  unfold enter
  by_cases hmem : a ∈ keys (pointing key before)
  · obtain ⟨hne, n, hn, rfl⟩ := mem_keys_pointing.mp hmem
    obtain ⟨-, hfree⟩ := (refusal?_eq_none.mp (h n hn)).resolve_left hne
    rw [get?_putAll_of_mem (fun e he => (mem_pointing.mp he).choose_spec.2.2.2) hmem, hfree target ha]
  · rw [get?_putAll_of_not_mem hmem, ha]

/-- A registration that fails leaves the registry as it was only if it is refused for its class. If it fails at an
    alias, the first that is refused, then the language has been added under its class, and the aliases before that one
    point at it. Nothing that was there is lost, but the registration cannot be made good: without replacing, every
    later one of the language is skipped. -/
theorem registry_of_failed_registration {r r' : Registry} {language : String} {c : GeneratorClass}
    {names : List String} {replace : Bool} {e : RegistryError}
    (h : r.register language c names replace = (.error e, r')) :
    (r' = r ↔ c.isGenerator = false) ∧
    (c.isGenerator = true →
      (∃ before name rest, names = before ++ name :: rest ∧
        (∀ n ∈ before, r.refusal? (lowerText language) n = none) ∧ r.refusal? (lowerText language) name = some e ∧
        r'.languages = r.languages ++ [(lowerText language, c)] ∧
        r'.aliases = putAll (pointing (lowerText language) before) r.aliases) ∧
      (∀ a target, get? a r.aliases = some target → get? a r'.aliases = some target) ∧
      (∀ d others, d.isGenerator = true → r'.register language d others false = (.ok (), r'))) := by
  have hends := ends_register r language c names replace
  rw [h] at hends
  cases hends with
  | refused hclass => exact ⟨iff_of_true rfl hclass, fun hgenerator => by simp [hclass] at hgenerator⟩
  | @stopped before rest name _ hclass hreplace hnew hnames hbefore hname =>
    have hlanguages : (r.enter (lowerText language) c before).languages = r.languages ++ [(lowerText language, c)] :=
      put_of_not_mem hnew c
    refine ⟨iff_of_false (fun heq => ?_) (by simp [hclass]), fun _ => ⟨?_, ?_, ?_⟩⟩
    · have := congrArg (fun s : Registry => s.languages.length) heq
      simp [hlanguages] at this
    · exact ⟨before, name, rest, hnames, hbefore, hname, hlanguages, rfl⟩
    · exact fun a target ha => get?_enter hbefore ha
    · intro d others hd
      have hthere : has (lowerText language) (r.enter (lowerText language) c before).languages = true := by
        simp [has, hlanguages]
      simp [register, hd, hthere]

/-- `android` belongs to another language, so Kotlin is registered without it, and so is the alias before it. -/
theorem kotlin_stays_registered : ∃ r', targets.register "Kotlin" javaClass ["JVM", "android", "kt"] false =
      (.error (.aliasTaken "android" "java"), r') ∧ r' ≠ targets ∧ r'.resolve "jvm" = .ok "kotlin" ∧
      r'.supports "kt" = false ∧ r'.register "Kotlin" javaClass ["JVM"] false = (.ok (), r') := by
  have h : targets.register "Kotlin" javaClass ["JVM", "android", "kt"] false =
    (.error (.aliasTaken "android" "java"), targets.enter "kotlin" javaClass ["JVM"]) := by rfl
  obtain ⟨hsame, hstopped⟩ := registry_of_failed_registration h
  obtain ⟨-, -, hagain⟩ := hstopped rfl
  exact ⟨_, h, fun heq => absurd (hsame.mp heq) (by decide), by rfl, by rfl, hagain _ _ rfl⟩

end SchemaForge.Generation.Registry

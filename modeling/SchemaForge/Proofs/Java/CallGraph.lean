import SchemaForge.Proofs.Java.Captures

/-
The builder of an emitted class as a call graph. Its nodes are the interface names, each method leads from the
interface that declares it to what its return type names, and a new builder starts at the entry type.

`build()` returns the class. That is the end of the calls, unless an interface has the name of the class: inside the
class this name stands for the nested interface, so `build()` is one more edge of the graph.

Proved, for every model that is emitted at all:
  - the interface names are pairwise different;
  - the steps of the required fields in declaration order, then any setters of the terminal step, then `build()` are
    call sequences from the entry;
  - they are the only ones exactly when the class has the name of none of its interfaces, and when that is, in terms
    of the names in the model (`call_sequences_of_emitted_class`).
`sequence_of_chain` is the induction: it goes along the chain, and the terminal step (`sequence_at_terminal`) is its
base.
-/

namespace SchemaForge.Java

open Generation Generation.Pass Naming

inductive Call where
  | set (method : String)
  | build
  deriving DecidableEq, Repr

/-- Every method of every interface: where it is declared, the call, and its return type. -/
def ClassDecl.offers (c : ClassDecl) : List (String × Call × String) :=
  c.steps.map (fun s => (s.interface, .set s.method, s.returns)) ++
    (c.terminal, .build, c.name) :: (c.terminal, .set c.identity.names.step, c.terminal) ::
      c.setters.map (fun s => (c.terminal, .set s.method, c.terminal))

/-- The calls along a path of the graph that ends with `build()`. -/
inductive CallSequence (c : ClassDecl) : String → List Call → Prop
  | last {i r : String} : (i, .build, r) ∈ c.offers → CallSequence c i [.build]
  | next {i r : String} {call : Call} {calls : List Call} :
      (i, call, r) ∈ c.offers → CallSequence c r calls → CallSequence c i (call :: calls)

variable {m : Model} {c : ClassDecl}

/-! ## The edges of one node -/

theorem terminal_not_mem_steps (h : Emission m c) {s : StepDecl} (hs : s ∈ c.steps) : s.interface ≠ c.terminal := by
  have hn := nodup_interfaces h
  rw [ClassDecl.interfaces] at hn
  exact (List.nodup_append.mp hn).2.2 s.interface (List.mem_map.mpr ⟨s, hs, rfl⟩) c.terminal (by simp)

theorem step_eq_of_interface_eq (h : Emission m c) {s s' : StepDecl} (hs : s ∈ c.steps) (hs' : s' ∈ c.steps)
    (he : s'.interface = s.interface) : s' = s := by
  have hn := nodup_interfaces h
  rw [ClassDecl.interfaces] at hn
  exact List.inj_on_of_nodup_map (List.nodup_append.mp hn).1 hs' hs he

/-- The only call of a step is its method, and it leads where the step says. -/
theorem offers_at_step (h : Emission m c) {s : StepDecl} (hs : s ∈ c.steps) {call : Call} {r : String} :
    (s.interface, call, r) ∈ c.offers ↔ call = .set s.method ∧ r = s.returns := by
  have hne := terminal_not_mem_steps h hs
  simp only [ClassDecl.offers, List.mem_append, List.mem_cons, List.mem_map, Prod.mk.injEq, hne, hne.symm, false_and,
    and_false, exists_false, or_false]
  refine ⟨fun hr => ?_, fun h => ?_⟩
  · obtain ⟨s', hs', he, rfl, rfl⟩ := hr
    rw [step_eq_of_interface_eq h hs hs' he]
    exact ⟨rfl, rfl⟩
  · obtain ⟨rfl, rfl⟩ := h
    exact ⟨s, hs, rfl, rfl, rfl⟩

theorem offers_at_terminal (h : Emission m c) {call : Call} {r : String} :
    (c.terminal, call, r) ∈ c.offers ↔
      call = .build ∧ r = c.name ∨ (∃ x ∈ c.setterMethods, call = .set x) ∧ r = c.terminal := by
  have hne : ∀ s ∈ c.steps, s.interface ≠ c.terminal := fun s hs => terminal_not_mem_steps h hs
  simp only [ClassDecl.offers, ClassDecl.setterMethods, List.mem_append, List.mem_cons, List.mem_map, Prod.mk.injEq,
    true_and]
  refine ⟨fun h => ?_, fun h => ?_⟩
  · rcases h with ⟨s, hs, he, -⟩ | ⟨rfl, rfl⟩ | ⟨rfl, rfl⟩ | ⟨s, hs, rfl, rfl⟩
    · exact absurd he (hne s hs)
    · exact Or.inl ⟨rfl, rfl⟩
    · exact Or.inr ⟨⟨_, Or.inl rfl, rfl⟩, rfl⟩
    · exact Or.inr ⟨⟨_, Or.inr ⟨s, hs, rfl⟩, rfl⟩, rfl⟩
  · rcases h with ⟨rfl, rfl⟩ | ⟨⟨x, rfl | ⟨s, hs, rfl⟩, rfl⟩, rfl⟩
    · exact Or.inr (Or.inl ⟨rfl, rfl⟩)
    · exact Or.inr (Or.inr (Or.inl ⟨rfl, rfl⟩))
    · exact Or.inr (Or.inr (Or.inr ⟨s, hs, rfl, rfl⟩))

/-- Only an interface declares methods. -/
theorem interface_of_offer {i r : String} {call : Call} (h : (i, call, r) ∈ c.offers) : i ∈ c.interfaces := by
  simp only [ClassDecl.offers, List.mem_append, List.mem_cons, List.mem_map, Prod.mk.injEq] at h
  rw [ClassDecl.interfaces, List.mem_append, List.mem_map, List.mem_singleton]
  rcases h with ⟨s, hs, rfl, -⟩ | ⟨rfl, -⟩ | ⟨rfl, -⟩ | ⟨s, hs, rfl, -⟩
  · exact Or.inl ⟨s, hs, rfl⟩
  all_goals exact Or.inr rfl

theorem interface_of_sequence {i : String} {calls : List Call} (h : CallSequence c i calls) : i ∈ c.interfaces := by
  cases h with
  | last ho => exact interface_of_offer ho
  | next ho _ => exact interface_of_offer ho

/-! ## The sequences -/

theorem sequence_at_step (h : Emission m c) {s : StepDecl} (hs : s ∈ c.steps) {calls : List Call} :
    CallSequence c s.interface calls ↔ ∃ rest, calls = .set s.method :: rest ∧ CallSequence c s.returns rest := by
  refine ⟨fun hseq => ?_, fun hr => ?_⟩
  · cases hseq with
    | last ho => cases ((offers_at_step h hs).mp ho).1
    | next ho hrest =>
      obtain ⟨rfl, rfl⟩ := (offers_at_step h hs).mp ho
      exact ⟨_, rfl, hrest⟩
  · obtain ⟨rest, rfl, hrest⟩ := hr
    exact .next ((offers_at_step h hs).mpr ⟨rfl, rfl⟩) hrest

/-- Any setters, then `build()`, and then whatever follows from the interface of the class's name, if there is one. -/
theorem sequence_at_terminal (h : Emission m c) {calls : List Call} :
    CallSequence c c.terminal calls ↔ ∃ (later : List String) (rest : List Call),
      (∀ x ∈ later, x ∈ c.setterMethods) ∧ (rest = [] ∨ CallSequence c c.name rest) ∧
        calls = later.map .set ++ .build :: rest := by
  refine ⟨fun hseq => ?_, fun hr => ?_⟩
  · induction calls with
    | nil => cases hseq
    | cons call calls ih =>
      cases hseq with
      | last ho => exact ⟨[], [], by simp, Or.inl rfl, rfl⟩
      | next ho hrest =>
        rcases (offers_at_terminal h).mp ho with ⟨rfl, rfl⟩ | ⟨⟨x, hx, rfl⟩, rfl⟩
        · exact ⟨[], calls, by simp, Or.inr hrest, rfl⟩
        · obtain ⟨later, rest, hlater, hend, rfl⟩ := ih hrest
          refine ⟨x :: later, rest, fun y hy => ?_, hend, rfl⟩
          rcases List.mem_cons.mp hy with rfl | hy
          · exact hx
          · exact hlater y hy
  · obtain ⟨later, rest, hlater, hend, rfl⟩ := hr
    have hbuild : (c.terminal, .build, c.name) ∈ c.offers := (offers_at_terminal h).mpr (Or.inl ⟨rfl, rfl⟩)
    induction later with
    | nil =>
      rcases hend with rfl | hrest
      · exact .last hbuild
      · exact .next hbuild hrest
    | cons x later ih =>
      have hx := hlater x (List.mem_cons_self ..)
      exact .next ((offers_at_terminal h).mpr (Or.inr ⟨⟨x, hx, rfl⟩, rfl⟩))
        (ih (fun y hy => hlater y (List.mem_cons_of_mem _ hy)))

/-- Where a chain of members is entered. -/
def entryOf : List Member → String
  | [] => buildInterface
  | x :: _ => x.stepName

/-- From the entry of any rest of the chain: the steps of that rest in order, then what the terminal step allows. -/
theorem sequence_of_chain (h : Emission m c) :
    ∀ (chain : List Member), (∀ k ∈ Builder.contracts chain, stepDecl k ∈ c.steps) → ∀ calls : List Call,
      (CallSequence c (entryOf chain) calls ↔ ∃ rest, CallSequence c c.terminal rest ∧
        calls = (chain.map (·.names.step)).map .set ++ rest) := by
  intro chain
  induction chain with
  | nil =>
    intro _ calls
    show CallSequence c buildInterface calls ↔ _
    simp [h.terminal]
  | cons x chain ih =>
    intro hin calls
    rw [Builder.contracts_cons] at hin
    have hx : stepDecl ⟨x, chain.head?⟩ ∈ c.steps := hin _ (List.mem_cons_self ..)
    have hreturns : (stepDecl ⟨x, chain.head?⟩).returns = entryOf chain := by cases chain <;> rfl
    have ih := ih (fun k hk => hin k (List.mem_cons_of_mem _ hk))
    show CallSequence c (stepDecl ⟨x, chain.head?⟩).interface calls ↔ _
    rw [sequence_at_step h hx, hreturns]
    refine ⟨fun h => ?_, fun h => ?_⟩
    · obtain ⟨_, rfl, hchain⟩ := h
      obtain ⟨rest, hrest, rfl⟩ := (ih _).mp hchain
      exact ⟨rest, hrest, rfl⟩
    · obtain ⟨rest, hrest, rfl⟩ := h
      exact ⟨_, rfl, (ih _).mpr ⟨rest, hrest, rfl⟩⟩

/-- Every interface of a rest of the chain has a way to `build()`. -/
theorem exists_sequence_of_chain (h : Emission m c) :
    ∀ (chain : List Member), (∀ k ∈ Builder.contracts chain, stepDecl k ∈ c.steps) →
      ∀ i ∈ chain.map Member.stepName ++ [buildInterface], ∃ calls, CallSequence c i calls := by
  intro chain
  induction chain with
  | nil =>
    intro _ i hi
    obtain rfl : i = buildInterface := by simpa using hi
    exact ⟨[.build], h.terminal ▸ (sequence_at_terminal h).mpr ⟨[], [], by simp, Or.inl rfl, rfl⟩⟩
  | cons x chain ih =>
    intro hin i hi
    have hrest := fun k hk => hin k (Builder.contracts_cons x chain ▸ List.mem_cons_of_mem _ hk)
    rcases List.mem_cons.mp hi with rfl | hi
    · obtain ⟨calls, hcalls⟩ := ih hrest buildInterface (by simp)
      exact ⟨_, (sequence_of_chain h (x :: chain) hin _).mpr ⟨calls, h.terminal ▸ hcalls, rfl⟩⟩
    · exact ih hrest i hi

/-! ## The sequences of a model -/

/-- The setters that a model's terminal step should have: for its identity, and for its other nullable fields. -/
def setterNames (m : Model) : List String :=
  (m.fields.filter (fun f => f.isIdentity || f.free)).map Field.javaName

theorem mem_setterMethods (h : Emission m c) {x : String} : x ∈ c.setterMethods ↔ x ∈ setterNames m := by
  have hid := isIdentity_identity h
  have hmem := identity_mem h
  have hset : ∀ y ∈ c.members, y.setter.method = y.field.javaName := fun y hy => h.stepName y hy
  simp only [ClassDecl.setterMethods, setterNames, h.setters, ← h.fields, List.mem_cons, List.mem_map,
    List.mem_filter, Bool.or_eq_true]
  refine ⟨fun hr => ?_, fun hr => ?_⟩
  · rcases hr with rfl | ⟨_, ⟨y, ⟨hy, hfree⟩, rfl⟩, rfl⟩
    · exact ⟨_, ⟨⟨_, hmem, rfl⟩, Or.inl hid⟩, (h.stepName _ hmem).symm⟩
    · exact ⟨_, ⟨⟨_, hy, rfl⟩, Or.inr hfree⟩, (hset y hy).symm⟩
  · rcases hr with ⟨_, ⟨⟨y, hy, rfl⟩, hid' | hfree⟩, rfl⟩
    · -- Two fields of the identity's name have its method in common.
      left
      rw [h.stepName _ hmem, Field.javaName, Field.javaName, isIdentity_iff.mp hid', isIdentity_iff.mp hid]
    · exact Or.inr ⟨_, ⟨y, ⟨hy, hfree⟩, rfl⟩, hset y hy⟩

theorem map_step_chained (h : Emission m c) :
    (c.members.filter (·.field.chained)).map (·.names.step) = (m.fields.filter Field.chained).map Field.javaName := by
  rw [← h.fields, List.filter_map, List.map_map]
  simp only [Function.comp_def]
  refine List.map_congr_left (fun x hx => ?_)
  rw [h.stepName x (List.mem_filter.mp hx).1]

theorem nodup_javaNames (h : Emission m c) : (m.fields.map Field.javaName).Nodup := by
  have names : c.members.map (·.names.member) = c.members.map (·.field.javaName) :=
    List.map_congr_left (fun x hx => by rw [h.memberName x hx])
  rw [← h.fields, List.map_map, Function.comp_def, ← names]
  exact h.distinct

theorem entry_eq (h : Emission m c) : c.entry = entryOf (c.members.filter (·.field.chained)) := by
  rw [h.entry, h.steps]
  cases c.members.filter (·.field.chained) with
  | nil => rfl
  | cons x xs =>
    rw [Builder.contracts_cons]
    rfl

/-- Every required field once, in declaration order, then setters, then `build()`. -/
def StepsThenSetters (m : Model) (calls : List Call) : Prop :=
  ∃ later : List String, (∀ x ∈ later, x ∈ setterNames m) ∧
    calls = ((m.fields.filter Field.chained).map Field.javaName ++ later).map .set ++ [.build]

/-- The steps of a model, then what its terminal step allows. -/
theorem sequence_at_entry (h : Emission m c) {calls : List Call} :
    CallSequence c c.entry calls ↔ ∃ (later : List String) (rest : List Call),
      (∀ x ∈ later, x ∈ setterNames m) ∧ (rest = [] ∨ CallSequence c c.name rest) ∧
        calls = ((m.fields.filter Field.chained).map Field.javaName ++ later).map .set ++ .build :: rest := by
  rw [entry_eq h, sequence_of_chain h _ (fun k hk => h.steps ▸ List.mem_map_of_mem hk), map_step_chained h]
  simp only [sequence_at_terminal h, mem_setterMethods h]
  refine ⟨fun hr => ?_, fun hr => ?_⟩
  · obtain ⟨_, ⟨later, rest, hlater, hend, rfl⟩, rfl⟩ := hr
    exact ⟨later, rest, hlater, hend, by simp⟩
  · obtain ⟨later, rest, hlater, hend, rfl⟩ := hr
    exact ⟨_, ⟨later, rest, hlater, hend, rfl⟩, by simp⟩

theorem sequence_of_stepsThenSetters (h : Emission m c) {calls : List Call} (hcalls : StepsThenSetters m calls) :
    CallSequence c c.entry calls := by
  obtain ⟨later, hlater, rfl⟩ := hcalls
  exact (sequence_at_entry h).mpr ⟨later, [], hlater, Or.inl rfl, rfl⟩

/-- A second `build()` needs an interface to be called on. -/
theorem only_stepsThenSetters_iff (h : Emission m c) :
    (∀ calls, CallSequence c c.entry calls → StepsThenSetters m calls) ↔ c.name ∉ c.interfaces := by
  refine ⟨fun honly hname => ?_, fun hname calls hcalls => ?_⟩
  · obtain ⟨rest, hrest⟩ := exists_sequence_of_chain h _ (fun k hk => h.steps ▸ List.mem_map_of_mem hk) c.name
      (interfaces_eq h ▸ hname)
    obtain ⟨later, -, hcalls⟩ := honly _ ((sequence_at_entry h).mpr ⟨[], rest, by simp, Or.inr hrest, rfl⟩)
    simp only [List.append_nil, List.map_append, List.append_assoc, List.append_cancel_left_eq] at hcalls
    -- The first call behind the steps is `build()`, so no setter is among them and nothing can follow.
    cases later with
    | nil =>
      obtain rfl : rest = [] := by simpa using hcalls
      cases hrest
    | cons x later => cases hcalls
  · obtain ⟨later, rest, hlater, rfl | hrest, rfl⟩ := (sequence_at_entry h).mp hcalls
    · exact ⟨later, hlater, rfl⟩
    · exact absurd (interface_of_sequence hrest) hname

/-- Whatever model is emitted, its builder can be called with every required field once, in declaration order, then
    setters, then `build()`, and in no other way exactly when the class has the name of none of its interfaces. After
    any requests for class names, it has one when its Pascal name is that of the terminal interface or of a step of
    its own chain, and it is the first to be given that name. -/
theorem call_sequences_of_emitted_class {s : Settings} {mapper : TypeMapper} {m : Model} {σ τ : Session}
    {out : String × Imports} (h : Yields (classText s mapper m) σ out τ) :
    ∃ c n, Yields (ClassDecl.ofModel (commented s) mapper m) σ c τ ∧ out.1 = c.source ∧ m.name = .str n ∧
      c.interfaces.Nodup ∧ (m.fields.map Field.javaName).Nodup ∧
      (m.fields.filter Field.chained = [] → c.entry = c.terminal) ∧
      (∀ calls, StepsThenSetters m calls → CallSequence c c.entry calls) ∧
      ((∀ calls, CallSequence c c.entry calls → StepsThenSetters m calls) ↔ c.name ∉ c.interfaces) ∧
      ∀ D, Numbered rules D σ.names → (c.name ∈ c.interfaces ↔ rank (pascalBase rules) (ask D n) n = 0 ∧
        (styled .pascal n = buildInterface ∨ ∃ f ∈ m.fields, f.chained = true ∧ styled .pascal n = f.stepInterface)) := by
  obtain ⟨c, hc, rfl⟩ := yields_classText.mp h
  have he := emission_of_yields hc
  obtain ⟨n, hn⟩ := name_of_yields_ofModel hc
  refine ⟨c, n, hc, rfl, hn, nodup_interfaces he, nodup_javaNames he, fun hnone => ?_,
    fun calls => sequence_of_stepsThenSetters he, only_stepsThenSetters_iff he,
    fun D hσ => name_mem_interfaces_iff hσ hc hn⟩
  have : c.members.filter (·.field.chained) = [] := by
    rw [← he.fields, List.filter_map, List.map_eq_nil_iff] at hnone
    exact hnone
  rw [entry_eq he, this, he.terminal]
  rfl

/-- The required title and owner come first and in this order, and a build before them is no call sequence. The class
    of the other model has the name of its terminal interface, and what its builder builds can be built again. -/
theorem call_sequences_of_task_and_buildStep :
    (∃ out τ c, Yields (classText {} taskMapper task) {} out τ ∧
      Yields (ClassDecl.ofModel (commented {}) taskMapper task) {} c τ ∧ out.1 = c.source ∧
      CallSequence c c.entry [.set "title", .set "owner", .set "dueAt", .set "id", .set "dueAt", .build] ∧
      ¬ CallSequence c c.entry [.set "title", .build]) ∧
    ∃ out τ c, Yields (classText {} taskMapper buildStep) {} out τ ∧
      Yields (ClassDecl.ofModel (commented {}) taskMapper buildStep) {} c τ ∧ out.1 = c.source ∧
      CallSequence c c.entry [.set "uuid", .build, .build] ∧ ¬ StepsThenSetters buildStep [.set "uuid", .build, .build] ∧
      ¬ ∀ calls, CallSequence c c.entry calls → StepsThenSetters buildStep calls := by
  have hnew : Numbered rules [] ({} : Session).names := numbered_nil
  refine ⟨?_, ?_⟩
  · obtain ⟨out, τ, h⟩ := exists_yields_of_succeeds
      (show succeeds (classText {} taskMapper task) {} = true by decide +kernel)
    obtain ⟨c, n, hc, hsource, hn, -, -, -, hcalls, honly, hname⟩ := call_sequences_of_emitted_class h
    obtain rfl : "Task" = n := Json.str.inj hn
    have hrequired : (task.fields.filter Field.chained).map Field.javaName = ["title", "owner"] := by decide +kernel
    have hsetters : setterNames task = ["id", "dueAt"] := by decide +kernel
    have hfree : c.name ∉ c.interfaces := by
      rw [hname [] hnew]
      decide +kernel
    refine ⟨out, τ, c, h, hc, hsource, hcalls _ ⟨["dueAt", "id", "dueAt"], ?_, ?_⟩, fun hcall => ?_⟩
    · rw [hsetters]
      decide
    · rw [hrequired]
      rfl
    · obtain ⟨later, -, hcall⟩ := honly.mpr hfree _ hcall
      rw [hrequired] at hcall
      cases hcall
  · obtain ⟨out, τ, h⟩ := exists_yields_of_succeeds
      (show succeeds (classText {} taskMapper buildStep) {} = true by decide +kernel)
    obtain ⟨c, n, hc, hsource, hn, -, -, -, -, honly, hname⟩ := call_sequences_of_emitted_class h
    obtain rfl : "IBuildStep" = n := Json.str.inj hn
    have he := emission_of_yields hc
    have hrequired : (buildStep.fields.filter Field.chained).map Field.javaName = ["uuid"] := by decide +kernel
    have hcaught : c.name ∈ c.interfaces := by
      rw [hname [] hnew]
      decide +kernel
    have hback : c.name = c.terminal := by
      rw [name_eq_given hnew hc hn, he.terminal]
      decide +kernel
    have hagain : CallSequence c c.name [.build] :=
      hback ▸ (sequence_at_terminal he).mpr ⟨[], [], by simp, Or.inl rfl, rfl⟩
    refine ⟨out, τ, c, h, hc, hsource, (sequence_at_entry he).mpr ⟨[], [.build], by simp, Or.inr hagain, ?_⟩,
      fun hcalls => ?_, mt honly.mp (not_not_intro hcaught)⟩
    · rw [hrequired]
      rfl
    · obtain ⟨later, -, hcalls⟩ := hcalls
      rw [hrequired] at hcalls
      cases later <;> cases hcalls

end SchemaForge.Java

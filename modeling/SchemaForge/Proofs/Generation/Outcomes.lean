import SchemaForge.Proofs.Generation.TwoRuns

/-
Passes that cannot fail. `Delivers p P`: whatever its session is, the pass `p` ends with a result, and `P` holds of it.
There is one rule for each way a pass is put together.

A pass fails, then, as its first part that fails: `outcome_bind` goes past a part that ends with a result, and
`outcome_bind_error` stops at one that does not. If what is behind the first part only works on its result, the pass
fails as that part does (`outcome_bind_map`). A pass along a list fails at the first element that is refused
(`outcome_mapM_of_refused`), and a generation as the pass of its mode (`exists_generate_eq`).
-/

namespace SchemaForge.Generation.Pass

variable {α β : Type} {P : α → Prop} {Q : β → Prop}

def Delivers (p : Pass α) (P : α → Prop) : Prop := ∀ s, ∃ a t, Yields p s a t ∧ P a

theorem delivers_pure {a : α} (h : P a) : Delivers (pure a) P := fun s => ⟨a, s, yields_pure.mpr ⟨rfl, rfl⟩, h⟩

theorem delivers_bind {p : Pass α} {f : α → Pass β} (hp : Delivers p P) (hf : ∀ a, P a → Delivers (f a) Q) :
    Delivers (p >>= f) Q := by
  intro s
  obtain ⟨a, t, hpa, ha⟩ := hp s
  obtain ⟨b, u, hfb, hb⟩ := hf a ha t
  exact ⟨b, u, yields_bind.mpr ⟨a, t, hpa, hfb⟩, hb⟩

theorem delivers_ofFault {e : Except Fault α} {a : α} (he : e = .ok a) (ha : P a) : Delivers (ofFault e) P :=
  fun s => ⟨a, s, yields_ofFault.mpr ⟨he, rfl⟩, ha⟩

theorem delivers_note (level : Level) (text : String) : Delivers (note level text) fun _ => True :=
  fun _ => ⟨(), _, yields_note.mpr rfl, trivial⟩

/-- A request that is made for a text is always answered. -/
theorem delivers_assignName (rules : Naming.Rules) (n : String) (style : Naming.Case) (suffix : String) :
    Delivers (assignName rules (.str n) style suffix) fun _ => True :=
  fun _ => ⟨_, _, rfl, trivial⟩

theorem delivers_mapM {f : α → Pass β} {xs : List α} (h : ∀ x ∈ xs, Delivers (f x) Q) :
    Delivers (xs.mapM f) fun ys => ∀ y ∈ ys, Q y := by
  induction xs with
  | nil =>
    rw [List.mapM_nil]
    exact delivers_pure fun y hy => by cases hy
  | cons x xs ih =>
    rw [List.mapM_cons]
    refine delivers_bind (h x (List.mem_cons_self ..)) fun y hy => ?_
    refine delivers_bind (ih fun x' hx' => h x' (List.mem_cons_of_mem _ hx')) fun ys hys => delivers_pure ?_
    exact List.forall_mem_cons.mpr ⟨hy, hys⟩

/-! ## The first failure -/

theorem exists_yields_of_outcome {p : Pass α} {s : Session} {a : α} (h : outcome p s = .ok a) : ∃ t, Yields p s a t :=
  ⟨_, Prod.ext h rfl⟩

theorem outcome_bind {p : Pass α} {f : α → Pass β} {s t : Session} {a : α} (h : Yields p s a t) :
    outcome (p >>= f) s = outcome (f a) t := by
  unfold outcome
  rw [run_bind, show (p.run.run s : Id _) = _ from h]

theorem outcome_bind_error {p : Pass α} {f : α → Pass β} {s : Session} {e : Failure} (h : outcome p s = .error e) :
    outcome (p >>= f) s = .error e := by
  unfold outcome at h ⊢
  rw [run_bind]
  cases hrun : (p.run.run s : Id _) with
  | mk r t =>
    rw [hrun] at h
    simp only at h
    rw [h]

theorem outcome_bind_map {p : Pass α} {f : α → Pass β} {w : α → β} (hf : ∀ a s, ∃ t, Yields (f a) s (w a) t)
    (s : Session) : outcome (p >>= f) s = (outcome p s).map w := by
  cases hp : outcome p s with
  | error e => exact outcome_bind_error hp
  | ok a =>
    obtain ⟨t, hpa⟩ := exists_yields_of_outcome hp
    obtain ⟨u, hfa⟩ := hf a t
    rw [outcome_bind hpa]
    exact congrArg Prod.fst hfa

/-- Along a list, the first element that is refused ends the pass. -/
theorem outcome_mapM_of_refused {f : α → Pass β} {refused : α → Bool} {e : α → Failure} {xs : List α} {x : α}
    (hpasses : ∀ y ∈ xs, refused y = false → Delivers (f y) fun _ => True)
    (hfails : ∀ y ∈ xs, refused y = true → ∀ s, outcome (f y) s = .error (e y)) (hx : xs.find? refused = some x)
    (s : Session) : outcome (xs.mapM f) s = .error (e x) := by
  induction xs generalizing s with
  | nil => cases hx
  | cons y ys ih =>
    obtain ⟨hpass, hpasses⟩ := List.forall_mem_cons.mp hpasses
    obtain ⟨hfail, hfails⟩ := List.forall_mem_cons.mp hfails
    rw [List.mapM_cons]
    cases hy : refused y with
    | true =>
      obtain rfl : y = x := Option.some.inj ((List.find?_cons_of_pos hy).symm.trans hx)
      exact outcome_bind_error (hfail hy s)
    | false =>
      obtain ⟨b, t, hb, -⟩ := hpass hy s
      rw [outcome_bind hb]
      rw [List.find?_cons_of_neg (Bool.eq_false_iff.mp hy)] at hx
      exact outcome_bind_error (ih hpasses hfails hx t)

/-! ## A generation -/

theorem generate_eq_outcome (g : Generator) (schema : Schema) (mode : Option Mode) :
    (g.generate schema mode).1 = outcome (g.textPass schema mode) { names := g.names } := rfl

/-- With a mode that is asked for, `generate` ends as its pass does. A text is handed out tidied. -/
theorem exists_generate_eq (g : Generator) (mode : Mode) :
    ∃ s, ∀ schema, (g.generate schema (some mode)).1 = (outcome (g.modePass schema mode) s).map tidy := by
  obtain ⟨s, hnoted⟩ : ∃ s, Yields (Pass.note .info ("Generating " ++ mode.name ++ " (" ++ g.backend.language ++ ")"))
      { names := g.names } () s := ⟨_, yields_note.mpr rfl⟩
  refine ⟨s, fun schema => ?_⟩
  rw [generate_eq_outcome, Generator.textPass, pure_bind, outcome_bind hnoted]
  exact outcome_bind_map (fun raw t => ⟨t, yields_pure.mpr ⟨rfl, rfl⟩⟩) s

end SchemaForge.Generation.Pass

import Mathlib.Data.List.Nodup
import SchemaForge.Proofs.Java.ClassText
import SchemaForge.Proofs.Java.DerivedNames
import SchemaForge.Proofs.Java.Emission

/-
What an emitted class does when it runs, read off its declaration. `none` is null.
  (1) A step method refuses null and stores its argument in the slot it names; a setter stores any argument. The
      setter of the identity stores its argument too, and then throws unless it is an accepted id.
  (2) `build()` hands the slots to the constructor by position. The identity goes by a local variable of its name,
      which holds the slot, or a fresh id when the slot is null.
  (3) The constructor assigns to each member the parameter of the same name.
  (4) A getter returns its member.

Members, slots, arguments, parameters and getters are five lists that meet by position or by name. Proved, for every
class that is emitted: they list the fields in declaration order, and whatever is passed on the way to `build()` comes
out of the getter of its own field (`getters_of_emitted_class`).
-/

namespace SchemaForge.Java

open Generation Generation.Pass

variable {V : Type}

/-- What a builder or an object holds under each name. -/
abbrev Store (V : Type) := String → Option V

def Store.assign (b : Store V) (name : String) (v : Option V) : Store V := fun n => if n = name then v else b n

/-- A method call with its argument. -/
abbrev Passing (V : Type) := String × Option V

namespace ClassDecl

/-- The builder after a call, and whether the call returned. -/
def invoke (c : ClassDecl) (accepts : V → Bool) (b : Store V) (call : Passing V) : Store V × Bool :=
  match c.steps.find? (·.method == call.1) with
  | some s => if call.2.isSome then (b.assign s.slot call.2, true) else (b, false)
  | none =>
    match c.setters.find? (·.method == call.1) with
    | some s => (b.assign s.slot call.2, true)
    | none =>
      if call.1 = c.identity.names.step then (b.assign c.identity.names.member call.2, call.2.any accepts)
      else (b, false)

/-- A chain of calls has a result when each of them returns. -/
def run (c : ClassDecl) (accepts : V → Bool) : Store V → List (Passing V) → Option (Store V)
  | b, [] => some b
  | b, call :: calls =>
    match c.invoke accepts b call with
    | (b', true) => c.run accepts b' calls
    | (_, false) => none

/-- What a name stands for inside `build()`. -/
def argument (c : ClassDecl) (fresh : V) (b : Store V) (name : String) : Option V :=
  if name = c.identity.names.member then some ((b name).getD fresh) else b name

def construct (c : ClassDecl) (arguments : List (Option V)) : Store V :=
  c.members.foldl (fun o x => o.assign x.names.member ((c.parameterNames.zip arguments).lookup x.names.member).join)
    (fun _ => none)

def build (c : ClassDecl) (fresh : V) (b : Store V) : Store V :=
  c.construct (c.newArguments.map (c.argument fresh b))

/-- The result of a getter, if the class has it. -/
def get (c : ClassDecl) (o : Store V) (getter : String) : Option (Option V) :=
  (c.members.find? (·.names.getter == getter)).map (fun x => o x.names.member)

end ClassDecl

/-- What was passed last under a name, and what was there before if nothing was. -/
def lastPassed (name : String) (before : Option V) (calls : List (Passing V)) : Option V :=
  calls.foldl (fun held call => if call.1 = name then call.2 else held) before

/-! ## Fields and their names -/

theorem javaName_eq_member (f : Field) : f.javaName = (DerivedNames.ofText f.name.display).member := by
  rw [Field.javaName, DerivedNames.ofText]

theorem getterName_eq_getter (f : Field) : f.getterName = (DerivedNames.ofText f.name.display).getter := by
  rw [Field.getterName, DerivedNames.ofText]

/-- Fields with one getter have one member. -/
theorem javaName_eq_of_getterName_eq {f g : Field} (h : f.getterName = g.getterName) : f.javaName = g.javaName := by
  rw [getterName_eq_getter, getterName_eq_getter, DerivedNames.getter_eq_iff] at h
  rw [javaName_eq_member, javaName_eq_member, DerivedNames.member_eq_iff, h]

variable {m : Model} {c : ClassDecl}

theorem map_memberName (h : Emission m c) : c.members.map (·.names.member) = m.fields.map Field.javaName := by
  rw [← h.fields, List.map_map]
  simp only [Function.comp_def]
  exact List.map_congr_left (fun x hx => h.memberName x hx)

/-- A name belongs to one member only. -/
theorem field_eq_of_javaName_eq (h : Emission m c) {x y : Member} (hx : x ∈ c.members) (hy : y ∈ c.members)
    (he : x.field.javaName = y.field.javaName) : x = y := by
  have hn : x.names.member = y.names.member := by
    rw [h.memberName x hx, h.memberName y hy]
    exact he
  exact List.inj_on_of_nodup_map h.distinct hx hy hn

theorem exists_member (h : Emission m c) {f : Field} (hf : f ∈ m.fields) : ∃ x ∈ c.members, x.field = f := by
  rw [← h.fields] at hf
  exact List.mem_map.mp hf

theorem not_chained_of_free {f : Field} (hf : f.free = true) : f.chained = false := by
  unfold Field.free at hf
  unfold Field.chained
  cases hr : f.required with
  | false => rfl
  | true =>
    rw [hr] at hf
    cases hf

theorem not_chained_of_isIdentity {f : Field} (hid : f.isIdentity = true) : f.chained = false := by
  rw [Field.chained, hid, Bool.not_true, Bool.and_false]

theorem not_free_of_isIdentity {f : Field} (hid : f.isIdentity = true) : f.free = false := by
  rw [Field.free, hid, Bool.not_true, Bool.and_false]

/-! ## One call -/

/-- The steps, each with the member it was made for. -/
theorem mem_steps (h : Emission m c) {s : StepDecl} :
    s ∈ c.steps ↔ ∃ k ∈ Builder.contracts (c.members.filter (·.field.chained)), stepDecl k = s := by
  rw [h.steps, List.mem_map]

theorem step_of_chained (h : Emission m c) {x : Member} (hx : x ∈ c.members) (hc : x.field.chained = true) :
    ∃ s ∈ c.steps, s.method = x.field.javaName := by
  have items := Builder.map_item_contracts (c.members.filter (·.field.chained))
  have hmem : x ∈ (Builder.contracts (c.members.filter (·.field.chained))).map (·.item) := by
    rw [items]
    exact List.mem_filter.mpr ⟨hx, hc⟩
  obtain ⟨k, hk, rfl⟩ := List.mem_map.mp hmem
  exact ⟨stepDecl k, (mem_steps h).mpr ⟨k, hk, rfl⟩, h.stepName _ hx⟩

theorem chained_of_step (h : Emission m c) {s : StepDecl} (hs : s ∈ c.steps) :
    ∃ x ∈ c.members, x.field.chained = true ∧ s.method = x.field.javaName ∧ s.slot = x.field.javaName := by
  obtain ⟨k, hk, rfl⟩ := (mem_steps h).mp hs
  have hmem : k.item ∈ c.members.filter (·.field.chained) := by
    rw [← Builder.map_item_contracts (c.members.filter (·.field.chained))]
    exact List.mem_map_of_mem hk
  obtain ⟨hx, hc⟩ := List.mem_filter.mp hmem
  exact ⟨k.item, hx, hc, h.stepName _ hx, h.memberName _ hx⟩

theorem free_of_setter (h : Emission m c) {s : SetterDecl} (hs : s ∈ c.setters) :
    ∃ x ∈ c.members, x.field.free = true ∧ s.method = x.field.javaName ∧ s.slot = x.field.javaName := by
  rw [h.setters] at hs
  obtain ⟨x, hx, rfl⟩ := List.mem_map.mp hs
  obtain ⟨hx, hfree⟩ := List.mem_filter.mp hx
  exact ⟨x, hx, hfree, h.stepName x hx, h.memberName x hx⟩

/-- The step that is found under a name stores in the slot of that name. -/
theorem slot_of_step (h : Emission m c) {n : String} {s : StepDecl} (hs : c.steps.find? (·.method == n) = some s) :
    s.slot = n := by
  obtain ⟨_, -, -, hmethod, hslot⟩ := chained_of_step h (List.mem_of_find?_eq_some hs)
  have hn := List.find?_some hs
  rw [beq_iff_eq] at hn
  rw [hslot, ← hmethod, hn]

theorem slot_of_setter (h : Emission m c) {n : String} {s : SetterDecl} (hs : c.setters.find? (·.method == n) = some s) :
    s.slot = n := by
  obtain ⟨_, -, -, hmethod, hslot⟩ := free_of_setter h (List.mem_of_find?_eq_some hs)
  have hn := List.find?_some hs
  rw [beq_iff_eq] at hn
  rw [hslot, ← hmethod, hn]

theorem no_step (h : Emission m c) {x : Member} (hx : x ∈ c.members) (hc : x.field.chained = false) :
    c.steps.find? (·.method == x.field.javaName) = none := by
  refine List.find?_eq_none.mpr (fun s hs he => ?_)
  obtain ⟨y, hy, hyc, hm, -⟩ := chained_of_step h hs
  rw [beq_iff_eq, hm] at he
  rw [field_eq_of_javaName_eq h hy hx he, hc] at hyc
  cases hyc

theorem no_setter (h : Emission m c) {x : Member} (hx : x ∈ c.members) (hf : x.field.free = false) :
    c.setters.find? (·.method == x.field.javaName) = none := by
  refine List.find?_eq_none.mpr (fun s hs he => ?_)
  obtain ⟨y, hy, hyf, hm, -⟩ := free_of_setter h hs
  rw [beq_iff_eq, hm] at he
  rw [field_eq_of_javaName_eq h hy hx he, hf] at hyf
  cases hyf

section Calls

variable {accepts : V → Bool} {b : Store V} {x : Member} {n : String}

/-! The methods of the builder are looked up by name: among the steps, then among the setters, then the identity. -/

theorem invoke_of_step {s : StepDecl} (hs : c.steps.find? (·.method == n) = some s) (v : V) :
    c.invoke accepts b (n, some v) = (b.assign s.slot (some v), true) := by
  unfold ClassDecl.invoke
  rw [hs]
  rfl

theorem invoke_of_setter {s : SetterDecl} (hnone : c.steps.find? (·.method == n) = none)
    (hs : c.setters.find? (·.method == n) = some s) (v : Option V) :
    c.invoke accepts b (n, v) = (b.assign s.slot v, true) := by
  unfold ClassDecl.invoke
  rw [hnone, hs]

theorem invoke_of_identity (hnone : c.steps.find? (·.method == n) = none)
    (hnone' : c.setters.find? (·.method == n) = none) (hn : n = c.identity.names.step) (v : Option V) :
    c.invoke accepts b (n, v) = (b.assign c.identity.names.member v, v.any accepts) := by
  unfold ClassDecl.invoke
  rw [hnone, hnone']
  exact if_pos hn

theorem invoke_chained (h : Emission m c) (hx : x ∈ c.members) (hc : x.field.chained = true) (v : V) :
    c.invoke accepts b (x.field.javaName, some v) = (b.assign x.field.javaName (some v), true) := by
  obtain ⟨s, hs, hm⟩ := step_of_chained h hx hc
  cases hfind : c.steps.find? (·.method == x.field.javaName) with
  | none =>
    have := List.find?_eq_none.mp hfind s hs
    rw [hm] at this
    exact absurd BEq.rfl this
  | some s' => rw [invoke_of_step hfind, slot_of_step h hfind]

theorem invoke_free (h : Emission m c) (hx : x ∈ c.members) (hf : x.field.free = true) (v : Option V) :
    c.invoke accepts b (x.field.javaName, v) = (b.assign x.field.javaName v, true) := by
  have hc := not_chained_of_free hf
  cases hfind : c.setters.find? (·.method == x.field.javaName) with
  | none =>
    have := List.find?_eq_none.mp hfind x.setter (h.setters ▸ List.mem_map_of_mem (List.mem_filter.mpr ⟨hx, hf⟩))
    have hm : x.setter.method = x.field.javaName := h.stepName x hx
    rw [hm] at this
    exact absurd BEq.rfl this
  | some s' => rw [invoke_of_setter (no_step h hx hc) hfind, slot_of_setter h hfind]

theorem identity_eq (h : Emission m c) (hx : x ∈ c.members) (hid : x.field.isIdentity = true) : x = c.identity := by
  refine field_eq_of_javaName_eq h hx (identity_mem h) ?_
  rw [Field.javaName, Field.javaName, isIdentity_iff.mp hid, isIdentity_iff.mp (isIdentity_identity h)]

theorem invoke_identity (h : Emission m c) (v : Option V) :
    c.invoke accepts b (c.identity.field.javaName, v) =
      (b.assign c.identity.field.javaName v, v.any accepts) := by
  have hid := isIdentity_identity h
  have hmem := identity_mem h
  rw [invoke_of_identity (no_step h hmem (not_chained_of_isIdentity hid))
    (no_setter h hmem (not_free_of_isIdentity hid)) (h.stepName _ hmem).symm, h.memberName _ hmem]

end Calls

/-! ## A chain of calls -/

/-- Calls that each store their argument leave in every slot what was passed last under its name. -/
theorem run_of_stores {accepts : V → Bool} :
    ∀ (calls : List (Passing V)) (b : Store V),
      (∀ call ∈ calls, ∀ b, c.invoke accepts b call = (b.assign call.1 call.2, true)) →
      c.run accepts b calls = some (fun n => lastPassed n (b n) calls) := by
  intro calls
  induction calls with
  | nil =>
    intro b _
    rfl
  | cons call calls ih =>
    intro b hstores
    unfold ClassDecl.run
    rw [hstores call (List.mem_cons_self ..) b]
    show c.run accepts (b.assign call.1 call.2) calls = _
    rw [ih _ (fun d hd => hstores d (List.mem_cons_of_mem _ hd))]
    refine congrArg some (funext fun n => ?_)
    show lastPassed n (if n = call.1 then call.2 else b n) calls =
      lastPassed n (if call.1 = n then call.2 else b n) calls
    simp only [eq_comm]

theorem lastPassed_append {n : String} {v : Option V} {calls later : List (Passing V)} :
    lastPassed n v (calls ++ later) = lastPassed n (lastPassed n v calls) later :=
  List.foldl_append

theorem lastPassed_of_not_mem {n : String} {v : Option V} {calls : List (Passing V)}
    (h : ∀ call ∈ calls, call.1 ≠ n) : lastPassed n v calls = v := by
  induction calls with
  | nil => rfl
  | cons call calls ih =>
    unfold lastPassed
    rw [List.foldl_cons, if_neg (h call (List.mem_cons_self ..))]
    exact ih (fun d hd => h d (List.mem_cons_of_mem _ hd))

/-- Passed once, or passed the same each time. -/
theorem lastPassed_of_mem {n : String} {v w : Option V} {calls : List (Passing V)} (hmem : (n, w) ∈ calls)
    (h : ∀ call ∈ calls, call.1 = n → call.2 = w) : lastPassed n v calls = w := by
  induction calls generalizing v with
  | nil => cases hmem
  | cons call calls ih =>
    unfold lastPassed
    rw [List.foldl_cons]
    by_cases hin : (n, w) ∈ calls
    · exact ih hin (fun d hd => h d (List.mem_cons_of_mem _ hd))
    · obtain rfl : (n, w) = call := (List.mem_cons.mp hmem).resolve_right hin
      rw [if_pos rfl]
      refine lastPassed_of_not_mem (fun d hd hdn => hin ?_)
      rw [← h d (List.mem_cons_of_mem _ hd) hdn, ← hdn]
      exact hd

/-! ## The object -/

theorem foldl_assign (value : String → Option V) {n : String} :
    ∀ (xs : List Member) (o : Store V), (xs.foldl (fun o x => o.assign x.names.member (value x.names.member)) o) n =
      if n ∈ xs.map (·.names.member) then value n else o n := by
  intro xs
  induction xs with
  | nil =>
    intro o
    rfl
  | cons x xs ih =>
    intro o
    rw [List.foldl_cons, ih, List.map_cons]
    by_cases hxs : n ∈ xs.map (·.names.member)
    · rw [if_pos hxs, if_pos (List.mem_cons_of_mem _ hxs)]
    · rw [if_neg hxs]
      by_cases hx : n = x.names.member
      · rw [if_pos (hx ▸ List.mem_cons_self ..), hx]
        exact if_pos rfl
      · rw [if_neg (by simp only [List.mem_cons, hx, hxs, or_self, not_false_iff])]
        exact if_neg hx

theorem lookup_zip_map {value : String → Option V} {n : String} :
    ∀ names : List String, n ∈ names → (names.zip (names.map value)).lookup n = some (value n) := by
  intro names
  induction names with
  | nil =>
    intro hn
    cases hn
  | cons k names ih =>
    intro hn
    rw [List.map_cons, List.zip_cons_cons, List.lookup_cons]
    by_cases hk : n = k
    · rw [hk, BEq.rfl]
    · rw [beq_eq_false_iff_ne.mpr hk]
      exact ih ((List.mem_cons.mp hn).resolve_left hk)

theorem newArguments_eq (h : Emission m c) : c.newArguments = c.parameterNames := by
  unfold ClassDecl.newArguments ClassDecl.parameterNames
  rw [h.slots, List.map_map]
  rfl

/-- By position and by name is the same way. -/
theorem build_eq (h : Emission m c) {fresh : V} {b : Store V} {n : String} (hn : n ∈ c.parameterNames) :
    c.build fresh b n = c.argument fresh b n := by
  unfold ClassDecl.build ClassDecl.construct
  rw [newArguments_eq h, foldl_assign (fun n => ((c.parameterNames.zip _).lookup n).join)]
  show (if n ∈ c.parameterNames then _ else none) = _
  rw [if_pos hn, lookup_zip_map _ hn]
  rfl

theorem get_eq (h : Emission m c) {o : Store V} {x : Member} (hx : x ∈ c.members) :
    c.get o x.field.getterName = some (o x.field.javaName) := by
  unfold ClassDecl.get
  cases hfind : c.members.find? (·.names.getter == x.field.getterName) with
  | none =>
    have := List.find?_eq_none.mp hfind x hx
    rw [h.getterName x hx] at this
    exact absurd BEq.rfl this
  | some y =>
    have hmem : y ∈ c.members := List.mem_of_find?_eq_some hfind
    have hy := List.find?_some hfind
    rw [beq_iff_eq, h.getterName y hmem] at hy
    rw [Option.map_some, h.memberName y hmem, javaName_eq_of_getterName_eq hy]

/-! ## What comes out -/

/-- A call that may follow the chain: a setter, or the identity's with an id that is accepted. -/
def Allowed (m : Model) (accepts : V → Bool) (call : Passing V) : Prop :=
  ∃ f ∈ m.fields, call.1 = f.javaName ∧ (f.free = true ∨ f.isIdentity = true ∧ ∃ v, call.2 = some v ∧ accepts v = true)

/-- The calls for the required fields, in declaration order. -/
def requiredCalls (m : Model) (given : Field → V) : List (Passing V) :=
  (m.fields.filter Field.chained).map (fun f => (f.javaName, some (given f)))

section Chain

variable {accepts : V → Bool} {given : Field → V} {later : List (Passing V)}

theorem run_of_allowed (h : Emission m c) (hlater : ∀ call ∈ later, Allowed m accepts call) (b : Store V) :
    c.run accepts b (requiredCalls m given ++ later) =
      some (fun n => lastPassed n (b n) (requiredCalls m given ++ later)) := by
  refine run_of_stores _ b (fun call hcall b => ?_)
  rcases List.mem_append.mp hcall with hcall | hcall
  · obtain ⟨f, hf, rfl⟩ := List.mem_map.mp hcall
    obtain ⟨hf, hc⟩ := List.mem_filter.mp hf
    obtain ⟨x, hx, rfl⟩ := exists_member h hf
    exact invoke_chained h hx hc _
  · obtain ⟨f, hf, hn, hkind⟩ := hlater call hcall
    obtain ⟨x, hx, rfl⟩ := exists_member h hf
    obtain ⟨n, v⟩ := call
    obtain rfl : n = x.field.javaName := hn
    rcases hkind with hfree | ⟨hid, w, rfl, hw⟩
    · exact invoke_free h hx hfree v
    · rw [identity_eq h hx hid, invoke_identity h, Option.any_some, hw]

/-- Fields of one name are one field. -/
theorem eq_of_javaName_eq (h : Emission m c) {f g : Field} (hf : f ∈ m.fields) (hg : g ∈ m.fields)
    (he : f.javaName = g.javaName) : f = g := by
  obtain ⟨x, hx, rfl⟩ := exists_member h hf
  obtain ⟨y, hy, rfl⟩ := exists_member h hg
  rw [field_eq_of_javaName_eq h hx hy he]

/-- Nothing that follows the chain touches a required field. -/
theorem passed_of_chained (h : Emission m c) (hlater : ∀ call ∈ later, Allowed m accepts call) {f : Field}
    (hf : f ∈ m.fields) (hc : f.chained = true) :
    lastPassed f.javaName none (requiredCalls m given ++ later) = some (given f) := by
  have hrequired : lastPassed f.javaName none (requiredCalls m given) = some (given f) := by
    refine lastPassed_of_mem (List.mem_map.mpr ⟨f, List.mem_filter.mpr ⟨hf, hc⟩, rfl⟩) ?_
    intro call hcall hn
    obtain ⟨g, hg, rfl⟩ := List.mem_map.mp hcall
    rw [eq_of_javaName_eq h (List.mem_filter.mp hg).1 hf hn]
  rw [lastPassed_append, hrequired]
  refine lastPassed_of_not_mem (fun call hcall hn => ?_)
  obtain ⟨g, hg, hgn, hkind⟩ := hlater call hcall
  obtain rfl := eq_of_javaName_eq h hf hg (hn.symm.trans hgn)
  rcases hkind with hfree | ⟨hid, -⟩
  · rw [not_chained_of_free hfree] at hc
    cases hc
  · rw [not_chained_of_isIdentity hid] at hc
    cases hc

/-- The chain touches required fields only. -/
theorem passed_of_not_chained (h : Emission m c) {f : Field} (hf : f ∈ m.fields) (hc : f.chained = false) :
    lastPassed f.javaName none (requiredCalls m given ++ later) = lastPassed f.javaName none later := by
  have hrequired : lastPassed f.javaName none (requiredCalls m given) = none := by
    refine lastPassed_of_not_mem (fun call hcall hn => ?_)
    obtain ⟨g, hg, rfl⟩ := List.mem_map.mp hcall
    obtain ⟨hg, hgc⟩ := List.mem_filter.mp hg
    rw [eq_of_javaName_eq h hg hf hn, hc] at hgc
    cases hgc
  rw [lastPassed_append, hrequired]

end Chain

/-- Of whatever model is emitted, every list of the declaration has the fields in order, and an object that was built
    through the chain of its required fields and any further calls gives each value back through its own getter. -/
theorem getters_of_emitted_class {s : Settings} {mapper : TypeMapper} {m : Model} {σ τ : Session}
    {out : String × Imports} (h : Yields (classText s mapper m) σ out τ) :
    ∃ c, Yields (ClassDecl.ofModel (commented s) mapper m) σ c τ ∧ out.1 = c.source ∧
      c.members.map (·.field) = m.fields ∧ c.slots.map (·.name) = m.fields.map Field.javaName ∧
      c.newArguments = m.fields.map Field.javaName ∧ c.parameterNames = m.fields.map Field.javaName ∧
      c.comparedGetters = m.fields.map Field.getterName ∧ c.hashedGetters = m.fields.map Field.getterName ∧
      ∀ (V : Type) (accepts : V → Bool) (fresh : V) (given : Field → V) (later : List (Passing V)),
        (∀ call ∈ later, Allowed m accepts call) →
        ∃ b, c.run accepts (fun _ => none) (requiredCalls m given ++ later) = some b ∧ ∀ f ∈ m.fields,
          (f.chained = true → c.get (c.build fresh b) f.getterName = some (some (given f))) ∧
          (f.free = true → c.get (c.build fresh b) f.getterName = some (lastPassed f.javaName none later)) ∧
          (f.isIdentity = true → c.get (c.build fresh b) f.getterName =
            some (some ((lastPassed f.javaName none later).getD fresh))) := by
  simp only [classText, yields_bind, yields_pure, yields_render] at h
  obtain ⟨c, τ', hc, text, _, ⟨htext, rfl⟩, rfl, rfl⟩ := h
  have he := emission_of_yields hc
  have hnames : c.parameterNames = m.fields.map Field.javaName := map_memberName he
  have harguments := newArguments_eq he
  have hgetters : c.members.map (·.names.getter) = m.fields.map Field.getterName := by
    rw [← he.fields, List.map_map]
    simp only [Function.comp_def]
    exact List.map_congr_left (fun x hx => he.getterName x hx)
  rw [render_classTemplate] at htext
  refine ⟨c, hc, (Except.ok.inj htext).symm, he.fields, harguments.trans hnames, harguments.trans hnames, hnames,
    hgetters, hgetters, ?_⟩
  intro V accepts fresh given later hlater
  refine ⟨_, run_of_allowed he hlater _, fun f hf => ?_⟩
  obtain ⟨x, hx, rfl⟩ := exists_member he hf
  have hn : x.field.javaName ∈ c.parameterNames := by
    rw [hnames]
    exact List.mem_map_of_mem hf
  have hid := List.find?_some he.identity
  rw [get_eq he hx, build_eq he hn, ClassDecl.argument, he.memberName _ (identity_mem he)]
  refine ⟨fun hc => ?_, fun hfree => ?_, fun hisId => ?_⟩
  · rw [passed_of_chained he hlater hf hc]
    split <;> rfl
  · have hother : x.field.javaName ≠ c.identity.field.javaName := by
      intro hsame
      rw [field_eq_of_javaName_eq he hx (identity_mem he) hsame, not_free_of_isIdentity hid] at hfree
      cases hfree
    rw [passed_of_not_chained he hf (not_chained_of_free hfree), if_neg hother]
  · rw [passed_of_not_chained he hf (not_chained_of_isIdentity hisId), if_pos (by rw [identity_eq he hx hisId])]

/-- The date is set and taken back and the id is set: each value comes out where it went in. -/
theorem getters_of_task :
    ∃ out τ c b, Yields (classText {} taskMapper task) {} out τ ∧
      Yields (ClassDecl.ofModel (commented {}) taskMapper task) {} c τ ∧
      c.run (· != "bad") (fun _ => none) [("title", some "t"), ("owner", some "o"), ("dueAt", some "d"),
        ("id", some "u"), ("dueAt", none)] = some b ∧
      c.get (c.build "fresh" b) "getTitle" = some (some "t") ∧ c.get (c.build "fresh" b) "getOwner" = some (some "o") ∧
      c.get (c.build "fresh" b) "getId" = some (some "u") ∧ c.get (c.build "fresh" b) "getDueAt" = some none := by
  obtain ⟨out, τ, h⟩ := exists_yields_of_succeeds
    (show succeeds (classText {} taskMapper task) {} = true by decide +kernel)
  obtain ⟨c, hc, -, -, -, -, -, -, -, hrun⟩ := getters_of_emitted_class h
  let given : Field → String := fun f => if f.javaName == "title" then "t" else "o"
  let later : List (Passing String) := [("dueAt", some "d"), ("id", some "u"), ("dueAt", none)]
  obtain ⟨title, htitle, htitle'⟩ : ∃ f ∈ task.fields, f.chained = true ∧ f.getterName = "getTitle" ∧
      given f = "t" := by
    decide +kernel
  obtain ⟨owner, howner, howner'⟩ : ∃ f ∈ task.fields, f.chained = true ∧ f.getterName = "getOwner" ∧
      given f = "o" := by
    decide +kernel
  obtain ⟨date, hdate, hdate'⟩ : ∃ f ∈ task.fields, f.free = true ∧ f.getterName = "getDueAt" ∧
      f.javaName = "dueAt" := by
    decide +kernel
  obtain ⟨id, hid, hid'⟩ : ∃ f ∈ task.fields, f.isIdentity = true ∧ f.getterName = "getId" ∧ f.javaName = "id" := by
    decide +kernel
  have hlater : ∀ call ∈ later, Allowed task (· != "bad") call := by
    intro call hcall
    simp only [later, List.mem_cons, List.not_mem_nil, or_false] at hcall
    rcases hcall with rfl | rfl | rfl
    · exact ⟨date, hdate, hdate'.2.2.symm, Or.inl hdate'.1⟩
    · exact ⟨id, hid, hid'.2.2.symm, Or.inr ⟨hid'.1, "u", rfl, by decide⟩⟩
    · exact ⟨date, hdate, hdate'.2.2.symm, Or.inl hdate'.1⟩
  have hrequired : requiredCalls task given = [("title", some "t"), ("owner", some "o")] := by decide +kernel
  obtain ⟨b, hb, hget⟩ := hrun String (· != "bad") "fresh" given later hlater
  refine ⟨out, τ, c, b, h, hc, ?_, ?_, ?_, ?_, ?_⟩
  · rw [hrequired] at hb
    exact hb
  · rw [← htitle'.2.1, (hget title htitle).1 htitle'.1, htitle'.2.2]
  · rw [← howner'.2.1, (hget owner howner).1 howner'.1, howner'.2.2]
  · rw [← hid'.2.1, (hget id hid).2.2 hid'.1, hid'.2.2]
    decide +kernel
  · rw [← hdate'.2.1, (hget date hdate).2.1 hdate'.1, hdate'.2.2]
    decide +kernel

end SchemaForge.Java

import Mathlib.Data.List.Nodup
import SchemaForge.Java.Backend
import SchemaForge.Proofs.Builder.Keys
import SchemaForge.Proofs.Generation.Yields

/-
What a class declaration is once a model has passed every check. `Emission m c` lists all that later proofs use
of `ClassDecl.ofModel`: the members are the fields of `m` in order under the names derived from theirs, the steps
and setters are those of the plan, no step interface repeats or is the terminal one, and no member name repeats.

`emission_of_yields`: a declaration that comes out of a pass has all of it.
-/

namespace SchemaForge

/-- The member, slot and method name of a field. It is the same for all proofs how names are converted. -/
@[irreducible]
def Field.javaName (f : Field) : String := Java.rules.convert f.name.display .camel Java.conflictSuffix

@[irreducible]
def Field.getterName (f : Field) : String := "get" ++ Java.rules.convert f.name.display .pascal ""

/-- The interface of the step that sets a field. -/
def Field.stepInterface (f : Field) : String := Java.stepInterfaceOf f.name.display

/-- A field that has to be set on the way to the terminal step. -/
def Field.chained (f : Field) : Bool := f.required && !f.isIdentity

/-- A field with a setter on the terminal step, apart from the identity. -/
def Field.free (f : Field) : Bool := !f.required && !f.isIdentity

namespace Java

open Generation Generation.Pass

structure Emission (m : Model) (c : ClassDecl) : Prop where
  fields : c.members.map (·.field) = m.fields
  memberName : ∀ x ∈ c.members, x.names.member = x.field.javaName
  stepName : ∀ x ∈ c.members, x.names.step = x.field.javaName
  getterName : ∀ x ∈ c.members, x.names.getter = x.field.getterName
  steps : c.steps = (Builder.contracts (c.members.filter (·.field.chained))).map stepDecl
  terminal : c.terminal = buildInterface
  setters : c.setters = (c.members.filter (·.field.free)).map Member.setter
  entry : c.entry = match c.steps with
    | [] => buildInterface
    | s :: _ => s.interface
  slots : c.slots = c.members.map Member.slot
  identity : c.members.find? (·.field.isIdentity) = some c.identity
  keys : Builder.checkKeys [buildInterface] [] ((c.members.filter (·.field.chained)).map Member.stepName) = .ok ()
  distinct : (c.members.map (·.names.member)).Nodup

/-! ## Names of one field -/

theorem toText_eq_ok {v : Json} {s : String} (h : v.toText = .ok s) : v = .str s := by
  cases v <;> cases h
  rfl

theorem convertMember_eq {v : Json} {style : Naming.Case} {suffix n : String}
    (h : convertMember v style suffix = .ok n) : n = rules.convert v.display style suffix := by
  unfold convertMember at h
  cases hv : v.toText with
  | error e =>
    rw [hv] at h
    cases h
  | ok s =>
    rw [hv] at h
    cases h
    rw [toText_eq_ok hv]
    rfl

theorem getterName_eq {v : Json} {n : String} (h : getterName v = .ok n) :
    n = "get" ++ rules.convert v.display .pascal "" := by
  unfold getterName at h
  cases hc : convertMember v .pascal "" with
  | error e =>
    rw [hc] at h
    cases h
  | ok g =>
    rw [hc] at h
    cases h
    rw [convertMember_eq hc]

/-- A member is its field under the names derived from the field's, with the type that the field resolves to. -/
theorem yields_member {mapper : TypeMapper} {f : Field} {s t : Session} {x : Member}
    (h : Yields (member mapper f) s x t) :
    x.field = f ∧ x.names.member = f.javaName ∧ x.names.step = f.javaName ∧ x.names.getter = f.getterName ∧
      ∃ u, Yields (mapper.resolve f) s x.names.type u ∧ Yields (fieldAnnotations f) u x.annotations t := by
  simp only [member, TypeMapper.fieldNames, yields_bind, yields_pure, yields_ofFault] at h
  obtain ⟨names, u, ⟨m, s₁, ⟨hm, rfl⟩, g, s₂, ⟨hg, rfl⟩, q, s₃, ⟨-, rfl⟩, type, s₄, htype, rfl, rfl⟩, annotations,
    s₅, hann, rfl, rfl⟩ := h
  rw [Field.javaName, Field.getterName]
  exact ⟨rfl, convertMember_eq hm, convertMember_eq hm, getterName_eq hg, u, htype, hann⟩

theorem yields_members {mapper : TypeMapper} {fs : List Field} {s t : Session} {xs : List Member}
    (h : Yields (fs.mapM (member mapper)) s xs t) :
    xs.map (·.field) = fs ∧ ∀ x ∈ xs, x.names.member = x.field.javaName ∧ x.names.step = x.field.javaName ∧
      x.names.getter = x.field.getterName := by
  have each := forall₂_of_yields_mapM (R := fun f x => x.field = f ∧ x.names.member = f.javaName ∧
    x.names.step = f.javaName ∧ x.names.getter = f.getterName) (fun f s x t hx => by
      obtain ⟨h₁, h₂, h₃, h₄, -⟩ := yields_member hx
      exact ⟨h₁, h₂, h₃, h₄⟩) fs h
  clear h
  induction each with
  | nil => exact ⟨rfl, fun x hx => by cases hx⟩
  | cons hx _ ih =>
    obtain ⟨rfl, hx⟩ := hx
    refine ⟨by rw [List.map_cons, ih.1], fun y hy => ?_⟩
    rcases List.mem_cons.mp hy with rfl | hy
    · exact hx
    · exact ih.2 y hy

/-! ## The checks -/

/-- The first name that occurs more than once. -/
def repeated? (names : List String) : Option String := names.find? (fun n => names.count n > 1)

theorem clash?_eq_repeated? (xs : List Member) : clash? xs = repeated? (xs.map (·.names.member)) := rfl

theorem repeated?_eq_none_iff {names : List String} : repeated? names = none ↔ names.Nodup := by
  simp only [repeated?, List.find?_eq_none, decide_eq_true_eq, Nat.not_lt, List.nodup_iff_count]
  refine ⟨fun h n => ?_, fun h n _ => h n⟩
  by_cases hn : n ∈ names
  · exact h n hn
  · rw [List.count_eq_zero.mpr hn]
    exact Nat.zero_le _

/-- All that a declaration has to come through, in order: its class name, its members, its plan, the check of its
member names, and its annotations. -/
theorem yields_ofModel {comments : Bool} {mapper : TypeMapper} {m : Model} {s t : Session} {c : ClassDecl}
    (h : Yields (ClassDecl.ofModel comments mapper m) s c t) :
    ∃ s₁ s₂ s₃, s₁.names = s.names ∧ Yields (className m.name) s₁ c.name s₂ ∧
      Yields (m.fields.mapM (member mapper)) s₂ c.members s₃ ∧ Yields (modelAnnotations m) s₃ c.annotations t ∧
      Builder.checkKeys [buildInterface] [] ((c.members.filter (·.field.chained)).map Member.stepName) = .ok () ∧
      clash? c.members = none ∧ memberName m.name = .ok c.instanceName ∧
      c.members.find? (·.field.isIdentity) = some c.identity ∧
      c = { c with
        description := describe comments m
        steps := (Builder.contracts (c.members.filter (·.field.chained))).map stepDecl
        terminal := buildInterface
        setters := (c.members.filter (·.field.free)).map Member.setter
        entry := match (Builder.contracts (c.members.filter (·.field.chained))).map stepDecl with
          | [] => buildInterface
          | s :: _ => s.interface
        slots := c.members.map Member.slot } := by
  simp only [ClassDecl.ofModel] at h
  split at h
  · simp only [yields_bind] at h
    obtain ⟨_, _, h, -⟩ := h
    exact absurd h not_yields_fail
  simp only [yields_bind] at h
  obtain ⟨_, s₁, hnote, name, s₂, hname, members, s₃, hmembers, h⟩ := h
  cases hplan : Builder.planBuilder Member.field Member.stepName [buildInterface] members with
  | error e =>
    simp only [hplan, yields_bind] at h
    obtain ⟨_, _, h, -⟩ := h
    exact absurd h not_yields_fail
  | ok plan =>
    obtain ⟨hkeys, rfl⟩ := Builder.planBuilder_eq_ok hplan
    cases hclash : clash? members with
    | some clash =>
      simp only [hplan, hclash, yields_bind] at h
      obtain ⟨_, _, -, _, _, h, -⟩ := h
      exact absurd h not_yields_fail
    | none =>
      simp only [hplan, hclash, yields_bind, yields_pure, yields_ofFault] at h
      obtain ⟨_, s₄, ⟨rfl, rfl⟩, annotations, _, hann, instanceName, _, ⟨hinst, rfl⟩, h⟩ := h
      cases hid : (Builder.Plan.ofSteps Member.field members
          (Builder.contracts (Builder.chained Member.field members))).identity with
      | none =>
        simp only [hid] at h
        exact absurd h not_yields_fail
      | some identity =>
        simp only [hid, yields_pure] at h
        obtain ⟨rfl, rfl⟩ := h
        exact ⟨s₁, s₂, s₄, by rw [yields_note.mp hnote], hname, hmembers, hann, hkeys, hclash, hinst, hid, rfl⟩

theorem emission_of_yields {comments : Bool} {mapper : TypeMapper} {m : Model} {s t : Session} {c : ClassDecl}
    (h : Yields (ClassDecl.ofModel comments mapper m) s c t) : Emission m c := by
  obtain ⟨_, _, _, -, -, hmembers, -, hkeys, hclash, -, hid, hc⟩ := yields_ofModel h
  obtain ⟨hfields, hnames⟩ := yields_members hmembers
  exact
    { fields := hfields
      memberName := fun x hx => (hnames x hx).1
      stepName := fun x hx => (hnames x hx).2.1
      getterName := fun x hx => (hnames x hx).2.2
      steps := congrArg (·.steps) hc
      terminal := congrArg (·.terminal) hc
      setters := congrArg (·.setters) hc
      entry := (congrArg (·.entry) hc).trans (by rw [congrArg (·.steps) hc])
      slots := congrArg (·.slots) hc
      identity := hid
      keys := hkeys
      distinct := repeated?_eq_none_iff.mp hclash }

/-! ## The identity and the interfaces of an emitted class -/

/-- The methods that may be called on the terminal step in any order. -/
def ClassDecl.setterMethods (c : ClassDecl) : List String := c.identity.names.step :: c.setters.map (·.method)

section Emitted

variable {m : Model} {c : ClassDecl}

theorem isIdentity_iff {f : Field} : f.isIdentity = true ↔ f.name = .str "id" := Json.beq_str_iff

theorem identity_mem (h : Emission m c) : c.identity ∈ c.members := List.mem_of_find?_eq_some h.identity

theorem isIdentity_identity (h : Emission m c) : c.identity.field.isIdentity = true := by
  have hid := List.find?_some h.identity
  exact hid

theorem interfaces_eq (h : Emission m c) :
    c.interfaces = (c.members.filter (·.field.chained)).map Member.stepName ++ [buildInterface] := by
  have items := Builder.map_item_contracts (c.members.filter (·.field.chained))
  have steps : c.steps.map (·.interface) = (c.members.filter (·.field.chained)).map Member.stepName := by
    rw [h.steps, List.map_map, ← congrArg (List.map Member.stepName) items, List.map_map]
    rfl
  rw [ClassDecl.interfaces, steps, h.terminal]

theorem nodup_interfaces (h : Emission m c) : c.interfaces.Nodup := by
  obtain ⟨apart, distinct⟩ := Builder.checkKeys_eq_ok_iff.mp h.keys
  rw [interfaces_eq h]
  refine List.nodup_append.mpr ⟨distinct, by simp, ?_⟩
  intro i hi j hj hij
  exact (apart i hi).1 (hij ▸ hj)

/-- The interfaces a class implements are those of the fields that its chain sets, and the terminal one. -/
theorem mem_interfaces (h : Emission m c) {i : String} :
    i ∈ c.interfaces ↔ (∃ f ∈ m.fields, f.chained = true ∧ f.stepInterface = i) ∨ i = buildInterface := by
  rw [interfaces_eq h, List.mem_append, List.mem_singleton, ← h.fields]
  refine or_congr_left ⟨fun hmem => ?_, fun hmem => ?_⟩
  · obtain ⟨x, hx, rfl⟩ := List.mem_map.mp hmem
    obtain ⟨hx, hchained⟩ := List.mem_filter.mp hx
    exact ⟨x.field, List.mem_map_of_mem hx, hchained, rfl⟩
  · obtain ⟨f, hf, hchained, rfl⟩ := hmem
    obtain ⟨x, hx, rfl⟩ := List.mem_map.mp hf
    exact List.mem_map.mpr ⟨x, List.mem_filter.mpr ⟨hx, hchained⟩, rfl⟩

end Emitted

/-- A model with a required field, optional ones and its identity in between. -/
def task : Model :=
  { name := .str "Task"
    fields := [
      { name := .str "title", type := .str "String", nullable := false },
      { name := .str "id", type := .str "ID", nullable := false },
      { name := .str "due_at", type := .str "AWSDate" },
      { name := .str "owner", type := .str "String", nullable := false }] }

def taskMapper : TypeMapper := { schema := { models := [(.str "Task", task)] }, scalars := defaultScalars }

end Java

end SchemaForge

import SchemaForge.Proofs.Java.ClassPass
import SchemaForge.Proofs.Java.Construction
import SchemaForge.Proofs.Naming.Styles

/-
The identifiers of an emitted class, namespace by namespace: members, slots and parameters; getters; query constants;
methods of the builder's interfaces; the interfaces themselves.

Emission compares member names with each other, and step interfaces with each other and with the terminal one. It looks
at no other names. They are apart all the same (`identifiers_of_emitted_class`), because every name of a field tells its
member name: getters by their Pascal form (`javaName_eq_of_getterName_eq`), constants by their words
(`javaName_eq_of_queryName_eq`), and a method has the name of its member. A suffix does not blur this, since no
constant is a word that has to be avoided (`forbids_constant`).
-/

namespace SchemaForge

/-- The constant that queries know a field by. -/
@[irreducible]
def Field.queryName (f : Field) : String := Java.rules.convert f.name.display .screamingSnake Java.conflictSuffix

namespace Java

open Generation Generation.Pass

/-! ## Constants -/

theorem queryName_eq_constant (f : Field) : f.queryName = (DerivedNames.ofText f.name.display).constant := by
  rw [Field.queryName, DerivedNames.ofText]

theorem javaName_eq_of_queryName_eq {f g : Field} (h : f.queryName = g.queryName) : f.javaName = g.javaName := by
  rw [queryName_eq_constant, queryName_eq_constant] at h
  rw [javaName_eq_member, javaName_eq_member, DerivedNames.member_eq_iff]
  exact DerivedNames.pascal_eq_of_constant_eq h

variable {m : Model} {c : ClassDecl}

theorem queryName_of_yields {mapper : TypeMapper} {f : Field} {s t : Session} {x : Member}
    (h : Yields (member mapper f) s x t) : x.names.query = x.field.queryName := by
  simp only [member, TypeMapper.fieldNames, yields_bind, yields_pure, yields_ofFault] at h
  obtain ⟨names, u, ⟨_, _, ⟨-, rfl⟩, _, _, ⟨-, rfl⟩, q, _, ⟨hq, rfl⟩, _, _, -, rfl, rfl⟩, _, _, -, rfl, rfl⟩ := h
  rw [Field.queryName]
  exact convertMember_eq hq

theorem queryNames_of_yields {comments : Bool} {mapper : TypeMapper} {s t : Session}
    (h : Yields (ClassDecl.ofModel comments mapper m) s c t) : ∀ x ∈ c.members, x.names.query = x.field.queryName := by
  obtain ⟨_, _, _, -, -, hmembers, -⟩ := yields_ofModel h
  exact forall_mem_of_yields_mapM (fun _ _ _ _ => queryName_of_yields) hmembers

/-! ## Namespaces -/

theorem nodup_members (h : Emission m c) : c.members.Nodup := List.Nodup.of_map _ h.distinct

/-- Names from which member names can be told are apart. -/
theorem nodup_of_tells (h : Emission m c) {name : Member → String} {ys : List Member} (hys : ys.Nodup)
    (hmem : ∀ x ∈ ys, x ∈ c.members)
    (tells : ∀ x ∈ c.members, ∀ y ∈ c.members, name x = name y → x.field.javaName = y.field.javaName) :
    (ys.map name).Nodup := by
  refine List.Nodup.map_on (fun x hx y hy he => ?_) hys
  exact field_eq_of_javaName_eq h (hmem x hx) (hmem y hy) (tells x (hmem x hx) y (hmem y hy) he)

/-- The members that have methods: those of the chain, the identity, and those that are set freely. -/
theorem methods_eq (h : Emission m c) :
    c.steps.map (·.method) ++ c.setterMethods =
      (c.members.filter (·.field.chained) ++ c.identity :: c.members.filter (·.field.free)).map (·.names.step) := by
  have items := Builder.map_item_contracts (c.members.filter (·.field.chained))
  have hsteps : c.steps.map (·.method) = (c.members.filter (·.field.chained)).map (·.names.step) := by
    rw [h.steps, List.map_map, ← congrArg (List.map (·.names.step)) items, List.map_map]
    rfl
  rw [ClassDecl.setterMethods, h.setters, List.map_append, hsteps, List.map_cons, List.map_map]
  rfl

theorem nodup_methods (h : Emission m c) : (c.steps.map (·.method) ++ c.setterMethods).Nodup := by
  have hid := isIdentity_identity h
  rw [methods_eq h]
  refine nodup_of_tells h (List.nodup_append.mpr ⟨(nodup_members h).filter _, ?_, ?_⟩) (fun x hx => ?_)
    (fun x hx y hy he => by rwa [h.stepName x hx, h.stepName y hy] at he)
  · refine List.nodup_cons.mpr ⟨fun hmem => ?_, (nodup_members h).filter _⟩
    have := (List.mem_filter.mp hmem).2
    rw [not_free_of_isIdentity hid] at this
    cases this
  · rintro x hx y hy rfl
    have hc : x.field.chained = true := by simpa using (List.mem_filter.mp hx).2
    rcases List.mem_cons.mp hy with rfl | hy
    · rw [not_chained_of_isIdentity hid] at hc
      cases hc
    · rw [not_chained_of_free (by simpa using (List.mem_filter.mp hy).2)] at hc
      cases hc
  · rcases List.mem_append.mp hx with hx | hx
    · exact (List.mem_filter.mp hx).1
    · rcases List.mem_cons.mp hx with rfl | hx
      · exact identity_mem h
      · exact (List.mem_filter.mp hx).1

/-- Whatever model is emitted, no namespace of its class has a name twice. -/
theorem identifiers_of_emitted_class {s : Settings} {mapper : TypeMapper} {m : Model} {σ τ : Session}
    {out : String × Imports} (h : Yields (classText s mapper m) σ out τ) :
    ∃ c, Yields (ClassDecl.ofModel (commented s) mapper m) σ c τ ∧ out.1 = c.source ∧
      c.members.map (·.field) = m.fields ∧ (c.members.map (·.names.member)).Nodup ∧ (c.slots.map (·.name)).Nodup ∧
      c.parameterNames.Nodup ∧ (c.members.map (·.names.getter)).Nodup ∧ (c.members.map (·.names.query)).Nodup ∧
      (c.steps.map (·.method) ++ c.setterMethods).Nodup ∧ c.interfaces.Nodup := by
  obtain ⟨c, hc, rfl⟩ := yields_classText.mp h
  have he := emission_of_yields hc
  have hquery := queryNames_of_yields hc
  have hslots : c.slots.map (·.name) = c.parameterNames := newArguments_eq he
  refine ⟨c, hc, rfl, he.fields, he.distinct, hslots ▸ he.distinct, he.distinct, ?_, ?_,
    nodup_methods he, nodup_interfaces he⟩
  · refine nodup_of_tells he (nodup_members he) (fun _ => id) (fun x hx y hy heq => ?_)
    rw [he.getterName x hx, he.getterName y hy] at heq
    exact javaName_eq_of_getterName_eq heq
  · refine nodup_of_tells he (nodup_members he) (fun _ => id) (fun x hx y hy heq => ?_)
    rw [hquery x hx, hquery y hy] at heq
    exact javaName_eq_of_queryName_eq heq

/-- A model with a name to avoid, and with names whose capitals and underscores are lost on the way. -/
def profile : Model :=
  { name := .str "Profile"
    fields := [
      { name := .str "id", type := .str "ID", nullable := false },
      { name := .str "class", type := .str "String", nullable := false },
      { name := .str "home_URL", type := .str "AWSURL", nullable := false },
      { name := .str "URLName", type := .str "String" }] }

def profileMapper : TypeMapper := { schema := { models := [(.str "Profile", profile)] }, scalars := defaultScalars }

theorem identifiers_of_profile :
    ∃ out τ c, Yields (classText {} profileMapper profile) {} out τ ∧
      Yields (ClassDecl.ofModel (commented {}) profileMapper profile) {} c τ ∧ out.1 = c.source ∧
      c.members.map (·.names.query) = ["ID", "CLASS", "HOME_URL", "URL_NAME"] ∧
      (c.members.map (·.names.query)).Nodup ∧ (c.members.map (·.names.getter)).Nodup ∧
      (c.steps.map (·.method) ++ c.setterMethods).Nodup ∧ c.interfaces.Nodup := by
  obtain ⟨out, τ, h⟩ := exists_yields_of_succeeds
    (show succeeds (classText {} profileMapper profile) {} = true by decide +kernel)
  obtain ⟨c, hc, hsource, hfields, -, -, -, hgetters, hqueries, hmethods, hinterfaces⟩ :=
    identifiers_of_emitted_class h
  refine ⟨out, τ, c, h, hc, hsource, ?_, hqueries, hgetters, hmethods, hinterfaces⟩
  have hnames : profile.fields.map Field.queryName = ["ID", "CLASS", "HOME_URL", "URL_NAME"] := by decide +kernel
  rw [← hnames, ← hfields, List.map_map]
  exact List.map_congr_left (queryNames_of_yields hc)

end Java

end SchemaForge

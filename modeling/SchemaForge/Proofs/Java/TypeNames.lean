import SchemaForge.Proofs.Generation.TwoRuns
import SchemaForge.Proofs.Java.ClassPass
import SchemaForge.Proofs.Java.Emission
import SchemaForge.Proofs.Naming.Numbering

/-
The Java names of types across passes. Every pass starts with no names handed out and asks for class names in its own
order: the model provider for the selected models, the enum pass for the selected enums, the class pass for each
selected model and then for the types of its fields (`requests`).

A pass prints its text from declarations (`Output.Prints`). In an output, a type that the schema defines and the scalar
table does not has one name (`uses_iff`), given by its base and its rank among the requests of the pass. Two outputs are
therefore at one about a type exactly when it has the same rank in both, and they let two types share a name exactly
when base and rank are shared (`type_names_agree_iff`). They need not be: an enum of a colliding name is numbered by the
class pass and not by the enum pass (`enum_is_numbered_by_the_class_pass_only`).
-/

namespace SchemaForge.Java

open Generation Generation.Pass Naming
open Json (beq_str_iff)

/-! ## What a pass asks for -/

/-- The mapper has no other answer for the type of a field than a class name. -/
def TypeMapper.asks (mapper : TypeMapper) (f : Field) : Bool :=
  (Entries.get? f.type mapper.scalars).isNone && (mapper.schema.isModel f.type || mapper.schema.isEnum f.type)

def fieldRequests (mapper : TypeMapper) (f : Field) : List Json := if mapper.asks f then [f.type] else []

theorem mem_fieldRequests {mapper : TypeMapper} {f : Field} {v : Json} :
    v ∈ fieldRequests mapper f ↔ mapper.asks f = true ∧ v = f.type := by
  unfold fieldRequests
  split
  · rename_i h
    rw [List.mem_singleton]
    exact (and_iff_right h).symm
  · rename_i h
    exact iff_of_false List.not_mem_nil fun hv => h hv.1

def modelRequests (mapper : TypeMapper) (m : Model) : List Json := m.name :: m.fields.flatMap (fieldRequests mapper)

/-- The types a pass asks class names for, in order. -/
def requests (s : Settings) (schema : Schema) : Mode → List Json
  | .registry =>
    match selectedModels s schema with
    | .ok models => (Entries.values models).map (·.name)
    | .error _ => []
  | .enums =>
    match selectedEnums s schema with
    | .ok enums => (Entries.values enums).map (·.name)
    | .error _ => []
  | .classes =>
    match newMapper s schema, selectedModels s schema with
    | .ok mapper, .ok models => (Entries.values models).flatMap (modelRequests mapper)
    | _, _ => []

def askAll (asked : List String) (types : List Json) : List String := (types.map Json.display).foldl ask asked

/-- The distinct names that a pass asks for. -/
def asked (s : Settings) (schema : Schema) (mode : Mode) : List String := askAll [] (requests s schema mode)

variable {D : List String} {s t : Session}

theorem mem_askAll {types : List Json} {v : Json} (hv : v ∈ types) : v.display ∈ askAll D types :=
  mem_foldl_ask.mpr (Or.inr (List.mem_map_of_mem hv))

theorem askAll_append {types later : List Json} : askAll D (types ++ later) = askAll (askAll D types) later := by
  unfold askAll
  rw [List.map_append, List.foldl_append]

/-- What has been answered stays the answer. -/
theorem given_askAll {n : String} (types : List Json) (hn : n ∈ D) :
    given rules (askAll D types) n = given rules D n := by
  unfold given askAll
  rw [rank_foldl_ask _ hn]

/-! ## One class name -/

theorem className_of_numbered {v : Json} {n : String} (h : Yields (className v) s n t) (hs : Numbered rules D s.names) :
    n = given rules (ask D v.display) v.display ∧ Numbered rules (ask D v.display) t.names := by
  obtain ⟨hn, rfl⟩ := yields_assignName h
  obtain ⟨hgiven, hnext⟩ := assign_of_numbered hs v.display
  exact ⟨hn.trans hgiven, hnext⟩

theorem occursIn_singleton {c : Char} {cs : List Char} : Text.occursIn [c] cs = true ↔ c ∈ cs := by
  induction cs with
  | nil => exact ⟨fun h => (Bool.false_ne_true h).elim, fun h => (List.not_mem_nil h).elim⟩
  | cons d cs ih =>
    rw [Text.occursIn, Bool.or_eq_true, ih, List.mem_cons, List.isPrefixOf_cons_cons, List.isPrefixOf_nil_left,
      Bool.and_true, beq_iff_eq]

/-- A class name has no dot, so it is written as it is. -/
theorem ofNative_given {asked : List String} {n : String} :
    ofNative (.str (given rules asked n)) = .ok { name := .str (given rules asked n) } := by
  have hdot : Text.occursIn ".".toList (given rules asked n).toList = false := by
    rw [Bool.eq_false_iff]
    intro h
    have := isNameChar_of_mem_nthName (occursIn_singleton.mp h)
    revert this
    decide
  unfold ofNative
  show (do
    if !(← (Except.ok (Text.occursIn ".".toList (given rules asked n).toList) : Except Fault Bool)) then _ else _) = _
  rw [hdot]
  rfl

/-! ## The passes -/

/-- How a declaration writes the type of a field that goes by a name. -/
def written (f : Field) (n : String) : String := if f.list then "List<" ++ n ++ ">" else n

/-- A field has the type that its native one is written as, in a list if the field is one. -/
theorem yields_resolve {mapper : TypeMapper} {f : Field} {type : JavaType} (h : Yields (mapper.resolve f) s type t) :
    ∃ native base, Yields (mapper.native f.type) s native t ∧ ofNative native = .ok base ∧
      type = if f.list then base.listOf else base := by
  simp only [TypeMapper.resolve, yields_bind, yields_pure, yields_ofFault] at h
  obtain ⟨key, s₁, ⟨hkey, rfl⟩, native, s₂, hnative, base, s₃, ⟨hbase, rfl⟩, htype, rfl⟩ := h
  rw [Json.toKey_eq_ok hkey] at hnative
  exact ⟨native, base, hnative, hbase, htype⟩

/-- How the type of a field is written depends on nothing but its native one. -/
theorem agree_resolve {mapper₁ mapper₂ : TypeMapper} {f : Field} {R R' : Session → Session → Prop}
    (h : Agree R (mapper₁.native f.type) (mapper₂.native f.type) R') :
    Agree R (mapper₁.resolve f) (mapper₂.resolve f) R' := by
  refine agree_ofFault_bind fun key hkey => ?_
  rw [Json.toKey_eq_ok hkey]
  exact agree_bind h fun native => agree_bind (agree_ofFault _) fun _ => agree_pure _

theorem agree_className_sameNames (v : Json) : Agree SameNames (className v) (className v) SameNames :=
  agree_assignName rules v .pascal conflictSuffix

theorem agree_resolve_sameNames (mapper : TypeMapper) (f : Field) :
    Agree SameNames (mapper.resolve f) (mapper.resolve f) SameNames := by
  refine agree_resolve ?_
  unfold TypeMapper.native
  split
  · exact agree_pure _
  · split
    · exact agree_bind (agree_className_sameNames f.type) fun _ => agree_pure _
    · exact agree_pure _

theorem resolve_of_numbered {mapper : TypeMapper} {f : Field} {type : JavaType}
    (h : Yields (mapper.resolve f) s type t) (hs : Numbered rules D s.names) :
    Numbered rules (askAll D (fieldRequests mapper f)) t.names ∧
      (mapper.asks f = true →
        type.text = written f (given rules (askAll D (fieldRequests mapper f)) f.type.display)) := by
  obtain ⟨native, base, hnative, hbase, rfl⟩ := yields_resolve h
  unfold TypeMapper.native at hnative
  unfold fieldRequests TypeMapper.asks
  cases hscalar : Entries.get? f.type mapper.scalars with
  | some scalar =>
    rw [hscalar] at hnative
    obtain ⟨-, rfl⟩ := yields_pure.mp hnative
    exact ⟨hs, fun h => by cases h⟩
  | none =>
    rw [hscalar] at hnative
    cases hknown : mapper.schema.isModel f.type || mapper.schema.isEnum f.type with
    | false =>
      simp only [hknown] at hnative
      obtain ⟨-, rfl⟩ := yields_pure.mp hnative
      exact ⟨hs, fun h => by cases h⟩
    | true =>
      simp only [hknown, if_true, yields_bind, yields_pure] at hnative
      obtain ⟨n, s₄, hn, rfl, rfl⟩ := hnative
      obtain ⟨rfl, hnext⟩ := className_of_numbered hn hs
      refine ⟨hnext, fun _ => ?_⟩
      rw [ofNative_given] at hbase
      cases hbase
      unfold written
      split <;> rfl

/-! ## Annotations -/

section Annotations

variable {R : Session → Session → Prop}

theorem agree_ignored (hR : Bears R) (d : Directive) (owner : String) (name : Json) :
    Agree R (ignored d owner name) (ignored d owner name) R :=
  agree_bind (agree_note hR _ _) fun _ => agree_pure _

theorem agree_fieldDirective (hR : Bears R) (f : Field) (d : Directive) :
    Agree R (fieldDirective f d) (fieldDirective f d) R := by
  refine agree_bind (agree_ofFault _) fun key => ?_
  split
  · exact agree_ofFault _
  · exact agree_ignored hR _ _ _

theorem agree_modelDirective (hR : Bears R) (m : Model) (d : Directive) :
    Agree R (modelDirective m d) (modelDirective m d) R := by
  refine agree_bind (agree_ofFault _) fun key => ?_
  split
  · exact agree_pure _
  · exact agree_pure _
  · exact agree_ignored hR _ _ _

theorem agree_fieldAnnotations (hR : Bears R) (f : Field) : Agree R (fieldAnnotations f) (fieldAnnotations f) R :=
  agree_bind (agree_mapM (R := fun _ => R) fun d _ _ => agree_fieldDirective hR f d) fun _ => agree_pure _

theorem agree_modelAnnotations (hR : Bears R) (m : Model) : Agree R (modelAnnotations m) (modelAnnotations m) R :=
  agree_bind (agree_mapM (R := fun _ => R) fun d _ _ => agree_modelDirective hR m d) fun _ => agree_pure _

theorem keepsNames_fieldAnnotations (f : Field) : KeepsNames (fieldAnnotations f) :=
  keepsNames_of_agree fun _ hR => agree_fieldAnnotations hR f

theorem keepsNames_modelAnnotations (m : Model) : KeepsNames (modelAnnotations m) :=
  keepsNames_of_agree fun _ hR => agree_modelAnnotations hR m

end Annotations

/-! ## A pass over a list -/

section Lists

variable {α β : Type}

/-- If one element keeps the answers in step with its requests, and what it gives stays right under later requests,
    then so does a list, and all of it is right in the end. -/
theorem mapM_of_numbered {f : α → Pass β} (reqs : α → List Json) (Good : List String → α → β → Prop)
    (hstep : ∀ x D s b t, Yields (f x) s b t → Numbered rules D s.names →
      Numbered rules (askAll D (reqs x)) t.names ∧ Good (askAll D (reqs x)) x b)
    (hkeep : ∀ A later x b, (∀ v ∈ reqs x, v.display ∈ A) → Good A x b → Good (askAll A later) x b) :
    ∀ (xs : List α) {D : List String} {s t : Session} {bs : List β}, Yields (xs.mapM f) s bs t →
      Numbered rules D s.names →
      Numbered rules (askAll D (xs.flatMap reqs)) t.names ∧ List.Forall₂ (Good (askAll D (xs.flatMap reqs))) xs bs := by
  intro xs
  induction xs with
  | nil =>
    intro D s t bs h hs
    obtain ⟨rfl, rfl⟩ := yields_mapM_nil.mp h
    exact ⟨hs, .nil⟩
  | cons x xs ih =>
    intro D s t bs h hs
    obtain ⟨b, s₁, cs, hb, hcs, rfl⟩ := yields_mapM_cons.mp h
    obtain ⟨hs₁, hgood⟩ := hstep x D s b s₁ hb hs
    obtain ⟨ht, hrest⟩ := ih hcs hs₁
    rw [List.flatMap_cons, askAll_append]
    exact ⟨ht, .cons (hkeep _ _ x b (fun v hv => mem_askAll hv) hgood) hrest⟩

theorem zip_of_forall₂ {R : α → β → Prop} {xs : List α} {bs : List β} (h : List.Forall₂ R xs bs) :
    (xs.zip bs).map (·.1) = xs ∧ (xs.zip bs).map (·.2) = bs ∧ ∀ e ∈ xs.zip bs, R e.1 e.2 := by
  induction h with
  | nil => exact ⟨rfl, rfl, fun e he => (List.not_mem_nil he).elim⟩
  | cons hr _ ih =>
    refine ⟨congrArg _ ih.1, congrArg _ ih.2.1, fun e he => ?_⟩
    rcases List.mem_cons.mp he with rfl | he
    · exact hr
    · exact ih.2.2 e he

theorem eq_map_of_forall₂ {g : α → β} {xs : List α} {bs : List β} (h : List.Forall₂ (fun x b => b = g x) xs bs) :
    bs = xs.map g := by
  induction h with
  | nil => rfl
  | cons hx _ ih => rw [hx, ih, List.map_cons]

/-- Who is in one of two lists that go together has its partner in the other. -/
theorem partner_of_forall₂ {R : α → β → Prop} {xs : List α} {bs : List β} (h : List.Forall₂ R xs bs) :
    (∀ x ∈ xs, ∃ b ∈ bs, R x b) ∧ ∀ b ∈ bs, ∃ x ∈ xs, R x b := by
  obtain ⟨hxs, hbs, hr⟩ := zip_of_forall₂ h
  constructor
  · intro x hx
    rw [← hxs] at hx
    obtain ⟨e, he, rfl⟩ := List.mem_map.mp hx
    exact ⟨e.2, hbs ▸ List.mem_map_of_mem he, hr e he⟩
  · intro b hb
    rw [← hbs] at hb
    obtain ⟨e, he, rfl⟩ := List.mem_map.mp hb
    exact ⟨e.1, hxs ▸ List.mem_map_of_mem he, hr e he⟩

end Lists

/-! ## Declarations -/

/-- A member of its field, whose type is written by the answer for it. -/
def MemberNamed (mapper : TypeMapper) (A : List String) (f : Field) (x : Member) : Prop :=
  x.field = f ∧ (mapper.asks f = true → x.type = written f (given rules A f.type.display))

/-- A class under the answer for its model, with members of the model's fields. -/
def ClassNamed (mapper : TypeMapper) (A : List String) (m : Model) (c : ClassDecl) : Prop :=
  c.name = given rules A m.name.display ∧ List.Forall₂ (MemberNamed mapper A) m.fields c.members

theorem fields_of_membersNamed {mapper : TypeMapper} {A : List String} {fs : List Field} {xs : List Member}
    (h : List.Forall₂ (MemberNamed mapper A) fs xs) : xs.map (·.field) = fs := by
  induction h with
  | nil => rfl
  | cons hx _ ih => rw [List.map_cons, hx.1, ih]

theorem memberNamed_askAll {mapper : TypeMapper} {A : List String} {f : Field} {x : Member} (later : List Json)
    (hA : ∀ v ∈ fieldRequests mapper f, v.display ∈ A) (h : MemberNamed mapper A f x) :
    MemberNamed mapper (askAll A later) f x := by
  refine ⟨h.1, fun hasks => ?_⟩
  rw [given_askAll later (hA _ (mem_fieldRequests.mpr ⟨hasks, rfl⟩))]
  exact h.2 hasks

theorem membersNamed_askAll {mapper : TypeMapper} {A : List String} {fs : List Field} {xs : List Member}
    (later : List Json) (hA : ∀ v ∈ fs.flatMap (fieldRequests mapper), v.display ∈ A)
    (h : List.Forall₂ (MemberNamed mapper A) fs xs) : List.Forall₂ (MemberNamed mapper (askAll A later)) fs xs := by
  induction h with
  | nil => exact .nil
  | cons hx _ ih =>
    rw [List.flatMap_cons] at hA
    exact .cons (memberNamed_askAll later (fun v hv => hA v (List.mem_append_left _ hv)) hx)
      (ih (fun v hv => hA v (List.mem_append_right _ hv)))

theorem classNamed_askAll {mapper : TypeMapper} {A : List String} {m : Model} {c : ClassDecl} (later : List Json)
    (hA : ∀ v ∈ modelRequests mapper m, v.display ∈ A) (h : ClassNamed mapper A m c) :
    ClassNamed mapper (askAll A later) m c := by
  refine ⟨?_, membersNamed_askAll later (fun v hv => hA v (List.mem_cons_of_mem _ hv)) h.2⟩
  rw [given_askAll later (hA _ (List.mem_cons_self ..))]
  exact h.1

theorem member_of_numbered {mapper : TypeMapper} (f : Field) (D : List String) (s : Session) (x : Member) (t : Session)
    (h : Yields (member mapper f) s x t) (hs : Numbered rules D s.names) :
    Numbered rules (askAll D (fieldRequests mapper f)) t.names ∧
      MemberNamed mapper (askAll D (fieldRequests mapper f)) f x := by
  obtain ⟨hf, -, -, -, s₁, htype, hann⟩ := yields_member h
  obtain ⟨hs₁, hwritten⟩ := resolve_of_numbered htype hs
  rw [keepsNames_fieldAnnotations f s₁ _ t hann]
  exact ⟨hs₁, hf, hwritten⟩

theorem ofModel_of_numbered {comments : Bool} {mapper : TypeMapper} (m : Model) (D : List String) (s : Session)
    (c : ClassDecl) (t : Session) (h : Yields (ClassDecl.ofModel comments mapper m) s c t)
    (hs : Numbered rules D s.names) :
    Numbered rules (askAll D (modelRequests mapper m)) t.names ∧ (∃ n, m.name = .str n) ∧
      ClassNamed mapper (askAll D (modelRequests mapper m)) m c := by
  obtain ⟨s₁, s₂, s₃, hnames, hname, hmembers, hann, -⟩ := yields_ofModel h
  rw [← hnames] at hs
  obtain ⟨hdeclared, hs₂⟩ := className_of_numbered hname hs
  obtain ⟨hs₃, hfields⟩ := mapM_of_numbered (fieldRequests mapper) (MemberNamed mapper) member_of_numbered
    (fun _ later _ _ => memberNamed_askAll later) m.fields hmembers hs₂
  rw [keepsNames_modelAnnotations m s₃ _ t hann]
  refine ⟨hs₃, name_of_yields_ofModel h, hdeclared.trans ?_, hfields⟩
  exact (given_askAll _ (mem_ask.mpr (Or.inr rfl))).symm

/-! ## Outputs -/

/-- The declarations that the text of a pass is printed from: what each declares, and under which name. -/
inductive Output
  | registry (entries : List (Model × String))
  | enums (entries : List (EnumType × String))
  | classes (entries : List (Model × ClassDecl))

namespace Output

def Prints (s : Settings) (schema : Schema) (text : String) : Output → Prop
  | .registry es => ∃ models head body, selectedModels s schema = .ok models ∧ es.map (·.1) = Entries.values models ∧
      providerTemplate.render
        (providerContext s schema.version (firstOccurrences (es.map (·.2 ++ ".class")))) = .ok body ∧
      text = fileOf head [body]
  | .enums es => ∃ enums head bodies, selectedEnums s schema = .ok enums ∧ es.map (·.1) = Entries.values enums ∧
      List.Forall₂ (fun e body => enumTemplate.render (enumContext (commented s) e.2 e.1) = .ok body) es bodies ∧
      text = fileOf head bodies
  | .classes es => ∃ models head, selectedModels s schema = .ok models ∧ es.map (·.1) = Entries.values models ∧
      (∀ e ∈ es, e.2.members.map (·.field) = e.1.fields) ∧ text = fileOf head (es.map (·.2.source))

/-- A type occurs under a name: as what is declared or listed, or as the type of a member. -/
def Uses (T n : String) : Output → Prop
  | .registry es => ∃ e ∈ es, e.1.name = .str T ∧ e.2 = n
  | .enums es => ∃ e ∈ es, e.1.name = .str T ∧ e.2 = n
  | .classes es => ∃ e ∈ es, e.1.name = .str T ∧ e.2.name = n ∨
      ∃ x ∈ e.2.members, x.field.type = .str T ∧ x.type = written x.field n

end Output

/-- A model or enum of the schema that the scalar table leaves alone. -/
def Defines (s : Settings) (schema : Schema) (T : String) : Prop :=
  (schema.isModel (.str T) || schema.isEnum (.str T)) = true ∧
    ∀ mapper, newMapper s schema = .ok mapper → Entries.get? (.str T) mapper.scalars = none

theorem written_inj {f : Field} {n k : String} (h : written f n = written f k) : n = k := by
  unfold written at h
  split at h
  · exact (String.append_right_inj "List<").mp ((String.append_left_inj ">").mp h)
  · exact h

theorem asks_of_defines {settings : Settings} {schema : Schema} {mapper : TypeMapper} {T : String} {f : Field}
    (hT : Defines settings schema T) (hmapper : newMapper settings schema = .ok mapper) (hf : f.type = .str T) :
    mapper.asks f = true := by
  unfold TypeMapper.asks
  rw [hf, hT.2 mapper hmapper, newMapper_schema hmapper, hT.1]
  rfl

/-- Of the types of the fields, each is used under the answer for it and no other. -/
theorem uses_in_members {settings : Settings} {schema : Schema} {mapper : TypeMapper} {A : List String} {T n : String}
    {fs : List Field} {xs : List Member} (hT : Defines settings schema T)
    (hmapper : newMapper settings schema = .ok mapper) (h : List.Forall₂ (MemberNamed mapper A) fs xs) :
    (∃ x ∈ xs, x.field.type = .str T ∧ x.type = written x.field n) ↔
      .str T ∈ fs.flatMap (fieldRequests mapper) ∧ n = given rules A T := by
  obtain ⟨hfield, hmember⟩ := partner_of_forall₂ h
  refine ⟨fun h => ?_, fun h => ?_⟩
  · obtain ⟨x, hx, htype, hn⟩ := h
    obtain ⟨f, hf, hxf, hw⟩ := hmember x hx
    rw [hxf] at htype hn
    have hasks := asks_of_defines hT hmapper htype
    refine ⟨List.mem_flatMap.mpr ⟨f, hf, mem_fieldRequests.mpr ⟨hasks, htype.symm⟩⟩, ?_⟩
    have hw := hw hasks
    rw [htype] at hw
    exact written_inj (hn.symm.trans hw)
  · obtain ⟨hrequest, rfl⟩ := h
    obtain ⟨f, hf, hrequest⟩ := List.mem_flatMap.mp hrequest
    obtain ⟨hasks, htype⟩ := mem_fieldRequests.mp hrequest
    obtain ⟨x, hx, hxf, hw⟩ := hfield f hf
    have hw := hw hasks
    rw [← htype] at hw
    refine ⟨x, hx, ?_, ?_⟩
    · rw [hxf]
      exact htype.symm
    · rw [hxf]
      exact hw

/-- And so is the class itself, under the answer for its model. -/
theorem uses_in_class {settings : Settings} {schema : Schema} {mapper : TypeMapper} {A : List String} {T n : String}
    {m : Model} {c : ClassDecl} (hT : Defines settings schema T) (hmapper : newMapper settings schema = .ok mapper)
    (h : ClassNamed mapper A m c) :
    (m.name = .str T ∧ c.name = n ∨ ∃ x ∈ c.members, x.field.type = .str T ∧ x.type = written x.field n) ↔
      .str T ∈ modelRequests mapper m ∧ n = given rules A T := by
  obtain ⟨hname, hmembers⟩ := h
  have hdeclared : m.name = .str T → c.name = given rules A T := by
    intro hm
    rw [hm] at hname
    exact hname
  rw [uses_in_members hT hmapper hmembers, modelRequests, List.mem_cons]
  refine ⟨fun h => ?_, fun h => ?_⟩
  · rcases h with ⟨hm, rfl⟩ | ⟨hrequest, hn⟩
    · exact ⟨Or.inl hm.symm, hdeclared hm⟩
    · exact ⟨Or.inr hrequest, hn⟩
  · rcases h with ⟨hm | hrequest, rfl⟩
    · exact Or.inl ⟨hm.symm, hdeclared hm.symm⟩
    · exact Or.inr ⟨hrequest, rfl⟩

/-- A pass starts with no requests. -/
theorem numbered_of_startMapper {settings : Settings} {schema : Schema} {mapper : TypeMapper}
    (h : Yields (startMapper settings schema) s mapper t) : Numbered rules [] t.names := by
  rw [(startMapper_of_yields h).2]
  exact numbered_nil

/-- Along a list, what is made for one element under its name is in the end made under the answer to all requests. -/
theorem forall₂_of_mapM_named {α β : Type} {name : α → Json} {f : α → Pass β} {R : String → α → β → Prop}
    (hstep : ∀ x D s b t, Yields (f x) s b t → Numbered rules D s.names →
      Numbered rules (askAll D [name x]) t.names ∧ R (given rules (askAll D [name x]) (name x).display) x b)
    {xs : List α} {bs : List β} (h : Yields (xs.mapM f) s bs t) (hs : Numbered rules [] s.names) :
    List.Forall₂ (fun x b => R (given rules (askAll [] (xs.map name)) (name x).display) x b) xs bs := by
  obtain ⟨-, hmade⟩ := mapM_of_numbered (fun x => [name x])
    (fun A x b => R (given rules A (name x).display) x b) hstep
    (fun A later x b hA hb => by
      rw [given_askAll later (hA _ (List.mem_singleton.mpr rfl))]
      exact hb) _ h hs
  rwa [← List.map_eq_flatMap] at hmade

theorem entryName_of_numbered (m : Model) (D : List String) (s : Session) (entry : String) (t : Session)
    (h : Yields (do return (← className m.name) ++ ".class") s entry t) (hs : Numbered rules D s.names) :
    Numbered rules (askAll D [m.name]) t.names ∧
      entry = given rules (askAll D [m.name]) m.name.display ++ ".class" := by
  simp only [yields_bind, yields_pure] at h
  obtain ⟨n, t', hn, rfl, rfl⟩ := h
  obtain ⟨rfl, hnext⟩ := className_of_numbered hn hs
  exact ⟨hnext, rfl⟩

theorem enumText_of_numbered {settings : Settings} (e : EnumType) (D : List String) (s : Session) (body : String)
    (t : Session) (h : Yields (enumText settings e) s body t) (hs : Numbered rules D s.names) :
    Numbered rules (askAll D [e.name]) t.names ∧
      enumTemplate.render (enumContext (commented settings) (given rules (askAll D [e.name]) e.name.display) e) =
        .ok body := by
  simp only [enumText, yields_bind, yields_ofFault] at h
  obtain ⟨distinct, _, ⟨-, rfl⟩, h⟩ := h
  split at h
  · simp only [yields_bind] at h
    obtain ⟨_, _, h, -⟩ := h
    exact absurd h not_yields_fail
  · simp only [yields_bind, yields_note, yields_render] at h
    obtain ⟨_, _, rfl, n, s₁, hn, hbody, rfl⟩ := h
    obtain ⟨rfl, hnext⟩ := className_of_numbered hn hs
    exact ⟨hnext, hbody⟩

/-- Types that each entry is under: the entries of `xs` under the answers for their names. -/
theorem uses_in_entries {α : Type} {name : α → Json} {xs : List α} {A : List String} {T n : String} :
    (∃ e ∈ xs.map (fun x => (x, given rules A (name x).display)), name e.1 = .str T ∧ e.2 = n) ↔
      .str T ∈ xs.map name ∧ n = given rules A T := by
  refine ⟨fun h => ?_, fun h => ?_⟩
  · obtain ⟨e, he, hname, rfl⟩ := h
    obtain ⟨x, hx, rfl⟩ := List.mem_map.mp he
    refine ⟨List.mem_map.mpr ⟨x, hx, hname⟩, ?_⟩
    show given rules A (name x).display = _
    rw [hname]
    rfl
  · obtain ⟨hT, rfl⟩ := h
    obtain ⟨x, hx, hname⟩ := List.mem_map.mp hT
    refine ⟨_, List.mem_map_of_mem hx, hname, ?_⟩
    show given rules A (name x).display = _
    rw [hname]
    rfl

theorem output_of_registryPass {settings : Settings} {schema : Schema} {text : String}
    (h : Yields (registryPass settings schema) s text t) :
    ∃ o : Output, o.Prints settings schema text ∧ ∀ T n, o.Uses T n ↔
      .str T ∈ requests settings schema .registry ∧ n = given rules (asked settings schema .registry) T := by
  simp only [registryPass, yields_bind, yields_pure, yields_ofExcept, yields_note, yields_render] at h
  obtain ⟨mapper, s₁, hmapper, models, _, ⟨hmodels, rfl⟩, classes, s₂, hclasses, -, s₃, -, body, _, ⟨hbody, rfl⟩,
    head, s₄, -, rfl, rfl⟩ := h
  have hreq : requests settings schema .registry = (Entries.values models).map (·.name) := by
    unfold requests
    rw [hmodels]
  have hentries := forall₂_of_mapM_named (R := fun n _ entry => entry = n ++ ".class") entryName_of_numbered hclasses
    (numbered_of_startMapper hmapper)
  rw [← hreq] at hentries
  have hclasses' := eq_map_of_forall₂ hentries
  refine ⟨.registry ((Entries.values models).map (fun m =>
      (m, given rules (asked settings schema .registry) m.name.display))),
    ⟨models, head, body, hmodels, ?_, ?_, rfl⟩, fun T n => ?_⟩
  · rw [List.map_map]
    exact List.map_id _
  · rw [List.map_map, ← hbody, hclasses']
    rfl
  · rw [hreq]
    exact uses_in_entries

/-- The enum pass writes every selected enum under its name, behind the head of the file. -/
theorem bodies_of_enumPass {settings : Settings} {schema : Schema} {text : String}
    (h : Yields (enumPass settings schema) s text t) :
    ∃ enums head bodies, selectedEnums settings schema = .ok enums ∧
      packageTemplate.render [("package_name", settings.packageName), ("imports", .arr [])] = .ok head ∧
      List.Forall₂ (fun e body => enumTemplate.render (enumContext (commented settings)
        (given rules (asked settings schema .enums) e.name.display) e) = .ok body) (Entries.values enums) bodies ∧
      text = fileOf head bodies := by
  simp only [enumPass, yields_bind, yields_pure, yields_ofExcept] at h
  obtain ⟨mapper, s₁, hmapper, head, s₂, hhead, enums, _, ⟨henums, rfl⟩, bodies, s₃, hbodies, rfl, rfl⟩ := h
  obtain ⟨hrendered, rfl⟩ := yields_render.mp hhead
  have hreq : requests settings schema .enums = (Entries.values enums).map (·.name) := by
    unfold requests
    rw [henums]
  have hentries := forall₂_of_mapM_named
    (R := fun n e body => enumTemplate.render (enumContext (commented settings) n e) = .ok body) enumText_of_numbered
    hbodies (numbered_of_startMapper hmapper)
  rw [← hreq] at hentries
  exact ⟨enums, head, bodies, henums, hrendered, hentries, rfl⟩

theorem output_of_enumPass {settings : Settings} {schema : Schema} {text : String}
    (h : Yields (enumPass settings schema) s text t) :
    ∃ o : Output, o.Prints settings schema text ∧ ∀ T n, o.Uses T n ↔
      .str T ∈ requests settings schema .enums ∧ n = given rules (asked settings schema .enums) T := by
  obtain ⟨enums, head, bodies, henums, -, hbodies, rfl⟩ := bodies_of_enumPass h
  have hreq : requests settings schema .enums = (Entries.values enums).map (·.name) := by
    unfold requests
    rw [henums]
  refine ⟨.enums ((Entries.values enums).map (fun e =>
      (e, given rules (asked settings schema .enums) e.name.display))),
    ⟨enums, head, bodies, henums, ?_, ?_, rfl⟩, fun T n => ?_⟩
  · rw [List.map_map]
    exact List.map_id _
  · exact List.forall₂_map_left_iff.mpr hbodies
  · rw [hreq]
    exact uses_in_entries

/-- The classes that the text of the class pass is printed from, each beside its model. They are what the models are
    declared as, one after the other and with no names handed out before, and they are named by the answers to all
    requests of the pass. The head of the text has the imports that they need. -/
theorem classes_of_classPass {settings : Settings} {schema : Schema} {text : String}
    (h : Yields (classPass settings schema) s text t) :
    ∃ mapper es, newMapper settings schema = .ok mapper ∧ (Output.classes es).Prints settings schema text ∧
      (∃ s₁ t₁ head, s₁.names = {} ∧
        Yields ((es.map (·.1)).mapM (ClassDecl.ofModel (commented settings) mapper)) s₁ (es.map (·.2)) t₁ ∧
        Yields (fileHead settings (headImports ((es.map (·.2.imports)).foldl Imports.merge {}).drain.1)) t₁ head t ∧
        text = fileOf head (es.map (·.2.source))) ∧
      requests settings schema .classes = (es.map (·.1)).flatMap (modelRequests mapper) ∧
      ∀ e ∈ es, (∃ n, e.1.name = .str n) ∧ ClassNamed mapper (asked settings schema .classes) e.1 e.2 := by
  obtain ⟨mapper, models, s₁, t₁, cs, head, hmapper, hmodels, hstart, hcs, hhead, htext⟩ := yields_classPass h
  have hs₁ : Numbered rules [] s₁.names := hstart ▸ numbered_nil
  obtain ⟨-, hclasses⟩ := mapM_of_numbered (modelRequests mapper)
    (fun A m c => (∃ n, m.name = .str n) ∧ ClassNamed mapper A m c) ofModel_of_numbered
    (fun _ later _ _ hA h => ⟨h.1, classNamed_askAll later hA h.2⟩) _ hcs hs₁
  have hreq : requests settings schema .classes = (Entries.values models).flatMap (modelRequests mapper) := by
    unfold requests
    rw [hmapper, hmodels]
  rw [← hreq] at hclasses
  obtain ⟨hfst, hsnd, hnamed⟩ := zip_of_forall₂ hclasses
  have hmap : ∀ {γ : Type} (w : ClassDecl → γ), cs.map w = ((Entries.values models).zip cs).map (fun e => w e.2) := by
    intro γ w
    conv => lhs; rw [← hsnd, List.map_map]
    rfl
  rw [hmap] at hhead htext
  refine ⟨mapper, (Entries.values models).zip cs, hmapper,
    ⟨models, head, hmodels, hfst, fun e he => fields_of_membersNamed (hnamed e he).2.2, htext⟩,
    ⟨s₁, t₁, head, hstart, ?_, hhead, htext⟩, ?_, hnamed⟩
  · rwa [hfst, hsnd]
  · rw [hreq, hfst]

theorem output_of_classPass {settings : Settings} {schema : Schema} {text : String}
    (h : Yields (classPass settings schema) s text t) :
    ∃ o : Output, o.Prints settings schema text ∧ ∀ T, Defines settings schema T → ∀ n, o.Uses T n ↔
      .str T ∈ requests settings schema .classes ∧ n = given rules (asked settings schema .classes) T := by
  obtain ⟨mapper, es, hmapper, hprints, -, hreq, hnamed⟩ := classes_of_classPass h
  refine ⟨.classes es, hprints, fun T hT n => ?_⟩
  show (∃ e ∈ es, _ ∨ _) ↔ _
  rw [hreq]
  refine ⟨fun h => ?_, fun h => ?_⟩
  · obtain ⟨e, he, huse⟩ := h
    obtain ⟨hmem, hn⟩ := (uses_in_class hT hmapper (hnamed e he).2).mp huse
    exact ⟨List.mem_flatMap.mpr ⟨e.1, List.mem_map_of_mem he, hmem⟩, hn⟩
  · obtain ⟨hmem, hn⟩ := h
    obtain ⟨m, hm, hmem⟩ := List.mem_flatMap.mp hmem
    obtain ⟨e, he, rfl⟩ := List.mem_map.mp hm
    exact ⟨e, he, (uses_in_class hT hmapper (hnamed e he).2).mpr ⟨hmem, hn⟩⟩

/-- The pass of a mode, for a generator with these settings. -/
def passOf (settings : Settings) (schema : Schema) (mode : Mode) : Pass String :=
  Generator.modePass { backend := backend, settings := settings } schema mode

/-- In the output of any pass, a type that was asked for is used under the answer for it and no other type is used. -/
theorem uses_iff {settings : Settings} {schema : Schema} {mode : Mode} {text : String}
    (h : Yields (passOf settings schema mode) s text t) :
    ∃ o : Output, o.Prints settings schema text ∧ ∀ T, Defines settings schema T → ∀ n, o.Uses T n ↔
      .str T ∈ requests settings schema mode ∧ n = given rules (asked settings schema mode) T := by
  cases mode with
  | registry =>
    obtain ⟨o, hprints, huses⟩ := output_of_registryPass h
    exact ⟨o, hprints, fun T _ => huses T⟩
  | enums =>
    obtain ⟨o, hprints, huses⟩ := output_of_enumPass h
    exact ⟨o, hprints, fun T _ => huses T⟩
  | classes => exact output_of_classPass h

/-- Between any two outputs for a schema, whatever their passes and settings: two occurrences of types have one name
    exactly when the types share a base and have the same rank among the requests of their passes. So the outputs are
    at one about a type exactly when its ranks are equal. -/
theorem type_names_agree_iff {s₁ s₂ : Settings} {schema : Schema} {p₁ p₂ : Mode} {σ₁ σ₂ τ₁ τ₂ : Session}
    {text₁ text₂ : String} (h₁ : Yields (passOf s₁ schema p₁) σ₁ text₁ τ₁)
    (h₂ : Yields (passOf s₂ schema p₂) σ₂ text₂ τ₂) :
    ∃ o₁ o₂ : Output, o₁.Prints s₁ schema text₁ ∧ o₂.Prints s₂ schema text₂ ∧
      ∀ T U, Defines s₁ schema T → Defines s₂ schema U →
        ((∃ n, o₁.Uses T n) ↔ .str T ∈ requests s₁ schema p₁) ∧ ((∃ k, o₂.Uses U k) ↔ .str U ∈ requests s₂ schema p₂) ∧
        ∀ n k, o₁.Uses T n → o₂.Uses U k →
          (n = k ↔ pascalBase rules T = pascalBase rules U ∧
            rank (pascalBase rules) (asked s₁ schema p₁) T = rank (pascalBase rules) (asked s₂ schema p₂) U) := by
  obtain ⟨o₁, hprints₁, huses₁⟩ := uses_iff h₁
  obtain ⟨o₂, hprints₂, huses₂⟩ := uses_iff h₂
  refine ⟨o₁, o₂, hprints₁, hprints₂, fun T U hT hU => ⟨?_, ?_, ?_⟩⟩
  · simp only [huses₁ T hT, exists_and_left, exists_eq, and_true]
  · simp only [huses₂ U hU, exists_and_left, exists_eq, and_true]
  · intro n k hn hk
    rw [((huses₁ T hT n).mp hn).2, ((huses₂ U hU k).mp hk).2]
    exact given_eq_iff

/-- Whether a text is among some values can be computed. -/
theorem str_mem_of_any {n : String} {vs : List Json} (h : vs.any (· == .str n) = true) : .str n ∈ vs := by
  obtain ⟨v, hv, he⟩ := List.any_eq_true.mp h
  rwa [beq_str_iff.mp he] at hv

/-- A model and an enum whose names convert to one base. -/
def clashing : Schema :=
  { models := [(.str "foo_bar", { name := .str "foo_bar", fields := [
      { name := .str "id", type := .str "ID" }, { name := .str "kind", type := .str "FooBar" }] })]
    enums := [(.str "FooBar", { name := .str "FooBar", values := [.str "A"] })] }

/-- The class pass asks for the model first and numbers the enum; the enum pass asks for the enum alone. So the class
    has a member of a type that the enum pass does not declare. -/
theorem enum_is_numbered_by_the_class_pass_only :
    ∃ text₁ text₂ τ₁ τ₂, Yields (passOf {} clashing .classes) {} text₁ τ₁ ∧
      Yields (passOf {} clashing .enums) {} text₂ τ₂ ∧ ∃ o₁ o₂ : Output, o₁.Prints {} clashing text₁ ∧
        o₂.Prints {} clashing text₂ ∧ (∃ n, o₁.Uses "FooBar" n) ∧ (∃ n, o₂.Uses "FooBar" n) ∧
        ∀ n, o₁.Uses "FooBar" n → ¬ o₂.Uses "FooBar" n := by
  obtain ⟨text₁, τ₁, h₁⟩ := exists_yields_of_succeeds
    (show succeeds (passOf {} clashing .classes) {} = true by decide +kernel)
  obtain ⟨text₂, τ₂, h₂⟩ := exists_yields_of_succeeds
    (show succeeds (passOf {} clashing .enums) {} = true by decide +kernel)
  have hdefines : Defines {} clashing "FooBar" := by
    refine ⟨by decide +kernel, fun mapper hmapper => ?_⟩
    obtain rfl : { schema := clashing, scalars := defaultScalars } = mapper := Except.ok.inj hmapper
    have : (Entries.get? (.str "FooBar") defaultScalars).isNone = true := by decide +kernel
    exact Option.isNone_iff_eq_none.mp this
  obtain ⟨o₁, o₂, hprints₁, hprints₂, huses⟩ := type_names_agree_iff h₁ h₂
  obtain ⟨huses₁, huses₂, hsame⟩ := huses "FooBar" "FooBar" hdefines hdefines
  refine ⟨text₁, text₂, τ₁, τ₂, h₁, h₂, o₁, o₂, hprints₁, hprints₂, huses₁.mpr (str_mem_of_any (by decide +kernel)),
    huses₂.mpr (str_mem_of_any (by decide +kernel)), fun n hn₁ hn₂ => ?_⟩
  have hranks := ((hsame n n hn₁ hn₂).mp rfl).2
  revert hranks
  decide +kernel

end SchemaForge.Java

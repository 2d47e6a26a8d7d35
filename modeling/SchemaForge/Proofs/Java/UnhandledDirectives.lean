import Mathlib.Logic.Relation
import SchemaForge.Proofs.Java.TypeNames

/-
Directives that are not handled. A directive annotates by its name, and names other than `Model.handledNames` and
`Field.handledNames` annotate nothing. One schema is another with one such directive more, at any place of any model or
field (`Schema.Adds`); putting in and taking out any number of them is the equivalence this generates.

A schema without all of them is its plain one. One directive more leaves it the same (`plain_of_adds`), so schemas that
are equivalent have one plain schema (`plain_of_eqvGen`), and what is known about a schema and its plain one is known
about any two that are equivalent.

Only names that can be looked up count here: a list or an object for a name is an error wherever it is met.
-/

namespace SchemaForge

/-- The names under which a directive of a model is handled. -/
def Model.handledNames : List String := ["model", "key"]

/-- The names under which a directive of a field is handled. -/
def Field.handledNames : List String := ["connection"]

def Directive.unhandled (names : List String) (d : Directive) : Bool :=
  d.name.isScalar && names.all (fun n => !(d.name == .str n))

/-- The second list is the first with one directive more. -/
inductive OneMore (names : List String) : List Directive → List Directive → Prop
  | insert (front back : List Directive) {d : Directive} (hd : d.unhandled names = true) :
      OneMore names (front ++ back) (front ++ d :: back)

inductive Field.Adds : Field → Field → Prop
  | directive {f : Field} {ds : List Directive} (h : OneMore Field.handledNames f.directives ds) :
      Field.Adds f { f with directives := ds }

inductive Model.Adds : Model → Model → Prop
  | directive {m : Model} {ds : List Directive} (h : OneMore Model.handledNames m.directives ds) :
      Model.Adds m { m with directives := ds }
  | field {m : Model} (before after : List Field) {f f' : Field} (hm : m.fields = before ++ f :: after)
      (h : f.Adds f') : Model.Adds m { m with fields := before ++ f' :: after }

inductive Schema.Adds : Schema → Schema → Prop
  | model {s : Schema} (before after : List (Json × Model)) {key : Json} {m m' : Model}
      (hs : s.models = before ++ (key, m) :: after) (h : m.Adds m') :
      Schema.Adds s { s with models := before ++ (key, m') :: after }

/-! ## Without them -/

def handledOnly (names : List String) (ds : List Directive) : List Directive := ds.filter (fun d => !d.unhandled names)

def Field.plain (f : Field) : Field := { f with directives := handledOnly Field.handledNames f.directives }

def Model.plain (m : Model) : Model :=
  { m with fields := m.fields.map Field.plain, directives := handledOnly Model.handledNames m.directives }

def Schema.plain (s : Schema) : Schema := { s with models := s.models.map (fun e => (e.1, e.2.plain)) }

theorem handledOnly_of_oneMore {names : List String} {ds ds' : List Directive} (h : OneMore names ds ds') :
    handledOnly names ds = handledOnly names ds' := by
  cases h with
  | insert front back hd =>
    unfold handledOnly
    rw [List.filter_append, List.filter_append, List.filter_cons_of_neg (by simp [hd])]

theorem Field.plain_of_adds {f f' : Field} (h : f.Adds f') : f.plain = f'.plain := by
  cases h with
  | directive h =>
    unfold Field.plain
    rw [handledOnly_of_oneMore h]

theorem Model.plain_of_adds {m m' : Model} (h : m.Adds m') : m.plain = m'.plain := by
  cases h with
  | directive h =>
    unfold Model.plain
    rw [handledOnly_of_oneMore h]
  | field before after hm h =>
    unfold Model.plain
    simp only [hm, List.map_append, List.map_cons, Field.plain_of_adds h]

theorem Schema.plain_of_adds {s s' : Schema} (h : s.Adds s') : s.plain = s'.plain := by
  cases h with
  | model before after hs h =>
    unfold Schema.plain
    simp only [hs, List.map_append, List.map_cons, Model.plain_of_adds h]

theorem Schema.plain_of_eqvGen {s s' : Schema} (h : Relation.EqvGen Schema.Adds s s') : s.plain = s'.plain := by
  induction h with
  | rel s s' h => exact plain_of_adds h
  | refl s => rfl
  | symm s s' _ ih => exact ih.symm
  | trans s s' s'' _ _ ih ih' => exact ih.trans ih'

/-! ## What they are handled as -/

namespace Java

open Generation Generation.Pass

variable {R : Session → Session → Prop} {d : Directive}

theorem ne_of_unhandled {names : List String} {n : String} (h : d.unhandled names = true) (hn : n ∈ names) :
    d.name ≠ .str n := by
  intro heq
  have := List.all_eq_true.mp (Bool.and_eq_true_iff.mp h).2 n hn
  rw [heq, Json.beq_str_iff.mpr rfl] at this
  cases this

theorem ofFault_toKey_of_unhandled {names : List String} (h : d.unhandled names = true) :
    Pass.ofFault d.name.toKey = pure d.name := by
  have hkey : d.name.toKey = .ok d.name := if_pos (Bool.and_eq_true_iff.mp h).1
  rw [hkey]
  rfl

theorem modelDirective_of_unhandled (m : Model) (h : d.unhandled Model.handledNames = true) :
    modelDirective m d = ignored d "model" m.name := by
  unfold modelDirective
  rw [ofFault_toKey_of_unhandled h, pure_bind]
  split
  · rename_i hname
    exact absurd hname (ne_of_unhandled h (by decide))
  · rename_i hname
    exact absurd hname (ne_of_unhandled h (by decide))
  · rfl

theorem fieldDirective_of_unhandled (f : Field) (h : d.unhandled Field.handledNames = true) :
    fieldDirective f d = ignored d "field" f.name := by
  unfold fieldDirective
  rw [ofFault_toKey_of_unhandled h, pure_bind]
  split
  · rename_i hname
    exact absurd hname (ne_of_unhandled h (by decide))
  · rfl

/-- But for the log, noting a directive is doing nothing. -/
theorem agree_ignored_none (d : Directive) (owner : String) (name : Json) :
    Agree SameNames (ignored d owner name) (pure none) SameNames :=
  fun _ t hst => ⟨.ok none, _, t, rfl, rfl, fun _ _ => hst⟩

theorem bears_sameNames : Bears SameNames := fun _ _ _ hst => hst

theorem modelAnnotations_eq (m : Model) :
    modelAnnotations m = (do return suppressWarnings :: (← collect (modelDirective m) m.directives)) := by
  unfold modelAnnotations collect
  simp only [bind_assoc, pure_bind]

theorem fieldAnnotations_eq (f : Field) :
    fieldAnnotations f = (do return modelFieldText f :: (← collect (fieldDirective f) f.directives)) := by
  unfold fieldAnnotations collect
  simp only [bind_assoc, pure_bind]

theorem agree_modelAnnotations_plain (m : Model) :
    Agree SameNames (modelAnnotations m) (modelAnnotations m.plain) SameNames := by
  rw [modelAnnotations_eq, modelAnnotations_eq]
  have hcollected : Agree SameNames (collect (modelDirective m) m.directives)
      (collect (modelDirective m) (handledOnly Model.handledNames m.directives)) SameNames := by
    refine agree_collect_filter (agree_modelDirective bears_sameNames m) (fun d hd => ?_) m.directives
    rw [modelDirective_of_unhandled m (by simpa using hd)]
    exact agree_ignored_none _ _ _
  exact agree_bind hcollected fun _ => agree_pure _

theorem agree_fieldAnnotations_plain (f : Field) :
    Agree SameNames (fieldAnnotations f) (fieldAnnotations f.plain) SameNames := by
  rw [fieldAnnotations_eq, fieldAnnotations_eq]
  have hcollected : Agree SameNames (collect (fieldDirective f) f.directives)
      (collect (fieldDirective f) (handledOnly Field.handledNames f.directives)) SameNames := by
    refine agree_collect_filter (agree_fieldDirective bears_sameNames f) (fun d hd => ?_) f.directives
    rw [fieldDirective_of_unhandled f (by simpa using hd)]
    exact agree_ignored_none _ _ _
  exact agree_bind hcollected fun _ => agree_pure _

end Java

end SchemaForge

import SchemaForge.Proofs.Generation.TwoRuns
import SchemaForge.Proofs.Java.TypeNames

/-
One model in two schemas. A class declaration looks at the schema around it only to see which of its field types are
models or enums, and at what was emitted before it only for the class names it is answered. It asks for its own name
and for those field types (`modelRequests`), each in its turn, so two sessions can make a difference to it only in
what they answer to these (`answers`).

`AlikeOn` is the relation between two passes that carries this: sessions alike on the requests still to be made give one
outcome, and are alike on what comes after. `classText_eq_of_answers` is its end.
-/

namespace SchemaForge.Java

open Generation Generation.Pass

/-! ## Answers -/

/-- What a request for a class name is answered, and the names that are handed out then. -/
def answer (names : Naming.Allocator) (v : Json) : Except Failure String × Naming.Allocator :=
  match ((className v).run.run { names := names } : Id _) with
  | (answer, s) => (answer, s.names)

/-- What requests are answered in turn. One that fails leaves the names as they are. -/
def answers (names : Naming.Allocator) : List Json → List (Except Failure String)
  | [] => []
  | v :: vs => (answer names v).1 :: answers (answer names v).2 vs

def AnsweredAlike (vs : List Json) (s t : Session) : Prop := answers s.names vs = answers t.names vs

theorem bears_answeredAlike (vs : List Json) : Bears (AnsweredAlike vs) := fun _ _ _ hst => hst

theorem run_className (v : Json) (s : Session) :
    ((className v).run.run s : Id _) = ((answer s.names v).1, { s with names := (answer s.names v).2 }) :=
  run_assignName rules v .pascal conflictSuffix s

theorem agree_className (v : Json) (later : List Json) :
    Agree (AnsweredAlike (v :: later)) (className v) (className v) (AnsweredAlike later) := by
  intro s t hst
  obtain ⟨hanswer, hlater⟩ := List.cons.inj hst
  refine ⟨_, _, { t with names := (answer t.names v).2 }, run_className v s, ?_, fun _ _ => hlater⟩
  rw [run_className v t, hanswer]

/-- Two passes that make the same requests for class names and differ in nothing else. -/
def AlikeOn {α : Type} (vs : List Json) (p q : Pass α) : Prop :=
  ∀ later, Agree (AnsweredAlike (vs ++ later)) p q (AnsweredAlike later)

theorem alikeOn_mapM {α β : Type} {f g : α → Pass β} {reqs : α → List Json} {xs : List α}
    (h : ∀ x ∈ xs, AlikeOn (reqs x) (f x) (g x)) : AlikeOn (xs.flatMap reqs) (xs.mapM f) (xs.mapM g) := by
  intro later
  refine agree_mapM (R := fun ys => AnsweredAlike (ys.flatMap reqs ++ later)) fun x hx ys => ?_
  rw [List.flatMap_cons, List.append_assoc]
  exact h x hx _

/-! ## A declaration in two schemas -/

section Schemas

variable {mapper₁ mapper₂ : TypeMapper}

/-- The type is a model or an enum to both or to neither. -/
def SameStatus (mapper₁ mapper₂ : TypeMapper) (type : Json) : Prop :=
  (mapper₁.schema.isModel type || mapper₁.schema.isEnum type)
    = (mapper₂.schema.isModel type || mapper₂.schema.isEnum type)

instance (mapper₁ mapper₂ : TypeMapper) (type : Json) : Decidable (SameStatus mapper₁ mapper₂ type) :=
  inferInstanceAs (Decidable (_ = _))

theorem alikeOn_native (hscalars : mapper₁.scalars = mapper₂.scalars) {f : Field}
    (hstatus : SameStatus mapper₁ mapper₂ f.type) :
    AlikeOn (fieldRequests mapper₁ f) (mapper₁.native f.type) (mapper₂.native f.type) := by
  unfold fieldRequests TypeMapper.asks TypeMapper.native
  rw [← hscalars, ← show _ = _ from hstatus]
  cases Entries.get? f.type mapper₁.scalars with
  | some scalar => exact fun later => agree_pure scalar
  | none =>
    cases mapper₁.schema.isModel f.type || mapper₁.schema.isEnum f.type with
    | false => exact fun later => agree_pure f.type
    | true => exact fun later => agree_bind (agree_className f.type later) fun _ => agree_pure _

theorem alikeOn_resolve (hscalars : mapper₁.scalars = mapper₂.scalars) {f : Field}
    (hstatus : SameStatus mapper₁ mapper₂ f.type) :
    AlikeOn (fieldRequests mapper₁ f) (mapper₁.resolve f) (mapper₂.resolve f) :=
  fun later => agree_resolve (alikeOn_native hscalars hstatus later)

theorem alikeOn_member (hscalars : mapper₁.scalars = mapper₂.scalars) {f : Field}
    (hstatus : SameStatus mapper₁ mapper₂ f.type) :
    AlikeOn (fieldRequests mapper₁ f) (member mapper₁ f) (member mapper₂ f) := by
  intro later
  have hnames : Agree (AnsweredAlike (fieldRequests mapper₁ f ++ later)) (mapper₁.fieldNames f) (mapper₂.fieldNames f)
      (AnsweredAlike later) :=
    agree_bind (agree_ofFault _) fun _ => agree_bind (agree_ofFault _) fun _ => agree_bind (agree_ofFault _) fun _ =>
      agree_bind (alikeOn_resolve hscalars hstatus later) fun _ => agree_pure _
  refine agree_bind hnames fun _ => ?_
  exact agree_bind (agree_fieldAnnotations (bears_answeredAlike later) f) fun _ => agree_pure _

theorem alikeOn_ofModel (comments : Bool) (hscalars : mapper₁.scalars = mapper₂.scalars) {m : Model}
    (hstatus : ∀ f ∈ m.fields, SameStatus mapper₁ mapper₂ f.type) :
    AlikeOn (modelRequests mapper₁ m) (ClassDecl.ofModel comments mapper₁ m)
      (ClassDecl.ofModel comments mapper₂ m) := by
  intro later
  simp only [ClassDecl.ofModel]
  split
  · exact agree_fail_bind _ _ _
  refine agree_bind (agree_note (bears_answeredAlike _) _ _) fun _ => ?_
  refine agree_bind (agree_className m.name _) fun name => ?_
  refine agree_bind (alikeOn_mapM (fun f hf => alikeOn_member hscalars (hstatus f hf)) later) fun members => ?_
  -- From here on the two are one pass, which asks for no more names.
  split
  · refine agree_bind (agree_pure _) fun plan => ?_
    split
    · exact agree_fail_bind _ _ _
    refine agree_bind (agree_modelAnnotations (bears_answeredAlike later) m) fun annotations => ?_
    refine agree_bind (agree_ofFault _) fun instanceName => ?_
    split
    · exact agree_fail _
    · exact agree_pure _
  · exact agree_fail_bind _ _ _

theorem alikeOn_classText (settings : Settings) (hscalars : mapper₁.scalars = mapper₂.scalars) {m : Model}
    (hstatus : ∀ f ∈ m.fields, SameStatus mapper₁ mapper₂ f.type) :
    AlikeOn (modelRequests mapper₁ m) (classText settings mapper₁ m) (classText settings mapper₂ m) :=
  fun later => agree_bind (alikeOn_ofModel (commented settings) hscalars hstatus later) fun decl =>
    agree_bind (agree_render classTemplate decl.context) fun _ => agree_pure _

theorem modelRequests_eq (hscalars : mapper₁.scalars = mapper₂.scalars) {m : Model}
    (hstatus : ∀ f ∈ m.fields, SameStatus mapper₁ mapper₂ f.type) :
    modelRequests mapper₂ m = modelRequests mapper₁ m := by
  unfold modelRequests
  refine congrArg _ (List.flatMap_congr fun f hf => ?_)
  unfold fieldRequests TypeMapper.asks
  rw [hscalars, show _ = _ from hstatus f hf]

/-- A class declaration and its imports, or the failure in their place, are the same in two schemas with one scalar
    table and in any two sessions, as long as the types of its fields have their status in both and are given the same
    names along with the model. -/
theorem classText_eq_of_answers (settings : Settings) (hscalars : mapper₁.scalars = mapper₂.scalars) {m : Model}
    (hstatus : ∀ f ∈ m.fields, SameStatus mapper₁ mapper₂ f.type) {s t : Session}
    (hanswers : answers s.names (modelRequests mapper₁ m) = answers t.names (modelRequests mapper₂ m)) :
    outcome (classText settings mapper₁ m) s = outcome (classText settings mapper₂ m) t := by
  have halike : AnsweredAlike (modelRequests mapper₁ m ++ []) s t := by
    rw [List.append_nil]
    exact hanswers.trans (congrArg _ (modelRequests_eq hscalars hstatus))
  exact outcome_eq_of_agree (alikeOn_classText settings hscalars hstatus []) halike

end Schemas

/-- Answers that are names can be compared. -/
theorem answers_eq_of_names {as : List (Except Failure String)} {names : List String}
    (h : as.map Except.toOption = names.map some) : as = names.map .ok := by
  induction as generalizing names with
  | nil => exact (List.map_eq_nil_iff.mp h.symm) ▸ rfl
  | cons a as ih =>
    cases names with
    | nil => cases h
    | cons n names =>
      obtain ⟨hn, hnames⟩ := List.cons.inj h
      cases a with
      | error e => cases hn
      | ok a => rw [ih hnames, Option.some.inj hn, List.map_cons]

/-- A model that mentions another type, and itself. -/
def post : Model :=
  { name := .str "post"
    fields := [
      { name := .str "id", type := .str "ID", nullable := false },
      { name := .str "tone", type := .str "tone" },
      { name := .str "sent_at", type := .str "AWSDate" },
      { name := .str "replies", type := .str "post", list := true }] }

/-- The other type is a model here, and there are no more. -/
def diary : TypeMapper :=
  { schema := { models := [(.str "post", post), (.str "tone", { name := .str "tone", fields := [] })] }
    scalars := defaultScalars }

def comment : Model :=
  { name := .str "Comment"
    fields := [{ name := .str "id", type := .str "ID" }, { name := .str "about", type := .str "post" }] }

/-- Here it is an enum, and there is a model more. -/
def forum : TypeMapper :=
  { schema := {
      models := [(.str "Comment", comment), (.str "post", post)]
      enums := [(.str "tone", { name := .str "tone", values := [.str "CALM"] })] }
    scalars := defaultScalars }

/-- The session in which the other model has been emitted. -/
def afterComment : Session := ((classText {} forum comment).run.run {} : Id _).2

theorem post_in_diary_and_forum :
    diary.scalars = forum.scalars ∧ (∀ f ∈ post.fields, SameStatus diary forum f.type) ∧
      answers ({} : Session).names (modelRequests diary post) = answers afterComment.names (modelRequests forum post) ∧
      (outcome (classText {} diary post) {}).toBool = true ∧
      outcome (classText {} diary post) {} = outcome (classText {} forum post) afterComment := by
  have hscalars : diary.scalars = forum.scalars := rfl
  have hstatus : ∀ f ∈ post.fields, SameStatus diary forum f.type := by decide +kernel
  have hdiary : answers ({} : Session).names (modelRequests diary post) = ["Post", "Tone", "Post"].map .ok :=
    answers_eq_of_names (by decide +kernel)
  have hforum : answers afterComment.names (modelRequests forum post) = ["Post", "Tone", "Post"].map .ok :=
    answers_eq_of_names (by decide +kernel)
  have hanswers := hdiary.trans hforum.symm
  exact ⟨hscalars, hstatus, hanswers, by decide +kernel, classText_eq_of_answers {} hscalars hstatus hanswers⟩

end SchemaForge.Java

import SchemaForge.Java.Backend
import SchemaForge.Proofs.Generation.TwoRuns
import SchemaForge.Proofs.Runs

/-
A generator that is used again. Between calls it keeps the names it has handed out, whatever became of the calls: a pass
that fails half way leaves those it has asked for. A pass starts over if it forgets them before it asks for any
(`StartsOver`): then what it does depends on them no more, and a whole generation ends the same whatever came before it
(`generate_of_startsOver`).

All passes of the Java target start over, so a generator of it answers after any history as a new one with the same
settings (`generate_after_calls`).
-/

namespace SchemaForge

namespace Generation.Pass

def SameLog (s t : Session) : Prop := s.log = t.log

/-- Sessions that differ in their names only become one, unless the pass fails in both alike. -/
def StartsOver {α : Type} (p : Pass α) : Prop := Agree SameLog p p Eq

theorem bears_sameLog : Bears SameLog := fun _ _ entry hst => congrArg (· ++ [entry]) hst

theorem startsOver_resetNames : StartsOver resetNames := by
  intro s t hst
  refine ⟨_, _, _, rfl, rfl, fun _ _ => ?_⟩
  show ({ s with names := {} } : Session) = { t with names := {} }
  rw [show s.log = t.log from hst]

theorem startsOver_bind {α β : Type} {p : Pass α} (h : StartsOver p) (f : α → Pass β) : StartsOver (p >>= f) :=
  agree_bind h fun _ => agree_eq _

end Generation.Pass

open Generation Generation.Pass

namespace Generator

/-- A use of a generator. -/
inductive Call
  | generate (schema : Schema) (mode : Option Mode)
  | report (schema : Schema) (mode : Option Mode)
  | warnings (schema : Schema)

/-- The generator that a call leaves, however it ends. -/
def Call.run (g : Generator) : Call → Generator
  | .generate schema mode => (g.generate schema mode).2
  | .report schema mode => (g.generateCode schema mode).2.2
  | .warnings _ => g

def after (g : Generator) (calls : List Call) : Generator := calls.foldl Call.run g

/-- Only names outlive a call. -/
theorem run_eq (g : Generator) (call : Call) : ∃ names, call.run g = { g with names := names } := by
  cases call with
  | generate schema mode => exact ⟨_, rfl⟩
  | report schema mode => exact ⟨_, rfl⟩
  | warnings schema => exact ⟨_, rfl⟩

theorem after_eq (calls : List Call) : ∀ g : Generator, ∃ names, g.after calls = { g with names := names } := by
  induction calls with
  | nil => exact fun g => ⟨g.names, rfl⟩
  | cons call calls ih =>
    intro g
    obtain ⟨names, hcall⟩ := run_eq g call
    obtain ⟨names', hcalls⟩ := ih (call.run g)
    refine ⟨names', ?_⟩
    rw [hcall] at hcalls
    rw [← hcalls, ← hcall]
    rfl

/-- Every pass of the generator starts over. -/
def StartsOver (g : Generator) : Prop := ∀ schema mode, Pass.StartsOver (g.modePass schema mode)

theorem startsOver_textPass {g : Generator} (h : g.StartsOver) (schema : Schema) (mode : Option Mode) :
    Pass.StartsOver (g.textPass schema mode) := by
  have hpass : ∀ mode : Mode, Pass.StartsOver (do
      Pass.note .info ("Generating " ++ mode.name ++ " (" ++ g.backend.language ++ ")")
      return Generation.tidy (← g.modePass schema mode)) :=
    fun mode => agree_bind (agree_note bears_sameLog _ _) fun _ => startsOver_bind (h schema mode) _
  unfold textPass
  cases mode with
  | some mode => exact hpass mode
  | none => exact agree_bind (agree_ofExcept _) hpass

/-- The names that a generator has handed out make no difference to what it generates. -/
theorem generate_of_startsOver {g : Generator} (h : g.StartsOver) (names : Naming.Allocator) (schema : Schema)
    (mode : Option Mode) : ({ g with names := names }.generate schema mode).1 = (g.generate schema mode).1 :=
  outcome_eq_of_agree (startsOver_textPass h schema mode) rfl

end Generator

namespace Java

theorem startsOver_startMapper (s : Settings) (schema : Schema) : Pass.StartsOver (startMapper s schema) :=
  startsOver_bind startsOver_resetNames _

theorem startsOver_modePass {g : Generator} (hg : g.backend = backend) : g.StartsOver := by
  intro schema mode
  unfold Generator.modePass
  rw [hg]
  cases mode with
  | registry => exact startsOver_bind (startsOver_startMapper g.settings schema) _
  | enums => exact startsOver_bind (startsOver_startMapper g.settings schema) _
  | classes => exact startsOver_bind (startsOver_startMapper g.settings schema) _

theorem backend_of_create {s : Settings} {g : Generator} (h : Generator.create backend s = .ok g) :
    g.backend = backend := by
  obtain ⟨_, -, hg⟩ := Runs.bind_eq_ok.mp h
  rw [← Except.ok.inj hg]

/-- After any calls, those that failed half way among them, a generator gives the text or the failure that a new one
    with the same settings gives. -/
theorem generate_after_calls {s : Settings} {g : Generator} (hg : Generator.create backend s = .ok g)
    (calls : List Generator.Call) (schema : Schema) (mode : Option Mode) :
    ((g.after calls).generate schema mode).1 = (g.generate schema mode).1 := by
  obtain ⟨names, hafter⟩ := Generator.after_eq calls g
  rw [hafter]
  exact Generator.generate_of_startsOver (startsOver_modePass (backend_of_create hg)) names schema mode

/-- The enum pass of this schema names its first enum and fails at its second. -/
def moods : Schema :=
  { enums := [
      (.str "Post", { name := .str "Post", values := [.str "GOOD"] }),
      (.str "Mood", { name := .str "Mood", values := [.str "GOOD", .str "GOOD"] })] }

/-- A model for which the name would be taken. -/
def posts : Schema :=
  { models := [(.str "post", { name := .str "post", fields := [{ name := .str "id", type := .str "ID" }] })] }

theorem posts_after_moods :
    Generator.create backend {} = .ok { backend := backend, settings := {} } ∧
      (Generator.after { backend := backend, settings := {} } [.warnings moods, .generate moods (some .enums)]).names.used
        = ["Post"] ∧
      ((Generator.after { backend := backend, settings := {} } [.warnings moods, .generate moods (some .enums)]).generate
          posts none).1
        = (Generator.generate { backend := backend, settings := {} } posts none).1 :=
  have hcreate : Generator.create backend {} = .ok { backend := backend, settings := {} } := rfl
  ⟨hcreate, by decide +kernel, generate_after_calls hcreate _ posts none⟩

end Java

end SchemaForge

import SchemaForge.Generation.Session
import SchemaForge.Generation.Tidy
import SchemaForge.Schema.Basic
import SchemaForge.Settings.Basic

/-
Generation for a target. A backend gives the three passes of its target and its own warnings; this module
gives what all targets share: which models and enums are in scope, which pass runs, the checks of the schema,
and the report of a whole generation.

A generator is a backend with settings and the names it has handed out so far. A pass that starts over with
its names does not depend on what ran before.
-/

namespace SchemaForge

namespace Generation

/-- What one pass writes. -/
inductive Mode
  | registry
  | enums
  | classes
  deriving DecidableEq, Repr

def Mode.name : Mode → String
  | .registry => "registry"
  | .enums => "enums"
  | .classes => "classes"

def Mode.ofName? (name : String) : Option Mode :=
  [Mode.registry, .enums, .classes].find? (·.name == name)

/-- The entries in scope: all, or the selected one. A selection from the other kind leaves none. -/
def select {ν μ : Type} (s : Settings) (here : List (Json × ν)) (there : List (Json × μ)) :
    Except Failure (List (Json × ν)) :=
  if !s.selectedType.truthy then .ok here
  else if !s.selectedType.isScalar then .error (.fault (.notKey s.selectedType))
  else match Entries.get? s.selectedType here with
    | some v => .ok [(s.selectedType, v)]
    | none =>
      if Entries.has s.selectedType there then .ok [] else .error (.undefinedSelection s.selectedType)

def selectedModels (s : Settings) (schema : Schema) : Except Failure (List (Json × Model)) :=
  select s schema.models schema.enums

def selectedEnums (s : Settings) (schema : Schema) : Except Failure (List (Json × EnumType)) :=
  select s schema.enums schema.models

/-- The pass the settings ask for. -/
def resolveMode (s : Settings) (schema : Schema) : Except Failure Mode :=
  if s.generate == .str "loader" then .ok .registry
  else if !s.selectedType.truthy then .ok .classes
  else if !s.selectedType.isScalar then .error (.fault (.notKey s.selectedType))
  else .ok (if schema.isEnum s.selectedType then .enums else .classes)

/-- No value occurs twice. -/
def distinct : List Json → Bool
  | [] => true
  | v :: vs => !vs.contains v && distinct vs

def distinctValues (vs : List Json) : Except Fault Bool := do
  return distinct (← vs.mapM Json.toKey)

def modelWarnings (m : Model) : List String :=
  if m.fields.isEmpty then ["Model '" ++ m.name.display ++ "' has no fields"]
  else if m.identity?.isNone then ["Model '" ++ m.name.display ++ "' has no 'id' field"]
  else []

def enumWarnings (e : EnumType) : Except Fault (List String) := do
  if e.values.isEmpty then return ["Enum '" ++ e.name.display ++ "' has no values"]
  if ← distinctValues e.values then return []
  return ["Enum '" ++ e.name.display ++ "' has duplicate values"]

/-- The warnings every target gives. -/
def schemaWarnings (schema : Schema) : Except Fault (List String) := do
  return (Entries.values schema.models).flatMap modelWarnings
    ++ (← (Entries.values schema.enums).mapM enumWarnings).flatten

end Generation

open Generation

structure Backend where
  language : String
  fileExtension : String
  /-- Whether a generator can be made with these settings. -/
  accepts : Settings → Except Fault Unit := fun _ => .ok ()
  registryPass : Settings → Schema → Pass String
  enumPass : Settings → Schema → Pass String
  classPass : Settings → Schema → Pass String
  warnings : Settings → Schema → Except Failure (List String) := fun _ schema =>
    (schemaWarnings schema).mapError .fault

structure Generator where
  backend : Backend
  settings : Settings
  names : Naming.Allocator := {}

/-- What a generation reports along with its text. -/
structure Metadata where
  language : String
  fileExtension : String
  mode : Mode
  modelCount : Nat
  enumCount : Nat
  packageName : Json

structure Generated where
  code : String
  warnings : List String
  metadata : Metadata

namespace Generator

def create (b : Backend) (s : Settings) : Except Fault Generator := do
  b.accepts s
  return { backend := b, settings := s }

def ofExcept {α : Type} : Except Failure α → Pass α
  | .ok a => pure a
  | .error f => throw f

def modePass (g : Generator) (schema : Schema) : Mode → Pass String
  | .registry => g.backend.registryPass g.settings schema
  | .enums => g.backend.enumPass g.settings schema
  | .classes => g.backend.classPass g.settings schema

/-- The text for a schema, by the pass that is asked for or the one the settings choose. -/
def textPass (g : Generator) (schema : Schema) (mode : Option Mode) : Pass String := do
  let mode ← match mode with
    | some mode => pure mode
    | none => ofExcept (resolveMode g.settings schema)
  Pass.note .info ("Generating " ++ mode.name ++ " (" ++ g.backend.language ++ ")")
  return tidy (← g.modePass schema mode)

def metadata (g : Generator) (schema : Schema) (mode : Mode) : Except Failure Metadata := do
  return {
    language := g.backend.language
    fileExtension := g.backend.fileExtension
    mode := mode
    modelCount := (← selectedModels g.settings schema).length
    enumCount := (← selectedEnums g.settings schema).length
    packageName := g.settings.packageName }

def reportPass (g : Generator) (schema : Schema) (mode : Option Mode) : Pass Generated := do
  let warnings ← ofExcept (g.backend.warnings g.settings schema)
  let mode ← match mode with
    | some mode => pure mode
    | none => ofExcept (resolveMode g.settings schema)
  let code ← g.textPass schema (some mode)
  return { code := code, warnings := warnings, metadata := ← ofExcept (g.metadata schema mode) }

def failureText (f : Failure) : String := "Code generation failed: " ++ f.message

/-- A failure is noted in the log before it is reported. -/
def reportOrNote (g : Generator) (schema : Schema) (mode : Option Mode) : Pass Generated :=
  tryCatch (g.reportPass schema mode) (fun f => do
    Pass.note .error (failureText f)
    throw f)

/-- The outcome of a pass, its log, and the generator with the names it now knows. -/
def run {α : Type} (g : Generator) (p : Pass α) : Except Failure α × List LogEntry × Generator :=
  let (outcome, session) := (p.run.run { names := g.names } : Id _)
  (outcome, session.log, { g with names := session.names })

def generate (g : Generator) (schema : Schema) (mode : Option Mode) : Except Failure String × Generator :=
  let (outcome, _, g) := g.run (g.textPass schema mode)
  (outcome, g)

/-- A whole generation: text, warnings and metadata, or the failure, with the log of both. -/
def generateCode (g : Generator) (schema : Schema) (mode : Option Mode) :
    Except Failure Generated × List LogEntry × Generator :=
  g.run (g.reportOrNote schema mode)

def warnings (g : Generator) (schema : Schema) : Except Failure (List String) :=
  g.backend.warnings g.settings schema

end Generator

end SchemaForge

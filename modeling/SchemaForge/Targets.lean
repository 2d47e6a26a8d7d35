import SchemaForge.Generation.Registry
import SchemaForge.Java.Backend
import SchemaForge.Schema.Document

/-
The targets there are, and a whole generation from a document to text: the document is read, the target
found and its settings loaded, and only then does the generation run. What goes wrong before it runs refuses
the request; what goes wrong in it is its outcome.
-/

namespace SchemaForge

open Generation

def javaClass : GeneratorClass where
  name := "JavaGenerator"
  module := "modelgen.codegen.languages.java.generator"
  kind := .complete Java.backend

/-- The registry with every target that comes with the library. -/
def targets : Registry := (({} : Registry).register "java" javaClass ["android"] false).2

inductive Refusal
  | document (e : DocumentError)
  | registry (e : RegistryError)

def Refusal.message : Refusal → String
  | .document e => e.message
  | .registry e => e.message

/-- How a generation ended and what it logged. -/
structure Outcome where
  result : Except Failure Generated
  log : List LogEntry

def generateFromDocument (files : FileStore) (document : Json) (language : String) (source : SettingsSource)
    (mode : Option Mode) : Except Refusal Outcome := do
  let schema ← (Schema.ofDocument document).mapError .document
  let g ← (targets.create files language source).mapError .registry
  let (result, log, _) := g.generateCode schema mode
  return { result := result, log := log }

inductive QuickError
  | refused (r : Refusal)
  | failed (f : Failure)

def QuickError.message : QuickError → String
  | .refused r => r.message
  | .failed f => Generator.failureText f

/-- The text alone, with explicit settings. -/
def quickGenerate (document : Json) (language : String) (options : List (String × Json)) :
    Except QuickError String := do
  let outcome ← (generateFromDocument {} document language (.explicit (.obj options)) none).mapError .refused
  return (← outcome.result.mapError .failed).code

end SchemaForge

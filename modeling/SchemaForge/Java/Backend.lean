import SchemaForge.Generation.Backend
import SchemaForge.Java.ClassDecl
import SchemaForge.Java.Templates
import SchemaForge.Schema.Version

/-
The passes of the Java target. Each starts with no names handed out. The class pass writes every selected
model under one file head; the enum pass every selected enum; the registry pass the model provider, which
lists the classes of the selected models and carries the version of the whole schema.
-/

namespace SchemaForge.Java

open Generation

/-- The overrides of the scalar table. -/
def overridesOf (s : Settings) : Except Fault Json := do
  return (← s.custom.get? "scalar_overrides").getD .null

def newMapper (s : Settings) (schema : Schema) : Except Fault TypeMapper := do
  return { schema := schema, scalars := ← scalarsWith (← overridesOf s) }

def startMapper (s : Settings) (schema : Schema) : Pass TypeMapper := do
  Pass.resetNames
  Pass.ofFault (newMapper s schema)

def fileHead (s : Settings) (imports : List String) : Pass String :=
  Pass.render packageTemplate [("package_name", s.packageName), ("imports", .arr (imports.map .str))]

/-- A file of parts, an empty line before each declaration. -/
def fileOf (head : String) (declarations : List String) : String :=
  String.intercalate "\n" (head :: declarations.flatMap (fun d => ["", d]))

def commented (s : Settings) : Bool := s.addComments.truthy

/-! Classes. -/

def classText (s : Settings) (mapper : TypeMapper) (m : Model) : Pass (String × Imports) := do
  let decl ← ClassDecl.ofModel (commented s) mapper m
  return (← Pass.render classTemplate decl.context, decl.imports)

/-- The imports of a file of classes: those its members need beyond the base list, a separator, the base. -/
def headImports (needed : List String) : List String :=
  let extra := needed.filter (fun name => !classImports.contains name)
  (if extra.isEmpty then [] else extra ++ [""]) ++ classImports

def classPass (s : Settings) (schema : Schema) : Pass String := do
  let mapper ← startMapper s schema
  let models ← Generator.ofExcept (selectedModels s schema)
  let classes ← (Entries.values models).mapM (classText s mapper)
  let imports := (classes.map (·.2)).foldl Imports.merge {}
  return fileOf (← fileHead s (headImports imports.drain.1)) (classes.map (·.1))

/-! Enums. -/

def enumContext (comments : Bool) (name : String) (e : EnumType) : List (String × Json) :=
  [("description", if comments then .str "Auto generated enum from GraphQL schema." else .null),
    ("enum_name", .str name), ("values", .arr e.values)]

def enumText (s : Settings) (e : EnumType) : Pass String := do
  if !(← Pass.ofFault (distinctValues e.values)) then Pass.fail (.repeatedEnumValue e.name)
  Pass.note .debug ("Emitting enum " ++ e.name.display)
  let name ← className e.name
  Pass.render enumTemplate (enumContext (commented s) name e)

def enumPass (s : Settings) (schema : Schema) : Pass String := do
  let _ ← startMapper s schema
  let head ← fileHead s []
  let enums ← Generator.ofExcept (selectedEnums s schema)
  return fileOf head (← (Entries.values enums).mapM (enumText s))

/-! The model provider. -/

/-- Each text once, where it first occurs. -/
def firstOccurrences : List String → List String
  | [] => []
  | x :: xs => x :: (firstOccurrences xs).filter (· != x)

def providerContext (s : Settings) (version : String) (classes : List String) : List (String × Json) :=
  [("add_comments", s.addComments), ("loader_class_name", s.loaderClassName),
    ("version_constant", .str "AMPLIFY_MODEL_VERSION"), ("version_literal", .str (stringLiteral version)),
    ("model_classes", .arr (classes.map .str))]

def registryPass (s : Settings) (schema : Schema) : Pass String := do
  let _ ← startMapper s schema
  let models ← Generator.ofExcept (selectedModels s schema)
  let classes ← (Entries.values models).mapM (fun m => do return (← className m.name) ++ ".class")
  let version := schema.version
  Pass.note .debug
    ("Model version " ++ version ++ " for " ++ toString schema.models.length ++ " models")
  let body ← Pass.render providerTemplate (providerContext s version (firstOccurrences classes))
  return fileOf (← fileHead s providerImports) [body]

/-! Warnings. -/

def fieldWarnings (mapper : TypeMapper) (m : Model) (f : Field) : Pass (List String) := do
  let resolved ← mapper.resolve f
  if mapper.knows f.type then return []
  return ["Unknown type " ++ f.type.display ++ " for " ++ m.name.display ++ "." ++ f.name.display
    ++ ", emitted as " ++ resolved.text]

def renameWarnings (mapper : TypeMapper) (m : Model) : Pass (List String) := do
  let name ← className m.name
  let renamed := if m.name == .str name then []
    else ["Model " ++ m.name.display ++ " renamed to " ++ name ++ " in Java"]
  return renamed ++ (← m.fields.mapM (fieldWarnings mapper m)).flatten

/-- Renamed models and unknown types, found by asking for the names in the order of the schema. -/
def namingWarnings (s : Settings) (schema : Schema) : Pass (List String) := do
  let mapper ← Pass.ofFault (newMapper s schema)
  return (← (Entries.values schema.models).mapM (renameWarnings mapper)).flatten

def warnings (s : Settings) (schema : Schema) : Except Failure (List String) := do
  let shared ← (schemaWarnings schema).mapError .fault
  return shared ++ (← ((namingWarnings s schema).run.run {} : Id _).1)

def backend : Backend where
  language := "java"
  fileExtension := ".java"
  accepts := fun s => do let _ ← overridesOf s
  registryPass := registryPass
  enumPass := enumPass
  classPass := classPass
  warnings := warnings

end SchemaForge.Java

import SchemaForge.Generation.Session
import SchemaForge.Java.Imports
import SchemaForge.Java.Names
import SchemaForge.Schema.Basic

/-
Java types and names of schema fields. A field's type is a scalar of the table, a model or enum of the
schema, or else stands as it is. A qualified type is written by its last segment and imported.
-/

namespace SchemaForge.Java

open Generation

def scalarTable : List (String × String) :=
  [("ID", "String"), ("String", "String"), ("Int", "Integer"), ("Float", "Float"), ("Boolean", "Boolean"),
    ("AWSDate", "java.util.Date"), ("AWSDateTime", "java.util.Date"), ("AWSTime", "java.sql.Time"),
    ("AWSTimestamp", "Long"), ("AWSEmail", "String"), ("AWSJSON", "String"), ("AWSURL", "String"),
    ("AWSPhone", "String"), ("AWSIPAddress", "String")]

abbrev Scalars := List (Json × Json)

def defaultScalars : Scalars := scalarTable.map (fun e => (.str e.1, .str e.2))

/-- The scalar table with overrides, which may come in any form that can be read as entries. -/
def scalarsWith (overrides : Json) : Except Fault Scalars := do
  if overrides.truthy then return Entries.putAll (← overrides.entries) defaultScalars
  else return defaultScalars

structure TypeMapper where
  schema : Schema
  scalars : Scalars

/-- A type as declarations write it, and its qualified name if that has to be imported. -/
structure JavaType where
  name : Json
  qualified : Option String := none

namespace JavaType

def text (t : JavaType) : String := t.name.display

def needsImport (t : JavaType) : Bool := t.qualified.isSome

def listOf (t : JavaType) : JavaType := { t with name := .str ("List<" ++ t.text ++ ">") }

end JavaType

/-- A qualified name is shortened to what follows its last dot. -/
def ofNative (native : Json) : Except Fault JavaType := do
  if !(← native.hasText ".") then return { name := native }
  match native with
  | .str s =>
    match Text.cutLast? '.' s.toList with
    | some (_, simple) => return { name := .str (String.ofList simple), qualified := some s }
    | none => return { name := native }
  | v => throw (.noOperation v "rsplit")

/-- The class name of a model or enum. -/
def className (typeName : Json) : Pass String := Pass.assignName rules typeName .pascal conflictSuffix

def convertMember (name : Json) (style : Naming.Case) (suffix : String) : Except Fault String := do
  return rules.convert (← name.toText) style suffix

def memberName (name : Json) : Except Fault String := convertMember name .camel conflictSuffix

def getterName (name : Json) : Except Fault String := do
  return "get" ++ (← convertMember name .pascal "")

def queryName (name : Json) : Except Fault String := convertMember name .screamingSnake conflictSuffix

/-- The interface of the step that sets `name`. -/
def stepInterfaceOf (name : String) : String := "I" ++ rules.convert name .pascal "" ++ "Step"

def stepInterface (name : Json) : Except Fault String := do
  return stepInterfaceOf (← name.toText)

/-- The interface of the terminal step. -/
def buildInterface : String := stepInterfaceOf "Build"

namespace TypeMapper

def knows (m : TypeMapper) (type : Json) : Bool :=
  Entries.has type m.scalars || m.schema.isModel type || m.schema.isEnum type

/-- The Java type of a schema type, still qualified. -/
def native (m : TypeMapper) (type : Json) : Pass Json :=
  match Entries.get? type m.scalars with
  | some native => pure native
  | none =>
    if m.schema.isModel type || m.schema.isEnum type then do return .str (← className type) else pure type

def resolve (m : TypeMapper) (f : Field) : Pass JavaType := do
  let type ← Pass.ofFault f.type.toKey
  let t ← Pass.ofFault (ofNative (← m.native type))
  return if f.list then t.listOf else t

end TypeMapper

/-- Everything that is derived from a field's name, and its type. -/
structure FieldNames where
  member : String
  getter : String
  step : String
  query : String
  type : JavaType

def TypeMapper.fieldNames (m : TypeMapper) (f : Field) : Pass FieldNames := do
  let member ← Pass.ofFault (memberName f.name)
  let getter ← Pass.ofFault (getterName f.name)
  let query ← Pass.ofFault (queryName f.name)
  return { member := member, getter := getter, step := member, query := query, type := ← m.resolve f }

def JavaType.importInto (t : JavaType) (i : Imports) : Imports :=
  match t.qualified with
  | some name => i.add name
  | none => i

end SchemaForge.Java

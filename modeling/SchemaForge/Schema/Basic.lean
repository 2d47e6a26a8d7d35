import SchemaForge.Json.Basic

/-
A schema: models with typed fields, and enums, in document order. Directives annotate models and fields.
A name is usually a text, but a document may put any value in its place, and it is kept as it came.
-/

namespace SchemaForge

structure Directive where
  name : Json
  /-- A list argument holds texts only. -/
  arguments : List (String × Json) := []

structure Field where
  name : Json
  type : Json
  nullable : Bool := true
  list : Bool := false
  directives : List Directive := []

structure Model where
  name : Json
  fields : List Field := []
  directives : List Directive := []

structure EnumType where
  name : Json
  values : List Json := []

/-- Models and enums by name. A name given again keeps its place and takes the later definition. -/
structure Schema where
  models : List (Json × Model) := []
  enums : List (Json × EnumType) := []

def Directive.get? (d : Directive) (key : String) : Option Json := Entries.get? key d.arguments

namespace Field

def required (f : Field) : Bool := !f.nullable

/-- The field named `id` is the unique key of its model. -/
def isIdentity (f : Field) : Bool := f.name == .str "id"

end Field

namespace Model

def identity? (m : Model) : Option Field := m.fields.find? Field.isIdentity

def requiredFields (m : Model) : List Field := m.fields.filter Field.required

def optionalFields (m : Model) : List Field := m.fields.filter Field.nullable

end Model

namespace Schema

def isModel (s : Schema) (name : Json) : Bool := Entries.has name s.models

def isEnum (s : Schema) (name : Json) : Bool := Entries.has name s.enums

end Schema

def Directive.toJson (d : Directive) : Json :=
  .obj [("name", d.name), ("arguments", .obj d.arguments)]

def Field.toJson (f : Field) : Json :=
  .obj [("name", f.name), ("type", f.type), ("isNullable", .bool f.nullable), ("isList", .bool f.list),
    ("directives", .arr (f.directives.map Directive.toJson))]

def Model.toJson (m : Model) : Json :=
  .obj [("name", m.name), ("fields", .arr (m.fields.map Field.toJson)),
    ("directives", .arr (m.directives.map Directive.toJson))]

end SchemaForge

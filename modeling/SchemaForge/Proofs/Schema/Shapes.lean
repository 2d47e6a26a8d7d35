import SchemaForge.Schema.Document

/-
The documents that schemas are written as. A `Shape` says how a value is built, down to the names; it does not say that
anything is there. `Shape.document` is the shape that the format of schemas has, its models and enums in a list or under
their names. What a document of this shape is about can be said without a reading that fails: the records it lists
(`listedModels`, `listedEnums`), what each of them describes (`modelOf`, `enumOf`), and what a record anywhere in it
lacks (`Incomplete`).
-/

namespace SchemaForge

/-- What stands under a key. -/
def Json.at? (key : String) : Json → Option Json
  | .obj ms => Entries.get? key ms
  | _ => none

theorem Json.at?_obj (key : String) (ms : List (String × Json)) : (Json.obj ms).at? key = Entries.get? key ms := rfl

namespace Document

abbrev Shape := Json → Bool

namespace Shape

def any : Shape := fun _ => true

def text : Shape
  | .str _ => true
  | _ => false

def orNull (p : Shape) : Shape
  | .null => true
  | v => p v

def listOf (p : Shape) : Shape
  | .arr xs => xs.all p
  | _ => false

def mappingTo (p : Shape) : Shape
  | .obj ms => ms.all (fun m => p m.2)
  | _ => false

def either (p q : Shape) : Shape := fun v => p v || q v

/-- An object; each of the parts may be missing, and there may be others. -/
def record (parts : List (String × Shape)) : Shape
  | .obj ms => ms.all (fun m => (Entries.get? m.1 parts).all (fun p => p m.2))
  | _ => false

def directive : Shape := record [("name", text), ("arguments", orNull (mappingTo any))]

def field : Shape := record [("name", text), ("directives", listOf directive)]

def model : Shape := record [("name", text), ("fields", listOf field), ("directives", listOf directive)]

def values : Shape := either (listOf any) (mappingTo any)

def enum : Shape := record [("name", text), ("values", values)]

def document : Shape :=
  record [("models", either (listOf model) (mappingTo model)), ("enums", either (listOf enum) (mappingTo values))]

end Shape

/-! ## What is described -/

/-- The list under a key. -/
def listed (key : String) (raw : Json) : List Json :=
  match raw.at? key with
  | some (.arr xs) => xs
  | _ => []

/-- The list under a key, or a record for each entry of the mapping there. -/
def recorded (key : String) (entry : String → Json → Json) (d : Json) : List Json :=
  match d.at? key with
  | some (.arr xs) => xs
  | some (.obj ms) => ms.map (fun m => entry m.1 m.2)
  | _ => []

/-- The body with the key for its name, unless it has a name of its own. -/
def named (key : String) : Json → Json
  | .obj ms => .obj (Entries.putAll ms [("name", .str key)])
  | v => v

def listedModels (d : Json) : List Json := recorded "models" named d

def listedEnums (d : Json) : List Json :=
  recorded "enums" (fun key v => .obj [("name", .str key), ("values", v)]) d

def nameIn (raw : Json) : String :=
  match raw.at? "name" with
  | some (.str name) => name
  | _ => ""

def directiveOf (raw : Json) : Directive where
  name := .str (nameIn raw)
  arguments :=
    match raw.at? "arguments" with
    | some (.obj ms) => ms.map (fun m => (m.1, argument m.2))
    | _ => []

def fieldOf (raw : Json) : Field where
  name := .str (nameIn raw)
  type := (raw.at? "type").getD .null
  nullable := ((raw.at? "isNullable").getD (.bool true)).truthy
  list := ((raw.at? "isList").getD (.bool false)).truthy
  directives := (listed "directives" raw).map directiveOf

def modelOf (raw : Json) : Model where
  name := .str (nameIn raw)
  fields := (listed "fields" raw).map fieldOf
  directives := (listed "directives" raw).map directiveOf

def enumOf (raw : Json) : EnumType where
  name := .str (nameIn raw)
  values :=
    match raw.at? "values" with
    | some (.arr xs) => xs
    | some (.obj ms) => Entries.values ms
    | _ => []

/-! ## What is missing -/

def fieldsIn (d : Json) : List Json := (listedModels d).flatMap (listed "fields")

/-- The directives of models and of their fields. -/
def directivesIn (d : Json) : List Json := (listedModels d ++ fieldsIn d).flatMap (listed "directives")

inductive Incomplete (d : Json) : Prop
  | model (raw : Json) (mem : raw ∈ listedModels d) (unnamed : raw.at? "name" = none)
  | enum (raw : Json) (mem : raw ∈ listedEnums d) (unnamed : raw.at? "name" = none)
  | field (raw : Json) (mem : raw ∈ fieldsIn d) (lacks : raw.at? "name" = none ∨ raw.at? "type" = none)
  | directive (raw : Json) (mem : raw ∈ directivesIn d) (unnamed : raw.at? "name" = none)

end Document

end SchemaForge

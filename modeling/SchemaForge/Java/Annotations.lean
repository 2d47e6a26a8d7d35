import SchemaForge.Generation.Session
import SchemaForge.Java.Literal
import SchemaForge.Schema.Basic

/-
Annotations of generated classes and members. `model` and `key` directives annotate the class, `connection`
directives the member; a directive of any other name annotates nothing and is only noted. Annotations are
given without their `@`.
-/

namespace SchemaForge.Java

open Generation

/-- The recognised arguments of a connection; one that is absent or of the wrong kind is none. -/
structure Connection where
  name : Option String := none
  keyField : Option String := none
  sortField : Option String := none
  keyName : Option String := none
  limit : Option Int := none
  fields : Option (List String) := none

namespace Connection

def textArgument (d : Directive) (key : String) : Option String :=
  match d.get? key with
  | some (.str s) => some s
  | _ => none

/-- The integer part of a number. Zero means no limit. -/
def limitOf : Option Json → Except Fault (Option Int)
  | some (.int n) => .ok (if n == 0 then none else some n)
  | some (.float x) =>
    if x.isZero then .ok none
    else match x.truncate? with
      | some n => .ok (some n)
      | none => .error (if x.isNaN then .notNumber else .infinite)
  | _ => .ok none

def fieldsOf : Option Json → Option (List String)
  | some (.arr xs) => some (xs.map Json.display)
  | _ => none

def ofDirective (d : Directive) : Except Fault Connection := do
  return {
    name := textArgument d "name"
    keyField := textArgument d "keyField"
    sortField := textArgument d "sortField"
    keyName := textArgument d "keyName"
    limit := ← limitOf (d.get? "limit")
    fields := fieldsOf (d.get? "fields") }

def argument (name : String) (value : Option String) : List String :=
  match value with
  | some v => [name ++ " = " ++ v]
  | none => []

/-- The arguments that are present, in their fixed order. -/
def arguments (c : Connection) : List String :=
  argument "name" (c.name.map stringLiteral)
    ++ argument "keyField" (c.keyField.map stringLiteral)
    ++ argument "sortField" (c.sortField.map stringLiteral)
    ++ argument "keyName" (c.keyName.map stringLiteral)
    ++ argument "limit" (c.limit.map toString)
    ++ argument "fields" (c.fields.map (fun fs => literalArray (fs.map .str)))

end Connection

def annotationText (name : String) (arguments : List String) : String :=
  name ++ "(" ++ String.intercalate ", " arguments ++ ")"

def suppressWarnings : String := "SuppressWarnings(\"all\")"

def modelConfigText (m : Model) : String :=
  annotationText "ModelConfig" ["targetName = " ++ literal m.name]

def indexText (d : Directive) : String :=
  annotationText "Index"
    ((match d.get? "name" with
      | some (.str s) => ["name = " ++ stringLiteral s]
      | _ => [])
      ++ match d.get? "fields" with
        | some (.arr xs) => ["fields = " ++ literalArray xs]
        | _ => [])

/-- A connection without a recognised argument annotates nothing. -/
def connectionText (d : Directive) : Except Fault (Option String) := do
  match (← Connection.ofDirective d).arguments with
  | [] => return none
  | arguments => return some (annotationText "Connection" arguments)

def modelFieldText (f : Field) : String :=
  annotationText "ModelField"
    (["targetName = " ++ literal f.name, "targetType = " ++ literal f.type]
      ++ if f.required then ["isRequired = true"] else [])

def ignored (d : Directive) (owner : String) (name : Json) : Pass (Option String) := do
  Pass.note .debug ("Ignoring directive @" ++ d.name.display ++ " on " ++ owner ++ " " ++ name.display)
  return none

def modelDirective (m : Model) (d : Directive) : Pass (Option String) := do
  match ← Pass.ofFault d.name.toKey with
  | .str "model" => return some (modelConfigText m)
  | .str "key" => return some (indexText d)
  | _ => ignored d "model" m.name

def fieldDirective (f : Field) (d : Directive) : Pass (Option String) := do
  match ← Pass.ofFault d.name.toKey with
  | .str "connection" => Pass.ofFault (connectionText d)
  | _ => ignored d "field" f.name

/-- The annotations of a class, the suppression of warnings first. -/
def modelAnnotations (m : Model) : Pass (List String) := do
  return suppressWarnings :: (← m.directives.mapM (modelDirective m)).filterMap id

/-- The annotations of a member: its schema field first, then its directives. -/
def fieldAnnotations (f : Field) : Pass (List String) := do
  return modelFieldText f :: (← f.directives.mapM (fieldDirective f)).filterMap id

end SchemaForge.Java

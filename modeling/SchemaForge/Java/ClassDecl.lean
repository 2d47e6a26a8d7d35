import SchemaForge.Builder.Plan
import SchemaForge.Java.Annotations
import SchemaForge.Java.Types

/-
The declaration of a model class as data: its members, the interfaces of the builder's steps, and the builder
with its slots and setters. `ClassDecl.ofModel` works it out from a model; `ClassDecl.context` hands it to
the class template.

A class is refused if its model has no identity, if its builder has no plan, or if two fields share a member
name.
-/

namespace SchemaForge.Java

open Generation

/-- A field with its Java names, type and annotations. -/
structure Member where
  field : Field
  names : FieldNames
  annotations : List String

/-- A step of the builder: the only call its interface offers, and the interface that call leads to. -/
structure StepDecl where
  interface : String
  returns : String
  method : String
  type : String
  argument : String
  slot : String

/-- A setter on the terminal step. -/
structure SetterDecl where
  method : String
  type : String
  argument : String
  slot : String

/-- A place of the builder that holds a value for a member. -/
structure SlotDecl where
  name : String
  type : String

/-- What the setter of the identity throws for a malformed one. -/
structure IdentityReport where
  exception : String
  message : String
  suggestion : String
  fatal : Bool

def identityReport : IdentityReport :=
  { exception := "AmplifyException"
    message := "Model IDs must be unique in the format of UUID. Provided ID: "
    suggestion := "If you are creating a new object, leave ID blank and one will be auto "
      ++ "generated for you. Otherwise, if you are referencing an existing object, "
      ++ "be sure you are getting the correct id for it."
    fatal := false }

structure ClassDecl where
  description : Option String
  annotations : List String
  name : String
  instanceName : String
  members : List Member
  steps : List StepDecl
  /-- The interface of the terminal step. -/
  terminal : String
  setters : List SetterDecl
  /-- The interface a new builder is first seen through. -/
  entry : String
  slots : List SlotDecl
  identity : Member

namespace Member

def type (m : Member) : String := m.names.type.text

def interface (m : Member) : Except Fault String := stepInterface m.field.name

def slot (m : Member) : SlotDecl := { name := m.names.member, type := m.type }

def setter (m : Member) : SetterDecl :=
  { method := m.names.step, type := m.type, argument := m.names.member, slot := m.names.member }

end Member

def member (mapper : TypeMapper) (f : Field) : Pass Member := do
  let names ← mapper.fieldNames f
  return { field := f, names := names, annotations := ← fieldAnnotations f }

/-- The step interface of a member whose name is a text, as it is once it has names at all. -/
def Member.stepName (m : Member) : String := stepInterfaceOf m.field.name.display

def stepDecl (c : Builder.Contract Member) : StepDecl :=
  { interface := c.item.stepName
    returns := match c.next with
      | some m => m.stepName
      | none => buildInterface
    method := c.item.names.step
    type := c.item.type
    argument := c.item.names.member
    slot := c.item.names.member }

/-- The first member name that occurs more than once. -/
def clash? (ms : List Member) : Option String :=
  let names := ms.map (·.names.member)
  names.find? (fun n => names.count n > 1)

def describe (comments : Bool) (m : Model) : Option String :=
  if comments then
    some ("This is an auto generated class representing the " ++ m.name.display ++ " type in your schema.")
  else none

def ClassDecl.ofModel (comments : Bool) (mapper : TypeMapper) (m : Model) : Pass ClassDecl := do
  if m.identity?.isNone then Pass.fail (.noIdentity m.name)
  Pass.note .debug
    ("Emitting class " ++ m.name.display ++ " (" ++ toString m.fields.length ++ " fields)")
  let name ← className m.name
  let members ← m.fields.mapM (member mapper)
  let plan ← match Builder.planBuilder Member.field Member.stepName [buildInterface] members with
    | .ok plan => pure plan
    | .error e => Pass.fail (.chain e)
  if let some clash := clash? members then Pass.fail (.memberClash m.name clash)
  let annotations ← modelAnnotations m
  let instanceName ← Pass.ofFault (memberName m.name)
  match plan.identity with
  | none => Pass.fail (.noIdentity m.name)
  | some identity =>
    let steps := plan.steps.map stepDecl
    return {
      description := describe comments m
      annotations := annotations
      name := name
      instanceName := instanceName
      members := members
      steps := steps
      terminal := buildInterface
      setters := plan.optional.map Member.setter
      entry := match steps with
        | [] => buildInterface
        | s :: _ => s.interface
      slots := plan.slots.map Member.slot
      identity := identity }

namespace ClassDecl

/-- The imports its member types need, in order of first use. -/
def imports (c : ClassDecl) : Imports := c.members.foldl (fun i m => m.names.type.importInto i) {}

/-- The interfaces the builder implements: the steps in order, then the terminal one. -/
def interfaces (c : ClassDecl) : List String := c.steps.map (·.interface) ++ [c.terminal]

def textOrNull : Option String → Json
  | some s => .str s
  | none => .null

def texts (ss : List String) : Json := .arr (ss.map .str)

def memberContext (m : Member) : Json :=
  .obj [("target_literal", .str (literal m.field.name)), ("member_name", .str m.names.member),
    ("getter_name", .str m.names.getter), ("step_method_name", .str m.names.step),
    ("query_field_name", .str m.names.query), ("type", .str m.type), ("annotations", texts m.annotations)]

def stepContext (s : StepDecl) : Json :=
  .obj [("interface_name", .str s.interface), ("return_type", .str s.returns), ("method_name", .str s.method),
    ("argument_type", .str s.type), ("argument_name", .str s.argument), ("member_name", .str s.slot)]

def setterContext (s : SetterDecl) : Json :=
  .obj [("method_name", .str s.method), ("argument_type", .str s.type), ("argument_name", .str s.argument),
    ("member_name", .str s.slot)]

def slotContext (s : SlotDecl) : Json := .obj [("name", .str s.name), ("type", .str s.type)]

def identityContext (m : Member) : Json :=
  .obj [("method_name", .str m.names.step), ("member_name", .str m.names.member),
    ("argument_name", .str m.names.member), ("type", .str m.type),
    ("exception_type", .str identityReport.exception),
    ("message_literal", .str (stringLiteral identityReport.message)),
    ("suggestion_literal", .str (stringLiteral identityReport.suggestion)),
    ("fatal_literal", .str (if identityReport.fatal then "true" else "false"))]

/-- What the class template is given. -/
def context (c : ClassDecl) : List (String × Json) :=
  [("description", textOrNull c.description), ("annotations", texts c.annotations),
    ("class_name", .str c.name), ("instance_name", .str c.instanceName),
    ("fields", .arr (c.members.map memberContext)), ("steps", .arr (c.steps.map stepContext)),
    ("build_step", .obj [("interface_name", .str c.terminal), ("setters", .arr (c.setters.map setterContext))]),
    ("builder", .obj [("implements", texts c.interfaces), ("slots", .arr (c.slots.map slotContext)),
      ("entry_type", .str c.entry)]),
    ("identity", identityContext c.identity)]

end ClassDecl

end SchemaForge.Java

import SchemaForge.Fault
import SchemaForge.Schema.Basic

/-
A schema read from a document: an object with `models` and `enums`, each a list of records or a mapping
from names to bodies. A missing name or type is reported with the record it is missing from; any other
misfit is the fault of the first value that cannot be used as the document uses it.
-/

namespace SchemaForge

inductive DocumentError
  | notObject
  | modelUnnamed (raw : Json)
  | enumUnnamed (raw : Json)
  | directiveUnnamed (raw : Json)
  | fieldIncomplete (model : Json) (key : String)
  | fault (f : Fault)

def DocumentError.message : DocumentError → String
  | .notObject => "Schema document must be a JSON object"
  | .modelUnnamed raw => "Model without a name: " ++ raw.inspect
  | .enumUnnamed raw => "Enum without a name: " ++ raw.inspect
  | .directiveUnnamed raw => "Directive without a name: " ++ raw.inspect
  | .fieldIncomplete model key => "Field in model '" ++ model.display ++ "' is missing '" ++ key ++ "'"
  | .fault f => f.message

namespace Document

abbrev Reading (α : Type) := Except DocumentError α

def check {α : Type} : Except Fault α → Reading α
  | .ok a => .ok a
  | .error f => .error (.fault f)

/-- A record's value under a key, or what stands for an absent one. Only objects have values to ask for. -/
def optional (raw : Json) (key : String) (absent : Json) : Reading Json :=
  match raw with
  | .obj ms => .ok ((Entries.get? key ms).getD absent)
  | v => .error (.fault (.noOperation v "get"))

/-- A record's name, `unnamed` being the error if there is none. -/
def nameOf (raw : Json) (unnamed : DocumentError) : Reading Json := do
  if !(← check (raw.hasText "name")) then throw unnamed
  match raw with
  | .obj ms => return (Entries.get? "name" ms).getD .null
  | v => throw (.fault (.notIndexable v))

/-- A list argument becomes the texts of its items. -/
def argument : Json → Json
  | .arr xs => .arr (xs.map (fun x => .str x.display))
  | v => v

def arguments (v : Json) : Reading (List (String × Json)) :=
  if v.truthy then
    match v with
    | .obj ms => .ok (ms.map (fun m => (m.1, argument m.2)))
    | v => .error (.fault (.noOperation v "items"))
  else .ok []

def directive (raw : Json) : Reading Directive := do
  if !(← check (raw.hasText "name")) then throw (.directiveUnnamed raw)
  let args ← arguments (← optional raw "arguments" .null)
  return { name := ← optional raw "name" .null, arguments := args }

def directives (raw : Json) : Reading (List Directive) := do
  (← check (← optional raw "directives" (.arr [])).elements).mapM directive

def needed (raw model : Json) (key : String) : Reading Json :=
  match raw with
  | .obj ms =>
    match Entries.get? key ms with
    | some v => .ok v
    | none => .error (.fieldIncomplete model key)
  | v => .error (.fault (.notIndexable v))

def field (model raw : Json) : Reading Field := do
  let name ← needed raw model "name"
  let type ← needed raw model "type"
  return {
    name := name
    type := type
    nullable := (← optional raw "isNullable" (.bool true)).truthy
    list := (← optional raw "isList" (.bool false)).truthy
    directives := ← directives raw }

/-- Adds an entry under a name; a collection cannot be a name. -/
def bind {ν : Type} (name : Json) (v : ν) (es : List (Json × ν)) : Reading (List (Json × ν)) := do
  return Entries.put (← check name.toKey) v es

def addModel (models : List (Json × Model)) (raw : Json) : Reading (List (Json × Model)) := do
  let name ← nameOf raw (.modelUnnamed raw)
  let fields ← (← check (← optional raw "fields" (.arr [])).elements).mapM (field name)
  bind name { name := name, fields := fields, directives := ← directives raw } models

/-- The record for one entry of a mapping: the key as its name, unless the body has a name of its own. -/
def recordOf (entry : String × Json) : Reading Json :=
  match entry.2 with
  | .obj ms => .ok (.obj (Entries.putAll ms [("name", .str entry.1)]))
  | v => .error (.fault (.notMapping v))

def modelRecords : Json → Reading (List Json)
  | .obj ms => ms.mapM recordOf
  | v => check v.elements

def enumRecords : Json → Reading (List Json)
  | .obj ms => .ok (ms.map (fun m => .obj [("name", .str m.1), ("values", m.2)]))
  | v => check v.elements

/-- The values of an enum: a list, or the values of a mapping. -/
def enumValues : Json → Reading (List Json)
  | .obj ms => .ok (Entries.values ms)
  | v => check v.elements

def addEnum (enums : List (Json × EnumType)) (raw : Json) : Reading (List (Json × EnumType)) := do
  if !(← check (raw.hasText "name")) then throw (.enumUnnamed raw)
  let values ← optional raw "values" (.arr [])
  let name ← optional raw "name" .null
  bind name { name := name, values := ← enumValues values } enums

end Document

open Document in
def Schema.ofDocument : Json → Except DocumentError Schema
  | .obj ms => do
    let models ← (← modelRecords ((Entries.get? "models" ms).getD (.arr []))).foldlM addModel []
    let enums ← (← enumRecords ((Entries.get? "enums" ms).getD (.arr []))).foldlM addEnum []
    return { models := models, enums := enums }
  | _ => .error .notObject

end SchemaForge

import SchemaForge.Builder.Chain
import SchemaForge.Naming.Allocator
import SchemaForge.Template.Basic

/-
What a generation pass works with: the names it has handed out, a log of what it did, and the failures that
can end it. The log and the names outlive a failure.
-/

namespace SchemaForge

inductive Level
  | debug
  | info
  | warning
  | error
  deriving DecidableEq, Repr

def Level.name : Level → String
  | .debug => "DEBUG"
  | .info => "INFO"
  | .warning => "WARNING"
  | .error => "ERROR"

structure LogEntry where
  level : Level
  text : String

namespace Generation

inductive Failure
  | undefinedSelection (selected : Json)
  | repeatedEnumValue (enum : Json)
  | noIdentity (model : Json)
  | memberClash (model : Json) (member : String)
  | chain (e : Builder.ChainError String)
  | template (name : String) (e : Template.Error)
  | fault (f : Fault)

def Failure.message : Failure → String
  | .undefinedSelection v => "Selected type '" ++ v.display ++ "' is not defined in the schema"
  | .repeatedEnumValue v => "Enum '" ++ v.display ++ "' declares a value more than once"
  | .noIdentity v => "Model '" ++ v.display ++ "' has no 'id' field"
  | .memberClash v member => "Model '" ++ v.display ++ "' has several fields named '" ++ member ++ "' in Java"
  | .chain e => e.message id
  | .template name e => "Failed to render template " ++ name ++ ": " ++ e.message
  | .fault f => f.message

/-- The name reports give to this kind of failure. -/
def Failure.className : Failure → String
  | .chain _ => "StepPlanError"
  | .template .. => "TemplateError"
  | .fault f => f.className
  | _ => "GeneratorError"

structure Session where
  names : Naming.Allocator := {}
  log : List LogEntry := []

abbrev Pass (α : Type) := ExceptT Failure (StateM Session) α

namespace Pass

def fail {α : Type} (f : Failure) : Pass α := throw f

def ofFault {α : Type} : Except Fault α → Pass α
  | .ok a => pure a
  | .error f => throw (.fault f)

def note (level : Level) (text : String) : Pass Unit :=
  modify (fun s => { s with log := s.log ++ [⟨level, text⟩] })

def render (t : Template) (context : List (String × Json)) : Pass String :=
  match t.render context with
  | .ok text => pure text
  | .error (.fault f) => throw (.fault f)
  | .error e => throw (.template t.name e)

def resetNames : Pass Unit := modify (fun s => { s with names := s.names.reset })

/-- The name for a request, and whatever value it is made for. Only a text can be converted, but a value
with the text of an earlier request gets that one's answer. -/
def assignName (rules : Naming.Rules) (name : Json) (style : Naming.Case) (suffix : String) : Pass String := do
  let s ← get
  match name with
  | .str n =>
    let (answer, names) := s.names.assign rules n style suffix
    set { s with names := names }
    return answer
  | v =>
    match s.names.answered? (Naming.Allocator.requestKey v.display style suffix) with
    | some answer => return answer
    | none => throw (.fault (.notText v))

end Pass

end Generation

end SchemaForge

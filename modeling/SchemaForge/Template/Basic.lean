import SchemaForge.Fault

/-
Text templates: literal text, the texts of expressions, branches on truth, and loops. A variable or member
that does not exist is an error wherever it is used. An object is looked into by member name; a loop runs
over the elements of a value and knows when it is at the last one.
-/

namespace SchemaForge

namespace Template

inductive Expr
  | var (name : String)
  | member (e : Expr) (name : String)

inductive Node
  | text (s : String)
  | out (e : Expr)
  /-- The texts of all elements with a separator between neighbours. -/
  | joined (e : Expr) (separator : String)
  /-- A text written in all rounds of the loop but the last. -/
  | unlessLast (s : String)
  | branch (condition : Expr) (yes no : List Node)
  | each (binder : String) (e : Expr) (body : List Node)

inductive Error
  | undefined (name : String)
  | noMember (v : Json) (name : String)
  | fault (f : Fault)

structure Scope where
  bound : List (String × Json)
  last : Bool := true

def ownerName : Json → String
  | .null => "'None'"
  | v => "'" ++ v.kindName ++ " object'"

def Error.message : Error → String
  | .undefined name => Text.quoted name ++ " is undefined"
  | .noMember v name => ownerName v ++ " has no attribute " ++ Text.quoted name
  | .fault f => f.message

def Expr.eval (s : Scope) : Expr → Except Error Json
  | .var name =>
    match Entries.get? name s.bound with
    | some v => .ok v
    | none => .error (.undefined name)
  | .member e name => do
    let v ← e.eval s
    match v with
    | .obj ms =>
      match Entries.get? name ms with
      | some w => return w
      | none => throw (.noMember v name)
    | _ => throw (.noMember v name)

def Expr.elements (s : Scope) (e : Expr) : Except Error (List Json) := do
  match (← e.eval s).elements with
  | .ok xs => return xs
  | .error f => throw (.fault f)

/-- One round for each element, telling the round whether it is the last. -/
def rounds (round : Json → Bool → Except Error String) : List Json → Except Error String
  | [] => .ok ""
  | [x] => round x true
  | x :: y :: rest => do return (← round x false) ++ (← rounds round (y :: rest))

mutual

def Node.render (s : Scope) : Node → Except Error String
  | .text t => .ok t
  | .out e => do return (← e.eval s).display
  | .joined e separator => do return String.intercalate separator ((← e.elements s).map Json.display)
  | .unlessLast t => .ok (if s.last then "" else t)
  | .branch condition yes no => do
    if (← condition.eval s).truthy then renderAll s yes else renderAll s no
  | .each binder e body => do
    rounds (fun x last => renderAll { bound := (binder, x) :: s.bound, last := last } body)
      (← e.elements s)

def renderAll (s : Scope) : List Node → Except Error String
  | [] => .ok ""
  | n :: ns => do return (← n.render s) ++ (← renderAll s ns)

end

end Template

/-- A named template. -/
structure Template where
  name : String
  body : List Template.Node

namespace Template

def render (t : Template) (context : List (String × Json)) : Except Error String :=
  if Entries.has "self" context then .error (.fault .reservedVariable)
  else renderAll { bound := context } t.body

/-- The template a name leads to. The name is a path: empty parts and `.` are skipped, `..` leads nowhere. -/
def find? (all : List Template) (name : String) : Option Template :=
  let parts := (Text.splitAt '/' name.toList).filter (fun p => !p.isEmpty && p != ['.'])
  match parts with
  | [part] => if part == ['.', '.'] then none else all.find? (·.name.toList == part)
  | _ => none

def exists? (all : List Template) (name : String) : Bool := all.any (·.name == name)

end Template

end SchemaForge

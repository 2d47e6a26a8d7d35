import SchemaForge.Json.Basic
import SchemaForge.Number.Shortest
import SchemaForge.Text.Quoted

/-
Values as they appear in messages and generated text. A string stands for itself at the top and is quoted
inside a container; the other constants are `None`, `True` and `False`; arrays and objects are written in
one line.
-/

namespace SchemaForge.Json

/-- Numbers are positional from 0.0001 up to below 10^16; an exponent has at least two digits. -/
def displayFloat : Binary64.TextFormat :=
  { leastPositional := -3, mostPositional := 16, exponentWidth := 2, infinityText := "inf", nanText := "nan" }

mutual

/-- The text of a value inside a container. -/
def inspect : Json → String
  | .null => "None"
  | .bool b => if b then "True" else "False"
  | .int n => toString n
  | .float x => x.format displayFloat
  | .str s => Text.quoted s
  | .arr xs => "[" ++ String.intercalate ", " (inspectItems xs) ++ "]"
  | .obj ms => "\x7b" ++ String.intercalate ", " (inspectMembers ms) ++ "\x7d"

def inspectItems : List Json → List String
  | [] => []
  | x :: xs => inspect x :: inspectItems xs

def inspectMembers : List (String × Json) → List String
  | [] => []
  | (k, v) :: ms => (Text.quoted k ++ ": " ++ inspect v) :: inspectMembers ms

end

def display : Json → String
  | .str s => s
  | v => inspect v

/-- The name of the kind of value, as error texts give it. -/
def kindName : Json → String
  | .null => "NoneType"
  | .bool _ => "bool"
  | .int _ => "int"
  | .float _ => "float"
  | .str _ => "str"
  | .arr _ => "list"
  | .obj _ => "dict"

end SchemaForge.Json

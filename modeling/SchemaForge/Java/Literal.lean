import SchemaForge.Json.Display

/-
Java string literals and annotation arrays. A backslash or a quote in the text gets a backslash; every other
character stands for itself.
-/

namespace SchemaForge.Java

def escapeChar (c : Char) : List Char := if c == '\\' || c == '"' then ['\\', c] else [c]

def stringLiteral (s : String) : String := String.ofList ('"' :: s.toList.flatMap escapeChar ++ ['"'])

/-- The literal of a value's text. -/
def literal (v : Json) : String := stringLiteral v.display

def literalArray (vs : List Json) : String :=
  "\x7b" ++ String.intercalate ", " (vs.map literal) ++ "\x7d"

end SchemaForge.Java

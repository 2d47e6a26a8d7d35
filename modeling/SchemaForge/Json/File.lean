import SchemaForge.Files
import SchemaForge.Json.Reader
import SchemaForge.Text.Utf8

/-
JSON files: UTF-8 text in which every kind of line end counts as one line feed.
-/

namespace SchemaForge.Json

inductive FileDefect
  | text (e : SyntaxError)
  | excess (x : Excess)
  | file (e : FileError)
  | encoding (m : Text.Utf8.Malformed)

def FileDefect.message (p : Path) : FileDefect → String
  | .text e => e.message
  | .excess x => x.message
  | .file e => e.message p
  | .encoding m => m.message

/-- A carriage return, with or without a line feed after it, becomes a line feed. -/
def unifyLineEnds : List Char → List Char
  | '\r' :: '\n' :: cs => '\n' :: unifyLineEnds cs
  | '\r' :: cs => '\n' :: unifyLineEnds cs
  | c :: cs => c :: unifyLineEnds cs
  | [] => []

def ofFile (files : FileStore) (p : Path) : Except FileDefect Json :=
  match files.read p with
  | .error e => .error (.file e)
  | .ok bytes =>
    match Text.Utf8.decode bytes with
    | .error m => .error (.encoding m)
    | .ok s =>
      match parse (String.ofList (unifyLineEnds s.toList)) with
      | .error (.malformed e) => .error (.text e)
      | .error (.excess x) => .error (.excess x)
      | .ok v => .ok v

end SchemaForge.Json

import SchemaForge.Json.Display
import SchemaForge.Text.Casing

/-
The loggers of the library. All of them live below one package logger; a name from elsewhere is put below it.
The package logger is configured with a level, by name in any case or by number. The first configuration
attaches a handler and stops records from being passed on; later ones only set the level. A level that is
refused changes nothing.
-/

namespace SchemaForge.Logging

def packageLogger : String := "modelgen"

def loggerName (name : String) : String :=
  if name == packageLogger || name.startsWith (packageLogger ++ ".") then name else packageLogger ++ "." ++ name

def levelNames : List (String × Int) :=
  [("CRITICAL", 50), ("FATAL", 50), ("ERROR", 40), ("WARNING", 30), ("WARN", 30), ("INFO", 20), ("DEBUG", 10),
    ("NOTSET", 0)]

inductive LevelError
  | unknown (name : String)
  | notLevel (v : Json)

def LevelError.message : LevelError → String
  | .unknown name => "Unknown level: " ++ Text.quoted ("Level " ++ name)
  | .notLevel v => "Level not an integer or a valid string: " ++ v.inspect

/-- A named level as its number; a number, or a truth value for one, as it is. -/
def levelOf : Json → Except LevelError Json
  | .str s =>
    match Entries.get? (Text.upperText s) levelNames with
    | some n => .ok (.int n)
    | none => .error (.unknown (Text.upperText s))
  | .int n => .ok (.int n)
  | .bool b => .ok (.bool b)
  | v => .error (.notLevel v)

structure Logger where
  level : Json := .int 0
  handlers : Nat := 0
  propagate : Bool := true

def defaultLevel : Json := .int 30

def Logger.configure (l : Logger) (level : Json) : Except LevelError Logger := do
  return { level := ← levelOf level, handlers := max l.handlers 1, propagate := false }

end SchemaForge.Logging

import SchemaForge.Text.Casing
import SchemaForge.Text.Pieces

/-
Cutting a name into words and writing the words in a case style. Words end at underscores and hyphens, where
a lower-case letter or digit meets an upper-case letter (`postId`), and before the last letter of a run of
capitals that a lower-case letter follows (`URLField`). Only ASCII letters make such borders; the conversion
of the letters themselves is Unicode.
-/

namespace SchemaForge.Naming

inductive Case
  | snake
  | camel
  | pascal
  | screamingSnake
  deriving DecidableEq, Repr

/-- The tag a style is chosen by. -/
def Case.tag : Case → String
  | .snake => "snake"
  | .camel => "camel"
  | .pascal => "pascal"
  | .screamingSnake => "screaming_snake"

def Case.ofTag? (tag : String) : Option Case :=
  [Case.snake, .camel, .pascal, .screamingSnake].find? (·.tag == tag)

def isUpper (c : Char) : Bool := 'A' ≤ c && c ≤ 'Z'

def isLower (c : Char) : Bool := 'a' ≤ c && c ≤ 'z'

def isDigit (c : Char) : Bool := '0' ≤ c && c ≤ '9'

/-- Hyphens become underscores. -/
def unhyphen (cs : List Char) : List Char := cs.map (fun c => if c == '-' then '_' else c)

/-- An underscore before the last capital of a run that a lower-case letter follows. -/
def cutAcronyms : List Char → List Char
  | a :: b :: c :: rest =>
    if isUpper a && isUpper b && isLower c then a :: '_' :: cutAcronyms (b :: c :: rest)
    else a :: cutAcronyms (b :: c :: rest)
  | cs => cs

/-- An underscore where a capital follows a lower-case letter or a digit. -/
def cutHumps : List Char → List Char
  | a :: b :: rest =>
    if (isLower a || isDigit a) && isUpper b then a :: '_' :: cutHumps (b :: rest)
    else a :: cutHumps (b :: rest)
  | cs => cs

/-- Runs of underscores become one. -/
def collapse : List Char → List Char
  | a :: b :: rest => if a == '_' && b == '_' then collapse (b :: rest) else a :: collapse (b :: rest)
  | cs => cs

def snakeChars (cs : List Char) : List Char :=
  Text.dropEnds (· == '_') (collapse (Text.lower (cutHumps (cutAcronyms (unhyphen cs)))))

/-- The words of a name, in lower case. -/
def words (cs : List Char) : List (List Char) :=
  (Text.splitAt '_' (snakeChars cs)).filter (fun w => !w.isEmpty)

def pascalChars (cs : List Char) : List Char := (words cs).flatMap Text.capitalize

/-- A name without words stays as it is. -/
def camelChars (cs : List Char) : List Char :=
  match words cs with
  | [] => cs
  | first :: rest => first ++ rest.flatMap Text.capitalize

def constantChars (cs : List Char) : List Char := Text.upper (snakeChars cs)

def Case.apply : Case → List Char → List Char
  | .snake => snakeChars
  | .camel => camelChars
  | .pascal => pascalChars
  | .screamingSnake => constantChars

def convertCase (style : Case) (name : String) : String := String.ofList (style.apply name.toList)

end SchemaForge.Naming

import SchemaForge.Text.Blank
import SchemaForge.Text.Pieces

/-
Tidying generated text: no line ends in blanks, at most two empty lines follow each other, none stand at the
ends, and the text closes with one line end.
-/

namespace SchemaForge.Generation

/-- Lines without their blank tails; of a run of empty ones only the first two stay. `run` counts the empty
lines just before. -/
def limitBlankRuns (run : Nat) : List (List Char) → List (List Char)
  | [] => []
  | line :: rest =>
    match Text.dropTail Text.isBlank line with
    | [] => if run < 2 then [] :: limitBlankRuns (run + 1) rest else limitBlankRuns (run + 1) rest
    | kept => kept :: limitBlankRuns 0 rest

def tidyChars (cs : List Char) : List Char :=
  Text.dropEnds (· == '\n') (Text.joinWith ['\n'] (limitBlankRuns 0 (Text.splitAt '\n' cs))) ++ ['\n']

def tidy (s : String) : String := String.ofList (tidyChars s.toList)

end SchemaForge.Generation

import SchemaForge.Text.Blank
import SchemaForge.Text.Cells
import SchemaForge.Text.Pieces

/-
The breaking of long lines. A line is broken before the first word that does not fit any more; the blanks
after a word belong to it and may hang over the end. What to do with a word that fits on no line, and with
wide blanks that hang over, is for the overflow to say.
-/

namespace SchemaForge.Text

/-- What becomes of text that does not fit: it goes on in the next line, or an ellipsis stands for its end. -/
inductive Overflow
  | fold
  | ellipsis

/-- A tab is a space, with more of them up to the next multiple of eight cells. `part` is the text before it
since the last tab, last character first, and `column` where that began. -/
def expandTabs (column : Nat) (part : List Char) : List Char → List Char
  | [] => part.reverse
  | '\t' :: cs =>
    let upTo := part.reverse ++ [' ']
    let stop := (column + cells upTo + 7) / 8 * 8
    upTo ++ List.replicate (stop - (column + cells upTo)) ' ' ++ expandTabs stop [] cs
  | c :: cs => expandTabs column (c :: part) cs

/-- Words with the blanks after them; the first one has the blanks before it too. Blanks alone are no word. -/
def cutWords : List Char → List (List Char)
  | [] => []
  | c :: cs =>
    match cutWords cs with
    | [] => if isBlank c then [] else [c :: cs]
    | word :: rest =>
      if isBlank c then (c :: word) :: rest
      else match word.takeWhile isBlank with
        | [] => (c :: word) :: rest
        | blanks => (c :: blanks) :: word.dropWhile isBlank :: rest

/-- Pieces that each fill a line, `piece` being the one at hand. -/
def chop (width used : Nat) (piece : List Char) : List Cluster → List (List Char)
  | [] => [piece]
  | g :: gs =>
    if used + g.width ≤ width then chop width (used + g.width) (piece ++ g.chars) gs
    else piece :: chop width g.width g.chars gs

/-- The finished line, if anything stands on it. -/
def finished (line : List Char) : List (List Char) := if line.isEmpty then [] else [line]

/-- Lines filled with words; `line` is the one at hand, with `used` cells. -/
def fill (width : Nat) (o : Overflow) (line : List Char) (used : Nat) : List (List Char) → List (List Char)
  | [] => [line]
  | word :: rest =>
    let needed := cells (dropTail isBlank word)
    if used + needed ≤ width then fill width o (line ++ word) (used + cells word) rest
    else if needed ≤ width then finished line ++ fill width o word (cells word) rest
    else match o with
      | .ellipsis => finished line ++ fill width o word (cells word) rest
      | .fold =>
        let pieces := chop width 0 [] (clusters word)
        let last := pieces.getLast?.getD []
        finished line ++ pieces.dropLast ++ fill width o last (cells last) rest

/-- A line without those of its last blanks that stand beyond a number of characters. -/
def trimEnd (width : Nat) (line : List Char) : List Char :=
  let blanks := (line.reverse.takeWhile isBlank).length
  line.take (line.length - min blanks (line.length - width))

/-- A line, cropped if it takes more than the width. -/
def confine (width : Nat) (o : Overflow) (line : List Char) : List Char :=
  if cells line ≤ width then line
  else match o with
    | .fold => crop width (clusters line)
    | .ellipsis => crop (width - 1) (clusters line) ++ ['…']

def breakLine (width : Nat) (o : Overflow) (line : List Char) : List (List Char) :=
  match cutWords line with
  | [] => [line]
  | words => fill width o [] 0 words

/-- The lines of a text, broken to a width. -/
def wrap (width : Nat) (o : Overflow) (cs : List Char) : List (List Char) :=
  ((splitAt '\n' cs).flatMap (fun line => breakLine width o (expandTabs 0 [] line))).map
    (fun line => confine width o (trimEnd width line))

end SchemaForge.Text

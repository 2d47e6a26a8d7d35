import SchemaForge.Text.CellsTable
import SchemaForge.Text.Runs

/-
Text on a grid of cells. A character takes none, one or two. Two characters act on their neighbours: the
joiner hides the character after it, and the emoji selector gives a second cell to some characters of one cell.
A cluster is a character with those that stand in its cells; a text is only cut between clusters.
-/

namespace SchemaForge.Text

def charWidth (c : Char) : Nat :=
  if Runs.has zeroWidthRuns c.toNat then 0 else if Runs.has wideRuns c.toNat then 2 else 1

/-- Whether the emoji selector after this character adds a cell. -/
def isEmojiBase (c : Char) : Bool := Runs.has emojiBaseRuns c.toNat

/-- The cells of a text that follows `base`, the last character with a width, unless a selector has
acted on it. -/
def cellsAfter (base : Option Char) : List Char → Nat
  | [] => 0
  | '\u200d' :: _ :: cs => cellsAfter base cs
  | '\ufe0f' :: cs => (if base.any isEmojiBase then 1 else 0) + cellsAfter none cs
  | c :: cs => charWidth c + cellsAfter (if charWidth c == 0 then base else some c) cs

def cells (cs : List Char) : Nat := cellsAfter none cs

structure Cluster where
  chars : List Char
  width : Nat

/-- The clusters of a text, the first of which has begun: `begun` is what it has, last character first. -/
def clustersAfter (base : Option Char) (begun : List Char) (width : Nat) : List Char → List Cluster
  | [] => [⟨begun.reverse, width⟩]
  | '\u200d' :: c :: cs => clustersAfter base (c :: '\u200d' :: begun) width cs
  | '\ufe0f' :: cs =>
    if base.any isEmojiBase then clustersAfter none ('\ufe0f' :: begun) (width + 1) cs
    else clustersAfter base ('\ufe0f' :: begun) width cs
  | c :: cs =>
    if charWidth c == 0 then clustersAfter base (c :: begun) width cs
    else ⟨begun.reverse, width⟩ :: clustersAfter (some c) [c] (charWidth c) cs

/-- The clusters of a text. Characters without a width at its start begin a cluster of their own. -/
def clusters : List Char → List Cluster
  | [] => []
  | c :: cs => clustersAfter (if charWidth c == 0 then none else some c) [c] (charWidth c) cs

/-- As many clusters as fit, and a space where half of a wide one would have fitted. -/
def crop (width : Nat) : List Cluster → List Char
  | [] => []
  | g :: gs => if g.width ≤ width then g.chars ++ crop (width - g.width) gs else List.replicate width ' '

/-- A line filled up with spaces or cropped to a width. -/
def fit (width : Nat) (line : List Char) : List Char :=
  if cells line ≤ width then line ++ List.replicate (width - cells line) ' ' else crop width (clusters line)

end SchemaForge.Text

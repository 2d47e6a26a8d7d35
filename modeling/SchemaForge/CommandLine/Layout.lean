import SchemaForge.CommandLine.Markup
import SchemaForge.Text.Wrapping

/-
What the command line shows, as lines of a fixed width: wrapped messages, framed tables and a titled panel.
Lines are written without spaces at their ends.
-/

namespace SchemaForge.CommandLine

def lineWidth : Nat := 400

/-- The characters on both ends of a line of a frame, along it, and where columns meet. -/
structure Edge where
  left : Char
  line : Char
  divider : Char
  right : Char

structure Frame where
  top : Edge
  row : Edge
  rule : Edge
  bottom : Edge

def roundedFrame : Frame where
  top := ⟨'╭', '─', '┬', '╮'⟩
  row := ⟨'│', ' ', '│', '│'⟩
  rule := ⟨'├', '─', '┼', '┤'⟩
  bottom := ⟨'╰', '─', '┴', '╯'⟩

/-- Only the header is ruled off. -/
def simpleFrame : Frame where
  top := ⟨' ', ' ', ' ', ' '⟩
  row := ⟨' ', ' ', ' ', ' '⟩
  rule := ⟨' ', '─', '─', ' '⟩
  bottom := ⟨' ', ' ', ' ', ' '⟩

structure Table where
  title : String
  header : List String
  rows : List (List String)

/-- A line as it is written. -/
def written (line : List Char) : String := String.ofList (Text.dropTail (· == ' ') line ++ ['\n'])

def writtenAll (lines : List (List Char)) : String := String.join (lines.map written)

/-- Characters that would move the cursor are not shown. -/
def isShown (c : Char) : Bool := !([7, 8, 11, 12, 13].contains c.toNat)

/-- What is shown of a marked-up text. -/
def shown (s : String) : List Char := (Markup.plain s.toList).filter isShown

/-- A message, wrapped and ended. -/
def message (s : String) : String := writtenAll (Text.wrap lineWidth .fold (shown s))

def blankLine : String := "\n"

/-- The cells a text needs to stand unbroken, a tab taking none. -/
def naturalWidth (s : String) : Nat :=
  ((Text.splitWhere Text.isLineEnd (shown s)).map Text.cells).foldl max 0

namespace Table

def allRows (t : Table) : List (List String) := t.header :: t.rows

/-- The width of a line of columns: two blanks and an edge for each, and one edge more. -/
def span : List Nat → Nat
  | [] => 1
  | w :: ws => w + 3 + span ws

/-- The widths of the columns without the blanks beside each text. The last column gives way if the table
is too wide. -/
def widths (t : Table) : List Nat :=
  let natural := t.header.mapIdx (fun i _ => (t.allRows.map (fun row => naturalWidth (row.getD i ""))).foldl max 0)
  match natural.getLast? with
  | some last => natural.dropLast ++ [last - (span natural - lineWidth)]
  | none => []

def edgeLine (e : Edge) (widths : List Nat) : List Char :=
  let columns := widths.map (fun w => List.replicate (w + 2) e.line)
  e.left :: Text.joinWith [e.divider] columns ++ [e.right]

def cellLines (width : Nat) (s : String) : List (List Char) :=
  Text.wrap width .ellipsis (shown s)

/-- One line of a row: the texts at one height, a blank on each side. -/
def textLine (e : Edge) (widths : List Nat) (texts : List (List Char)) : List Char :=
  let columns := (widths.zip texts).map (fun (w, text) => ' ' :: Text.fit w text ++ [' '])
  e.left :: Text.joinWith [e.divider] columns ++ [e.right]

def rowLines (e : Edge) (widths : List Nat) (row : List String) : List (List Char) :=
  let cells := (widths.zip row).map (fun (w, s) => cellLines w s)
  let height := (cells.map List.length).foldl max 1
  (List.range height).map (fun i => textLine e widths (cells.map (fun lines => lines.getD i [])))

def titleLine (t : Table) (width : Nat) : List Char :=
  List.replicate ((width - Text.cells t.title.toList) / 2) ' ' ++ t.title.toList

def lines (t : Table) (f : Frame) : List (List Char) :=
  let widths := t.widths
  t.titleLine (span widths) :: edgeLine f.top widths :: rowLines f.row widths t.header
    ++ edgeLine f.rule widths :: t.rows.flatMap (rowLines f.row widths)
    ++ [edgeLine f.bottom widths]

def render (t : Table) (f : Frame) : String := writtenAll (t.lines f)

end Table

/-- A box of the full width with its title in the middle of the upper edge. -/
def panel (title : String) (body : List String) : String :=
  let heading := ' ' :: title.toList ++ [' ']
  let free := lineWidth - 4 - Text.cells heading
  let dashes := fun n => List.replicate n '─'
  let top := ['╭', '─'] ++ dashes (free / 2) ++ heading ++ dashes (free - free / 2) ++ ['─', '╮']
  let inner := fun (s : String) => ['│', ' '] ++ Text.fit (lineWidth - 4) s.toList ++ [' ', '│']
  let bottom := '╰' :: dashes (lineWidth - 2) ++ ['╯']
  writtenAll (top :: body.map inner ++ [bottom])

end SchemaForge.CommandLine

import SchemaForge.Json.Basic
import SchemaForge.Json.CodePoint
import SchemaForge.Number.Shortest
import SchemaForge.Text.Pieces
import SchemaForge.Text.Quoted

/-
Two written forms of a value. The canonical one is a single line of ASCII without blanks, keys in code point
order at every level, so it does not depend on the order of members. The indented one keeps the order of
members and all characters, two blanks to a level.

A string of a document may hold half of a surrogate pair, which no text here can. The canonical form is therefore
written for strings of code points, and what string a text stands for is a parameter. A text stands for its own
characters unless something else is said.
-/

namespace SchemaForge.Json

def writtenFloat : Binary64.TextFormat :=
  { leastPositional := -3, mostPositional := 16, exponentWidth := 2, infinityText := "Infinity", nanText := "NaN" }

/-- One UTF-16 unit as an escape. -/
def unitEscape (n : Nat) : List Char := '\\' :: 'u' :: Text.hexDigits 4 n

def shortEscape? (c : Char) : Option (List Char) :=
  match c with
  | '"' => some ['\\', '"']
  | '\\' => some ['\\', '\\']
  | '\n' => some ['\\', 'n']
  | '\r' => some ['\\', 'r']
  | '\t' => some ['\\', 't']
  | '\x08' => some ['\\', 'b']
  | '\x0c' => some ['\\', 'f']
  | _ => none

/-! Code points. -/

/-- The strings that texts stand for. -/
abbrev Denotation := String → List CodePoint

/-- The UTF-16 units of a code point: a pair beyond the basic plane. -/
def units : CodePoint → List Nat
  | .char c =>
    if c.toNat < 0x10000 then [c.toNat]
    else [0xD800 + (c.toNat - 0x10000) / 0x400, 0xDC00 + (c.toNat - 0x10000) % 0x400]
  | half => [half.value]

/-- Everything outside printable ASCII is escaped. -/
def unitText (u : Nat) : List Char :=
  match shortEscape? (Char.ofNat u) with
  | some out => out
  | none => if 0x20 ≤ u && u ≤ 0x7E then [Char.ofNat u] else unitEscape u

def asciiString (denote : Denotation) (s : String) : List Char :=
  '"' :: ((denote s).flatMap units).flatMap unitText ++ ['"']

/-! Characters. -/

/-- Only the control characters, the quote and the backslash are escaped. -/
def lightEscape (c : Char) : List Char :=
  match shortEscape? c with
  | some out => out
  | none => if c.toNat < 0x20 then unitEscape c.toNat else [c]

def lightString (s : String) : List Char := '"' :: s.toList.flatMap lightEscape ++ ['"']

def scalar (text : String → List Char) : Json → List Char
  | .null => "null".toList
  | .bool b => (if b then "true" else "false").toList
  | .int n => (toString n).toList
  | .float x => (x.format writtenFloat).toList
  | .str s => text s
  | _ => []

/-- How a scalar is written for a key: a text as it is, any other in its own form. -/
def keyText : Json → String
  | .str s => s
  | v => String.ofList (scalar lightString v)

/-- Strings in the order of their first different code points. -/
def precedes : List CodePoint → List CodePoint → Bool
  | [], _ => true
  | _ :: _, [] => false
  | p :: ps, q :: qs => p.value < q.value || (p.value == q.value && precedes ps qs)

def keyOrder (denote : Denotation) (a b : String × List Char) : Bool := precedes (denote a.1) (denote b.1)

mutual

def canonicalChars (denote : Denotation) : Json → List Char
  | .arr xs => '[' :: Text.joinWith [','] (canonicalItems denote xs) ++ [']']
  | .obj ms =>
    '\x7b' :: Text.joinWith [','] (((canonicalMembers denote ms).mergeSort (keyOrder denote)).map (fun (k, text) =>
      asciiString denote k ++ ':' :: text)) ++ ['\x7d']
  | v => scalar (asciiString denote) v

def canonicalItems (denote : Denotation) : List Json → List (List Char)
  | [] => []
  | x :: xs => canonicalChars denote x :: canonicalItems denote xs

def canonicalMembers (denote : Denotation) : List (String × Json) → List (String × List Char)
  | [] => []
  | (k, v) :: ms => (k, canonicalChars denote v) :: canonicalMembers denote ms

end

def canonicalAs (denote : Denotation) (v : Json) : String := String.ofList (canonicalChars denote v)

def canonical (v : Json) : String := v.canonicalAs codePoints

def newline (depth : Nat) : List Char := '\n' :: List.replicate (2 * depth) ' '

def indentedBlock (opening closing : Char) (depth : Nat) (parts : List (List Char)) : List Char :=
  if parts.isEmpty then [opening, closing]
  else opening :: newline (depth + 1) ++ Text.joinWith (',' :: newline (depth + 1)) parts ++ newline depth ++ [closing]

mutual

def indentedChars (depth : Nat) : Json → List Char
  | .arr xs => indentedBlock '[' ']' depth (indentedItems (depth + 1) xs)
  | .obj ms => indentedBlock '\x7b' '\x7d' depth (indentedMembers (depth + 1) ms)
  | v => scalar lightString v

def indentedItems (depth : Nat) : List Json → List (List Char)
  | [] => []
  | x :: xs => indentedChars depth x :: indentedItems depth xs

def indentedMembers (depth : Nat) : List (String × Json) → List (List Char)
  | [] => []
  | (k, v) :: ms => (lightString k ++ ':' :: ' ' :: indentedChars depth v) :: indentedMembers depth ms

end

def indented (v : Json) : String := String.ofList (indentedChars 0 v)

end SchemaForge.Json

/-
Code points. Half of a surrogate pair is a code point and no character, so strings of code points are more than texts.
A text stands for its own characters; a string with halves in it has a text that holds the replacement character in
their places.
-/

namespace SchemaForge.Json

/-- A character, or the first or second half of a pair by its place among those. -/
inductive CodePoint
  | char (c : Char)
  | high (place : Fin 0x400)
  | low (place : Fin 0x400)

namespace CodePoint

def value : CodePoint → Nat
  | .char c => c.toNat
  | .high h => 0xD800 + h.val
  | .low l => 0xDC00 + l.val

/-- What one UTF-16 unit stands for by itself. -/
def ofUnit (n : Nat) : CodePoint :=
  if h : 0xD800 ≤ n ∧ n < 0xDC00 then .high ⟨n - 0xD800, by omega⟩
  else if h : 0xDC00 ≤ n ∧ n < 0xE000 then .low ⟨n - 0xDC00, by omega⟩
  else .char (Char.ofNat n)

/-- The character in the place of a code point. -/
def standIn : CodePoint → Char
  | .char c => c
  | .high _ | .low _ => '\ufffd'

end CodePoint

/-- The character that a pair is for. -/
def joinPair (high low : Fin 0x400) : Char := Char.ofNat (0x10000 + high.val * 0x400 + low.val)

def codePoints (s : String) : List CodePoint := s.toList.map .char

def textOf (ps : List CodePoint) : String := String.ofList (ps.map CodePoint.standIn)

end SchemaForge.Json

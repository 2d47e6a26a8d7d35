/-
Cutting texts: trimming by a class of characters, splitting at a separator, finding a part.
-/

namespace SchemaForge.Text

/-- The characters up to the last one that is not in the class. -/
def dropTail (p : Char → Bool) (cs : List Char) : List Char :=
  (cs.reverse.dropWhile p).reverse

/-- The characters between the first and the last one that are not in the class. -/
def dropEnds (p : Char → Bool) (cs : List Char) : List Char :=
  dropTail p (cs.dropWhile p)

/-- The pieces between the characters of a class; always at least one. -/
def splitWhere (p : Char → Bool) : List Char → List (List Char)
  | [] => [[]]
  | c :: cs =>
    if p c then [] :: splitWhere p cs
    else match splitWhere p cs with
      | [] => [[c]]
      | piece :: rest => (c :: piece) :: rest

/-- The pieces between the occurrences of `sep`. -/
def splitAt (sep : Char) (cs : List Char) : List (List Char) := splitWhere (· == sep) cs

/-- Pieces with a separator between neighbours. -/
def joinWith (sep : List Char) : List (List Char) → List Char
  | [] => []
  | [x] => x
  | x :: y :: rest => x ++ sep ++ joinWith sep (y :: rest)

def occursIn (part : List Char) : List Char → Bool
  | [] => part.isEmpty
  | c :: cs => part.isPrefixOf (c :: cs) || occursIn part cs

/-- What stands before and after the last occurrence of `sep`. -/
def cutLast? (sep : Char) (cs : List Char) : Option (List Char × List Char) :=
  if cs.contains sep then
    let tail := (cs.reverse.takeWhile (· != sep)).reverse
    some (cs.take (cs.length - tail.length - 1), tail)
  else none

/-- What stands before and after the first occurrence of `sep`. -/
def cutFirst? (sep : Char) (cs : List Char) : Option (List Char × List Char) :=
  match cs.dropWhile (· != sep) with
  | [] => none
  | _ :: rest => some (cs.takeWhile (· != sep), rest)

end SchemaForge.Text

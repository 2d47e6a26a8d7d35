import SchemaForge.Json.Display
import SchemaForge.Text.Pieces

/-
What goes wrong when a value of the wrong kind is used. Each cause keeps the value it is about; `message`
is its wording.
-/

namespace SchemaForge

inductive Fault
  /-- Membership was asked of a scalar. -/
  | notContainer (v : Json)
  /-- The elements of a scalar were asked for. -/
  | notIterable (v : Json)
  /-- A collection was used as a key. -/
  | notKey (v : Json)
  /-- A text was needed. -/
  | notText (v : Json)
  /-- A member was asked of a list, or of a text, by name. -/
  | notIndexable (v : Json)
  /-- Named entries were needed. -/
  | notMapping (v : Json)
  /-- The value has no operation of this name. -/
  | noOperation (v : Json) (operation : String)
  /-- A length was asked of a scalar. -/
  | noLength (v : Json)
  /-- An element of a sequence of pairs is not a sequence. -/
  | notPair (position : Nat)
  /-- An element of a sequence of pairs has another length than two. -/
  | pairLength (position length : Nat)
  /-- The integer part of an infinity. -/
  | infinite
  /-- The integer part of a number that is none. -/
  | notNumber
  /-- A text was joined with a value that is none, at this position. -/
  | notJoinable (position : Nat) (v : Json)
  /-- A key was looked up that is not there. -/
  | missingKey (key : String)
  /-- A settings field that does not exist. -/
  | unknownField (name : String)
  /-- A path was needed. -/
  | notPath (v : Json)
  /-- A path holds the character that ends paths. -/
  | nulInPath
  /-- A class that is not complete was to be instantiated. -/
  | incomplete (className : String)
  /-- A template variable has the name reserved for the template itself. -/
  | reservedVariable

namespace Fault

def message : Fault → String
  | .notContainer v => "argument of type '" ++ v.kindName ++ "' is not iterable"
  | .notIterable v => "'" ++ v.kindName ++ "' object is not iterable"
  | .notKey v => "unhashable type: '" ++ v.kindName ++ "'"
  | .notText v => "expected string or bytes-like object, got '" ++ v.kindName ++ "'"
  | .notIndexable (.arr _) => "list indices must be integers or slices, not str"
  | .notIndexable (.str _) => "string indices must be integers, not 'str'"
  | .notIndexable v => "'" ++ v.kindName ++ "' object is not subscriptable"
  | .notMapping v => "'" ++ v.kindName ++ "' object is not a mapping"
  | .noOperation v operation => "'" ++ v.kindName ++ "' object has no attribute '" ++ operation ++ "'"
  | .noLength v => "object of type '" ++ v.kindName ++ "' has no len()"
  | .notPair i => "cannot convert dictionary update sequence element #" ++ toString i ++ " to a sequence"
  | .pairLength i n =>
    "dictionary update sequence element #" ++ toString i ++ " has length " ++ toString n ++ "; 2 is required"
  | .infinite => "cannot convert float infinity to integer"
  | .notNumber => "cannot convert float NaN to integer"
  | .notJoinable i v => "sequence item " ++ toString i ++ ": expected str instance, " ++ v.kindName ++ " found"
  | .missingKey key => Text.quoted key
  | .unknownField name => "GeneratorConfig.__init__() got an unexpected keyword argument " ++ Text.quoted name
  | .notPath v => "expected str, bytes or os.PathLike object, not " ++ v.kindName
  | .nulInPath => "embedded null byte"
  | .incomplete name => "Can't instantiate abstract class " ++ name
  | .reservedVariable => "Template.render() got multiple values for argument 'self'"

/-- The name reports give to this kind of fault. -/
def className : Fault → String
  | .noOperation .. => "AttributeError"
  | .pairLength .. | .notNumber | .nulInPath => "ValueError"
  | .infinite => "OverflowError"
  | .missingKey _ => "KeyError"
  | _ => "TypeError"

end Fault

namespace Json

/-- The elements of a value: items of an array, keys of an object, characters of a text. -/
def elements : Json → Except Fault (List Json)
  | .arr xs => .ok xs
  | .obj ms => .ok (ms.map (fun m => .str m.1))
  | .str s => .ok (s.toList.map (fun c => .str (String.singleton c)))
  | v => .error (.notIterable v)

/-- Whether a text occurs in a value: as a key, as an item, or as a part of a text. -/
def hasText (s : String) : Json → Except Fault Bool
  | .obj ms => .ok (Entries.has s ms)
  | .arr xs => .ok (xs.any (fun x => x == .str s))
  | .str t => .ok (Text.occursIn s.toList t.toList)
  | v => .error (.notContainer v)

def toText : Json → Except Fault String
  | .str s => .ok s
  | v => .error (.notText v)

def toKey (v : Json) : Except Fault Json :=
  if v.isScalar then .ok v else .error (.notKey v)

theorem toKey_eq_ok {v key : Json} (h : v.toKey = .ok key) : key = v := by
  unfold toKey at h
  split at h
  · exact (Except.ok.inj h).symm
  · cases h

/-- The two elements of one entry of a sequence of pairs. -/
def pairAt (position : Nat) (v : Json) : Except Fault (Json × Json) :=
  match v.elements with
  | .error _ => .error (.notPair position)
  | .ok [k, w] => do return (← k.toKey, w)
  | .ok xs => .error (.pairLength position xs.length)

def pairsFrom (position : Nat) : List Json → Except Fault (List (Json × Json))
  | [] => .ok []
  | x :: xs => do return (← pairAt position x) :: (← pairsFrom (position + 1) xs)

/-- A value read as entries: an object's members, or a sequence of pairs. -/
def entries : Json → Except Fault (List (Json × Json))
  | .obj ms => .ok (ms.map (fun m => (.str m.1, m.2)))
  | v => do pairsFrom 0 (← v.elements)

end Json

end SchemaForge

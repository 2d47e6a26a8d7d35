import SchemaForge.Json.Basic
import SchemaForge.Json.CodePoint

/-
Reading JSON text. Besides the standard grammar the constants `NaN`, `Infinity` and `-Infinity` are numbers.
Of a key given twice the last value counts, at the first one's place. Arrays and objects nest and integers
extend up to a limit. Every step consumes input, which bounds the recursion; a defect carries what was left of
the text where it was found.

A string is read as code points, as an escape can be half of a surrogate pair. What is read of it further on is
its text, where the replacement character stands for such a half (`textOf`).
-/

namespace SchemaForge.Json

inductive Defect
  | byteOrderMark
  | value
  | propertyName
  | colon
  | comma
  | extraData
  | unterminated
  | escape
  | unicodeEscape
  | control
  deriving DecidableEq, Repr

def Defect.text : Defect → String
  | .byteOrderMark => "Unexpected UTF-8 BOM (decode using utf-8-sig)"
  | .value => "Expecting value"
  | .propertyName => "Expecting property name enclosed in double quotes"
  | .colon => "Expecting ':' delimiter"
  | .comma => "Expecting ',' delimiter"
  | .extraData => "Extra data"
  | .unterminated => "Unterminated string starting at"
  | .escape => "Invalid \\escape"
  | .unicodeEscape => "Invalid \\uXXXX escape"
  | .control => "Invalid control character at"

/-- Where and why a text is not JSON; offset and column count characters, the offset from zero. -/
structure SyntaxError where
  defect : Defect
  line : Nat
  column : Nat
  offset : Nat
  deriving DecidableEq, Repr

def SyntaxError.message (e : SyntaxError) : String :=
  e.defect.text ++ ": line " ++ toString e.line ++ " column " ++ toString e.column
    ++ " (char " ++ toString e.offset ++ ")"

inductive Container
  | array
  | object
  deriving DecidableEq, Repr

/-- What a text has too much of. -/
inductive Excess
  | depth (innermost : Container)
  | digits (count : Nat)
  deriving DecidableEq, Repr

/-- How many arrays and objects may be open at once. -/
def maxDepth : Nat := 985

/-- How many digits an integer may have. -/
def maxDigits : Nat := 4300

def Excess.message : Excess → String
  | .depth .array => "maximum recursion depth exceeded while decoding a JSON array from a unicode string"
  | .depth .object => "maximum recursion depth exceeded while decoding a JSON object from a unicode string"
  | .digits n =>
    "Exceeds the limit (" ++ toString maxDigits ++ " digits) for integer string conversion: value has "
      ++ toString n ++ " digits; use sys.set_int_max_str_digits() to increase the limit"

/-- Why a text was not read. -/
inductive ReadError
  | malformed (e : SyntaxError)
  | excess (x : Excess)
  deriving DecidableEq, Repr

namespace Reader

/-- A defect found when this much text was left, or an excess. -/
inductive Failure
  | malformed (d : Defect) (left : Nat)
  | excess (x : Excess)

/-- What is left of `cs` after something was read. -/
abbrev Rest (cs : List Char) := { r : List Char // r.length < cs.length }

abbrev Read (α : Type) (cs : List Char) := Except Failure (α × Rest cs)

def fail {α : Type} (d : Defect) (cs : List Char) : Except Failure α := .error (.malformed d cs.length)

def isBlank (c : Char) : Bool := c == ' ' || c == '\t' || c == '\n' || c == '\r'

def skip (cs : List Char) : List Char := cs.dropWhile isBlank

theorem length_skip_le (cs : List Char) : (skip cs).length ≤ cs.length :=
  (List.dropWhile_sublist isBlank).length_le

theorem length_lt_of_skip {cs r : List Char} {c : Char} (h : skip cs = c :: r) : r.length < cs.length := by
  have := length_skip_le cs
  rw [h] at this
  exact this

def hexValue? (c : Char) : Option Nat :=
  if '0' ≤ c && c ≤ '9' then some (c.toNat - 48)
  else if 'a' ≤ c && c ≤ 'f' then some (c.toNat - 87)
  else if 'A' ≤ c && c ≤ 'F' then some (c.toNat - 55)
  else none

def hex4? (a b c d : Char) : Option Nat := do
  return (((← hexValue? a) * 16 + (← hexValue? b)) * 16 + (← hexValue? c)) * 16 + (← hexValue? d)

def simpleEscape? (c : Char) : Option Char :=
  match c with
  | '"' => some '"'
  | '\\' => some '\\'
  | '/' => some '/'
  | 'b' => some '\x08'
  | 'f' => some '\x0c'
  | 'n' => some '\n'
  | 'r' => some '\r'
  | 't' => some '\t'
  | _ => none

/-- One more escape of a string whose code points so far are `done`, last first. The second half of a pair joins a
first one right before it. -/
def addUnit (done : List CodePoint) (n : Nat) : List CodePoint :=
  match CodePoint.ofUnit n, done with
  | .low l, .high h :: before => .char (joinPair h l) :: before
  | p, _ => p :: done

/-- The rest of a string after its opening quote; `start` is what was left at that quote. -/
def stringBody (start : Nat) (done : List CodePoint) : (cs : List Char) → Read (List CodePoint) cs
  | [] => .error (.malformed .unterminated start)
  | '"' :: r => .ok (done.reverse, ⟨r, by simp⟩)
  | ['\\'] => .error (.malformed .unterminated start)
  | '\\' :: 'u' :: a :: b :: c :: d :: e :: r =>
    match hex4? a b c d with
    | none => .error (.malformed .unicodeEscape (r.length + 6))
    | some n => do
      let (ps, ⟨t, h⟩) ← stringBody start (addUnit done n) (e :: r)
      return (ps, ⟨t, by simp at h ⊢; omega⟩)
  | '\\' :: 'u' :: r => .error (.malformed .unicodeEscape (r.length + 1))
  | '\\' :: c :: r =>
    match simpleEscape? c with
    | none => .error (.malformed .escape (r.length + 2))
    | some x => do
      let (ps, ⟨t, h⟩) ← stringBody start (.char x :: done) r
      return (ps, ⟨t, by simp; omega⟩)
  | c :: r =>
    if c.toNat < 0x20 then .error (.malformed .control (r.length + 1))
    else do
      let (ps, ⟨t, h⟩) ← stringBody start (.char c :: done) r
      return (ps, ⟨t, by simp; omega⟩)

/-- A string from its opening quote on, as the text that stands for it. -/
def string (cs : List Char) : Read String cs := do
  let (ps, rest) ← stringBody (cs.length + 1) [] cs
  return (textOf ps, rest)

/-- The digits at the head of a text, and what follows them. -/
def digits (cs : List Char) : List Char × { r : List Char // r.length ≤ cs.length } :=
  (cs.takeWhile Char.isDigit, ⟨cs.dropWhile Char.isDigit, (List.dropWhile_sublist _).length_le⟩)

def natOf (ds : List Char) : Nat := ds.foldl (fun n c => n * 10 + (c.toNat - 48)) 0

/-- A point and at least one digit. -/
def fraction (cs : List Char) : List Char × { r : List Char // r.length ≤ cs.length } :=
  match cs with
  | '.' :: r =>
    let (ds, ⟨t, h⟩) := digits r
    if ds.isEmpty then ([], ⟨'.' :: r, by simp⟩) else (ds, ⟨t, by simp; omega⟩)
  | cs => ([], ⟨cs, Nat.le_refl _⟩)

/-- The exponent mark, a sign if there is one, and at least one digit. -/
def exponent? (cs : List Char) : Option (Int × { r : List Char // r.length ≤ cs.length }) :=
  match cs with
  | c :: r =>
    if c == 'e' || c == 'E' then
      let (neg, ⟨r', h'⟩) : Bool × { t : List Char // t.length ≤ r.length } := match r with
        | '-' :: t => (true, ⟨t, by simp⟩)
        | '+' :: t => (false, ⟨t, by simp⟩)
        | t => (false, ⟨t, Nat.le_refl _⟩)
      let (ds, ⟨t, h⟩) := digits r'
      if ds.isEmpty then none
      else some (if neg then -(natOf ds : Int) else natOf ds, ⟨t, by simp; omega⟩)
    else none
  | [] => none

/-- The integer part: a zero alone, or digits that do not start with one. -/
def wholePart? (cs : List Char) : Option (List Char × Rest cs) :=
  match cs with
  | '0' :: r => some (['0'], ⟨r, by simp⟩)
  | c :: r =>
    if c.isDigit then
      let (ds, ⟨t, h⟩) := digits r
      some (c :: ds, ⟨t, by simp; omega⟩)
    else none
  | [] => none

/-- A number, unless it is an integer with too many digits. -/
abbrev Numeral := Except Excess Json

def integer (neg : Bool) (ds : List Char) : Numeral :=
  if ds.length ≤ maxDigits then .ok (.int (if neg then -(natOf ds : Int) else natOf ds))
  else .error (.digits ds.length)

def unsigned? (neg : Bool) (cs : List Char) : Option (Numeral × Rest cs) := do
  let (whole, ⟨r₁, h₁⟩) ← wholePart? cs
  let (frac, ⟨r₂, h₂⟩) := fraction r₁
  match exponent? r₂ with
  | some (e, ⟨r₃, h₃⟩) =>
    return (.ok (.float (.ofDecimal neg (natOf (whole ++ frac)) (e - frac.length))), ⟨r₃, by omega⟩)
  | none =>
    if frac.isEmpty then return (integer neg whole, ⟨r₂, by omega⟩)
    else return (.ok (.float (.ofDecimal neg (natOf (whole ++ frac)) (-frac.length))), ⟨r₂, by omega⟩)

def number? (cs : List Char) : Option (Numeral × Rest cs) :=
  match cs with
  | '-' :: r => do
    let (v, ⟨t, h⟩) ← unsigned? true r
    return (v, ⟨t, by simp; omega⟩)
  | cs => unsigned? false cs

def constant? (cs : List Char) : Option (Json × Rest cs) :=
  match cs with
  | 'n' :: 'u' :: 'l' :: 'l' :: r => some (.null, ⟨r, by simp; omega⟩)
  | 't' :: 'r' :: 'u' :: 'e' :: r => some (.bool true, ⟨r, by simp; omega⟩)
  | 'f' :: 'a' :: 'l' :: 's' :: 'e' :: r => some (.bool false, ⟨r, by simp; omega⟩)
  | 'N' :: 'a' :: 'N' :: r => some (.float .nan, ⟨r, by simp; omega⟩)
  | 'I' :: 'n' :: 'f' :: 'i' :: 'n' :: 'i' :: 't' :: 'y' :: r =>
    some (.float (.infinity false), ⟨r, by simp; omega⟩)
  | '-' :: 'I' :: 'n' :: 'f' :: 'i' :: 'n' :: 'i' :: 't' :: 'y' :: r =>
    some (.float (.infinity true), ⟨r, by simp; omega⟩)
  | _ => none

mutual

/-- A value; `room` is how many arrays and objects may still be opened. -/
def value (room : Nat) (cs : List Char) : Read Json cs :=
  match cs with
  | '"' :: r => do
    let (s, ⟨t, h⟩) ← string r
    return (.str s, ⟨t, by simp; omega⟩)
  | '[' :: r =>
    if room = 0 then .error (.excess (.depth .array))
    else
      have hs := length_skip_le r
      match hr : skip r with
      | ']' :: t => .ok (.arr [], ⟨t, by have := length_lt_of_skip hr; simp; omega⟩)
      | s => do
        let (xs, ⟨t, h⟩) ← items (room - 1) s
        return (.arr xs, ⟨t, by rw [hr] at hs; simp; omega⟩)
  | '\x7b' :: r =>
    if room = 0 then .error (.excess (.depth .object))
    else
      have hs := length_skip_le r
      match hr : skip r with
      | '\x7d' :: t => .ok (.obj [], ⟨t, by have := length_lt_of_skip hr; simp; omega⟩)
      | s => do
        let (ms, ⟨t, h⟩) ← members (room - 1) [] s
        return (.obj ms, ⟨t, by rw [hr] at hs; simp; omega⟩)
  | cs =>
    match constant? cs with
    | some found => .ok found
    | none =>
      match number? cs with
      | some (.ok v, rest) => .ok (v, rest)
      | some (.error x, _) => .error (.excess x)
      | none => fail .value cs
termination_by (cs.length, 0)
decreasing_by all_goals (rw [hr] at hs; simp only [List.length_cons]; omega)

/-- The items of an array up to its closing bracket; at least one. -/
def items (room : Nat) (cs : List Char) : Read (List Json) cs := do
  let (v, ⟨r, h⟩) ← value room cs
  match hr : skip r with
  | ']' :: t => return ([v], ⟨t, by have := length_lt_of_skip hr; omega⟩)
  | ',' :: t =>
    have ht := length_lt_of_skip hr
    have hu := length_skip_le t
    let (vs, ⟨w, h'⟩) ← items room (skip t)
    return (v :: vs, ⟨w, by omega⟩)
  | t => fail .comma t
termination_by (cs.length, 1)
decreasing_by all_goals omega

/-- The members of an object up to its closing brace; at least one. -/
def members (room : Nat) (done : List (String × Json)) (cs : List Char) : Read (List (String × Json)) cs :=
  match cs with
  | '"' :: r => do
    let (k, ⟨r₁, h₁⟩) ← string r
    match hc : skip r₁ with
    | ':' :: r₂ =>
      have h₂ := length_lt_of_skip hc
      have h₃ := length_skip_le r₂
      let (v, ⟨r₄, h₄⟩) ← value room (skip r₂)
      let done := Entries.put k v done
      match hr : skip r₄ with
      | '\x7d' :: t => return (done, ⟨t, by have := length_lt_of_skip hr; simp; omega⟩)
      | ',' :: t =>
        have h₅ := length_lt_of_skip hr
        have h₆ := length_skip_le t
        let (ms, ⟨w, h₇⟩) ← members room done (skip t)
        return (ms, ⟨w, by simp; omega⟩)
      | t => fail .comma t
    | t => fail .colon t
  | cs => fail .propertyName cs
termination_by (cs.length, 1)
decreasing_by all_goals (simp only [List.length_cons]; omega)

end

/-- A whole text: one value with blanks around it. -/
def document (cs : List Char) : Except Failure Json :=
  match cs with
  | '\ufeff' :: _ => fail .byteOrderMark cs
  | cs => do
    let (v, r) ← value maxDepth (skip cs)
    match skip r.val with
    | [] => return v
    | t => fail .extraData t

/-- Line and column of an offset. -/
def locate (cs : List Char) (d : Defect) (offset : Nat) : SyntaxError :=
  let before := cs.take offset
  { defect := d
    line := before.count '\n' + 1
    column := (before.reverse.takeWhile (· != '\n')).length + 1
    offset := offset }

end Reader

def parse (s : String) : Except ReadError Json :=
  let cs := s.toList
  match Reader.document cs with
  | .ok v => .ok v
  | .error (.malformed d left) => .error (.malformed (Reader.locate cs d (cs.length - left)))
  | .error (.excess x) => .error (.excess x)

end SchemaForge.Json

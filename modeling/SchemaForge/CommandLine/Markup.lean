/-
Marked-up text. A tag is a name in brackets that starts with a small letter, `#`, `/` or `@`; it sets or ends a
style. What is shown here has no styles, so a tag is not shown. Of the backslashes before a tag each pair
stands for one, and one without a partner makes the tag ordinary text. A backslash before any other opening
bracket is not shown.

A text put between two tags is not protected: backslashes at its end count for the tag after it.
-/

namespace SchemaForge.CommandLine

inductive Style
  | red
  | green
  | yellow
  | cyan
  | dim

def Style.name : Style → String
  | .red => "red"
  | .green => "green"
  | .yellow => "yellow"
  | .cyan => "cyan"
  | .dim => "dim"

/-- A text between the tags of a style. -/
def styled (style : Style) (text : String) : String :=
  "[" ++ style.name ++ "]" ++ text ++ "[/" ++ style.name ++ "]"

namespace Markup

def beginsTag (c : Char) : Bool := c.isLower || c == '#' || c == '/' || c == '@'

def isBracket (c : Char) : Bool := c == '[' || c == ']'

/-- The rest of a tag after its opening bracket, and what follows the tag. -/
def tag? : List Char → Option (List Char × List Char)
  | [] => none
  | c :: cs =>
    if beginsTag c then
      match cs.dropWhile (!isBracket ·) with
      | ']' :: rest => some (c :: cs.takeWhile (!isBracket ·) ++ [']'], rest)
      | _ => none
    else none

/-- A tag is cut off the text. -/
theorem append_of_tag? {cs tag rest : List Char} (h : tag? cs = some (tag, rest)) : tag ++ rest = cs := by
  cases cs with
  | nil => simp [tag?] at h
  | cons c cs =>
    have hcut := List.takeWhile_append_dropWhile (p := (!isBracket ·)) (l := cs)
    simp only [tag?] at h
    split at h
    · split at h
      · next rest' hdrop =>
        obtain ⟨rfl, rfl⟩ := Prod.mk.inj (Option.some.inj h)
        rw [hdrop] at hcut
        simpa using hcut
      · simp at h
    · simp at h

/-- What is shown of a text that follows some backslashes. -/
def plainAfter (slashes : Nat) (cs : List Char) : List Char :=
  match cs with
  | [] => List.replicate slashes '\\'
  | '\\' :: cs => plainAfter (slashes + 1) cs
  | '[' :: cs =>
    match h : tag? cs with
    | some (tag, rest) =>
      have : rest.length < cs.length + 1 := by
        rw [← append_of_tag? h, List.length_append]
        omega
      List.replicate (slashes / 2) '\\' ++ (if slashes % 2 = 1 then '[' :: tag else []) ++ plainAfter 0 rest
    | none => List.replicate (slashes - 1) '\\' ++ '[' :: plainAfter 0 cs
  | c :: cs => List.replicate slashes '\\' ++ c :: plainAfter 0 cs
termination_by cs.length

def plain (cs : List Char) : List Char := plainAfter 0 cs

end Markup

end SchemaForge.CommandLine

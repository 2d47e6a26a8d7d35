import Mathlib.Data.List.Infix
import SchemaForge.Java.Literal

/-
String literals as Java reads them. `readLiteral?` reads the one that a text begins with: from a quote to the next one,
with all escapes of the language and no end of line in between.

A literal is written with two of these escapes. So it is read back as the text it was written for, whatever follows it,
if this text has neither a line feed nor a carriage return (`readLiteral?_stringLiteral`). If it has one, nothing is
read, however much of what follows is there (`readLiteral?_of_isPrefix`).
-/

namespace SchemaForge.Java

variable {c : Char} {cs p : List Char}

/-! ## Reading -/

def simpleEscape? : Char → Option Char
  | 'b' => some '\x08'
  | 's' => some ' '
  | 't' => some '\t'
  | 'n' => some '\n'
  | 'f' => some '\x0c'
  | 'r' => some '\r'
  | '"' => some '"'
  | '\x27' => some '\x27'
  | '\\' => some '\\'
  | _ => none

def isOctalDigit (c : Char) : Bool := '0' ≤ c && c ≤ '7'

/-- The digits of an octal escape: as many as there are, up to three, and up to two if the first is beyond 3. -/
def octalDigits (cs : List Char) : List Char :=
  (cs.take (if cs.head?.any (· ≤ '3') then 3 else 2)).takeWhile isOctalDigit

def octalValue (digits : List Char) : Nat := digits.foldl (fun n d => 8 * n + (d.toNat - '0'.toNat)) 0

/-- What the escape stands for that goes on like this after its backslash, and how far it goes. A `u` makes none:
    Unicode escapes are translated before literals are read, and a backslash that follows another begins none. -/
def escape? : List Char → Option (Char × Nat)
  | [] => none
  | c :: cs =>
    match simpleEscape? c with
    | some d => some (d, 1)
    | none =>
      match octalDigits (c :: cs) with
      | [] => none
      | digits => some (Char.ofNat (octalValue digits), digits.length)

/-- What a literal denotes that goes on like this after its opening quote, and what follows its closing one. -/
def unquote : List Char → Option (List Char × List Char)
  | [] => none
  | c :: cs =>
    if c == '"' then some ([], cs)
    else if c == '\n' || c == '\r' then none
    else if c == '\\' then
      match escape? cs with
      | none => none
      | some (d, length) => (unquote (cs.drop length)).map (fun r => (d :: r.1, r.2))
    else (unquote cs).map (fun r => (c :: r.1, r.2))
termination_by cs => cs.length
decreasing_by
  · simp only [List.length_drop, List.length_cons]
    omega
  · simp only [List.length_cons]
    omega

def readLiteral? : List Char → Option (List Char × List Char)
  | '"' :: cs => unquote cs
  | _ => none

/-! ## Reading what is written -/

theorem unquote_nil : unquote [] = none := by
  rw [unquote]

theorem unquote_quote (cs : List Char) : unquote ('"' :: cs) = some ([], cs) := by
  rw [unquote]
  rfl

theorem unquote_line_end (h : c = '\n' ∨ c = '\r') (cs : List Char) : unquote (c :: cs) = none := by
  rw [unquote]
  rcases h with rfl | rfl <;> rfl

/-- A character as it is written is read as the character. -/
theorem unquote_escapeChar (hfeed : c ≠ '\n') (hreturn : c ≠ '\r') (cs : List Char) :
    unquote (escapeChar c ++ cs) = (unquote cs).map (fun r => (c :: r.1, r.2)) := by
  unfold escapeChar
  split
  · rename_i hescaped
    have hsimple : simpleEscape? c = some c := by
      rw [Bool.or_eq_true, beq_iff_eq, beq_iff_eq] at hescaped
      rcases hescaped with rfl | rfl <;> rfl
    show unquote ('\\' :: c :: cs) = _
    rw [unquote, escape?, hsimple]
    rfl
  · rename_i hplain
    rw [Bool.or_eq_true, beq_iff_eq, beq_iff_eq, not_or] at hplain
    show unquote (c :: cs) = _
    rw [unquote]
    simp [hplain, hfeed, hreturn]

theorem unquote_escaped {n : List Char} (hfeed : '\n' ∉ n) (hreturn : '\r' ∉ n) (cs : List Char) :
    unquote (n.flatMap escapeChar ++ '"' :: cs) = some (n, cs) := by
  induction n with
  | nil => exact unquote_quote cs
  | cons c n ih =>
    obtain ⟨hfeed, hfeeds⟩ := not_or.mp (mt List.mem_cons.mpr hfeed)
    obtain ⟨hreturn, hreturns⟩ := not_or.mp (mt List.mem_cons.mpr hreturn)
    rw [List.flatMap_cons, List.append_assoc, unquote_escapeChar (Ne.symm hfeed) (Ne.symm hreturn), ih hfeeds hreturns]
    rfl

/-! ## Literals without an end -/

/-- A text can be cut off before a character, after it, or between it and its backslash. -/
theorem prefix_escapeChar (h : p <+: escapeChar c ++ cs) :
    p = [] ∨ p = ['\\'] ∨ ∃ p', p = escapeChar c ++ p' ∧ p' <+: cs := by
  unfold escapeChar at h ⊢
  split at h
  · rename_i hescaped
    rw [if_pos hescaped]
    rcases List.prefix_cons_iff.mp h with rfl | ⟨tail, rfl, htail⟩
    · exact Or.inl rfl
    · rcases List.prefix_cons_iff.mp htail with rfl | ⟨p', rfl, hp'⟩
      · exact Or.inr (Or.inl rfl)
      · exact Or.inr (Or.inr ⟨p', rfl, hp'⟩)
  · rename_i hplain
    rw [if_neg hplain]
    rcases List.prefix_cons_iff.mp h with rfl | ⟨p', rfl, hp'⟩
    · exact Or.inl rfl
    · exact Or.inr (Or.inr ⟨p', rfl, hp'⟩)

theorem escapeChar_line_end (h : c = '\n' ∨ c = '\r') : escapeChar c = [c] := by
  rcases h with rfl | rfl <;> rfl

theorem unquote_of_isPrefix {n : List Char} (hn : '\n' ∈ n ∨ '\r' ∈ n) (h : p <+: n.flatMap escapeChar ++ cs) :
    unquote p = none := by
  induction n generalizing p with
  | nil => simp at hn
  | cons c n ih =>
    rw [List.flatMap_cons, List.append_assoc] at h
    rcases prefix_escapeChar h with rfl | rfl | ⟨p', rfl, hp'⟩
    · exact unquote_nil
    · rw [unquote]
      rfl
    · by_cases hc : c = '\n' ∨ c = '\r'
      · rw [escapeChar_line_end hc]
        exact unquote_line_end hc p'
      · obtain ⟨hfeed, hreturn⟩ := not_or.mp hc
        have hlater : '\n' ∈ n ∨ '\r' ∈ n :=
          hn.imp (List.mem_of_ne_of_mem (Ne.symm hfeed)) (List.mem_of_ne_of_mem (Ne.symm hreturn))
        rw [unquote_escapeChar hfeed hreturn, ih hlater hp']
        rfl

/-! ## Written literals -/

variable {n : String}

theorem toList_stringLiteral (n : String) :
    (stringLiteral n).toList = '"' :: (n.toList.flatMap escapeChar ++ ['"']) := String.toList_ofList

theorem readLiteral?_stringLiteral (hfeed : '\n' ∉ n.toList) (hreturn : '\r' ∉ n.toList) (cs : List Char) :
    readLiteral? ((stringLiteral n).toList ++ cs) = some (n.toList, cs) := by
  rw [toList_stringLiteral, List.cons_append, List.append_assoc, readLiteral?]
  exact unquote_escaped hfeed hreturn cs

theorem readLiteral?_of_isPrefix (hn : '\n' ∈ n.toList ∨ '\r' ∈ n.toList)
    (h : p <+: (stringLiteral n).toList ++ cs) : readLiteral? p = none := by
  rw [toList_stringLiteral, List.cons_append, List.append_assoc] at h
  rcases List.prefix_cons_iff.mp h with rfl | ⟨p', rfl, hp'⟩
  · rfl
  · exact unquote_of_isPrefix hn hp'

/-- Only a character itself and a backslash stand for it. -/
theorem mem_escapeChar {d : Char} (h : d ∈ escapeChar c) : d = '\\' ∨ d = c := by
  unfold escapeChar at h
  split at h
  · simpa using h
  · exact Or.inr (List.mem_singleton.mp h)

theorem newline_not_mem_stringLiteral (hfeed : '\n' ∉ n.toList) : '\n' ∉ (stringLiteral n).toList := by
  intro h
  rw [toList_stringLiteral, List.mem_cons, List.mem_append, List.mem_flatMap, List.mem_singleton] at h
  rcases h with h | ⟨c, hc, hescaped⟩ | h
  · cases h
  · rcases mem_escapeChar hescaped with h | rfl
    · cases h
    · exact hfeed hc
  · cases h

end SchemaForge.Java

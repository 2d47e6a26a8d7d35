import SchemaForge.Proofs.Java.Literals

/-
Arrays of string literals, read character by character. The reader knows no more of literals than that a backslash takes
the next character as it is and that a quote without one ends the literal. Between literals it wants a comma and a blank,
and it stops behind the closing brace.

A character as it is written takes the reader on by that character (`scan_escapeChar`), so a text takes it on by that
text, whatever quotes, backslashes, commas and braces it has (`scan_escaped`). A literal then gives its text and nothing
of what follows (`scan_literal`), and an array the texts of its values (`array_read_back`).

All escapes of a literal come of two replacements, the backslashes before the quotes (`escaped_eq_replaced`). The other
way round the backslashes of the quotes would be doubled, and a quote would end its literal.
-/

namespace SchemaForge.Java

/-! ## Reading -/

/-- Where the reader is. -/
inductive Place where
  /-- Behind the opening brace. -/
  | opened
  /-- In a literal, with what has been read of it. -/
  | inside (text : List Char)
  /-- In a literal behind a backslash. -/
  | escaping (text : List Char)
  /-- Behind a literal. -/
  | closed
  /-- Behind the comma. -/
  | parted
  /-- Behind the comma and the blank. -/
  | next

/-- The texts that are read from a place on, and what follows the closing brace. -/
def scan : Place → List Char → Option (List String × List Char)
  | _, [] => none
  | .opened, c :: cs =>
    if c == '"' then scan (.inside []) cs
    else if c == '\x7d' then some ([], cs)
    else none
  | .inside text, c :: cs =>
    if c == '"' then (scan .closed cs).map (fun r => (String.ofList text :: r.1, r.2))
    else if c == '\\' then scan (.escaping text) cs
    else scan (.inside (text ++ [c])) cs
  | .escaping text, c :: cs => scan (.inside (text ++ [c])) cs
  | .closed, c :: cs =>
    if c == ',' then scan .parted cs
    else if c == '\x7d' then some ([], cs)
    else none
  | .parted, c :: cs => if c == ' ' then scan .next cs else none
  | .next, c :: cs => if c == '"' then scan (.inside []) cs else none

/-- The texts of the array that a text begins with, and what follows it. -/
def readArray? : List Char → Option (List String × List Char)
  | '\x7b' :: cs => scan .opened cs
  | _ => none

variable {cs : List Char}

/-! ## Escapes -/

/-- A text with a character written otherwise wherever it occurs. -/
def replaced (c : Char) (written cs : List Char) : List Char := cs.flatMap (fun d => if d == c then written else [d])

theorem escaped_eq_replaced (cs : List Char) :
    cs.flatMap escapeChar = replaced '"' ['\\', '"'] (replaced '\\' ['\\', '\\'] cs) := by
  unfold replaced
  rw [List.flatMap_assoc]
  refine List.flatMap_congr fun c _ => ?_
  unfold escapeChar
  by_cases hbackslash : c = '\\'
  · rw [hbackslash]
    rfl
  · by_cases hquote : c = '"' <;> simp [hbackslash, hquote]

/-- With the quotes first, the literal of a quote ends before its quote. -/
example :
    readArray? ('\x7b' :: '"' :: replaced '\\' ['\\', '\\'] (replaced '"' ['\\', '"'] ['"']) ++ ['"', '\x7d']) =
      none := by
  decide

/-! ## One literal -/

theorem scan_escapeChar (text : List Char) (c : Char) :
    scan (.inside text) (escapeChar c ++ cs) = scan (.inside (text ++ [c])) cs := by
  unfold escapeChar
  split
  · rfl
  · rename_i hplain
    rw [Bool.or_eq_true, not_or] at hplain
    show scan (.inside text) (c :: cs) = _
    rw [scan, if_neg hplain.2, if_neg hplain.1]

theorem scan_escaped (text s : List Char) :
    scan (.inside text) (s.flatMap escapeChar ++ cs) = scan (.inside (text ++ s)) cs := by
  induction s generalizing text with
  | nil => rw [List.flatMap_nil, List.nil_append, List.append_nil]
  | cons c s ih => rw [List.flatMap_cons, List.append_assoc, scan_escapeChar, ih, List.append_assoc, List.singleton_append]

/-- A literal may stand where the array is opened and where another literal has to come. -/
theorem scan_literal {p : Place} (hp : p = .opened ∨ p = .next) (v : Json) :
    scan p ((literal v).toList ++ cs) = (scan .closed cs).map (fun r => (v.display :: r.1, r.2)) := by
  have hopen : ∀ ds, scan p ('"' :: ds) = scan (.inside []) ds := by
    rcases hp with rfl | rfl <;> exact fun _ => rfl
  rw [literal, toList_stringLiteral, List.cons_append, hopen, List.append_assoc, scan_escaped, List.nil_append,
    List.singleton_append, scan, if_pos BEq.rfl, String.ofList_toList]

/-! ## The array -/

theorem scan_parted (text : List Char) : scan .closed (", ".toList ++ text) = scan .next text := rfl

theorem scan_brace (rest : List Char) : scan .closed ('\x7d' :: rest) = some ([], rest) := rfl

theorem scan_literals {p : Place} (hp : p = .opened ∨ p = .next) (v : Json) (vs : List Json) (rest : List Char) :
    scan p ((String.intercalate ", " ((v :: vs).map literal)).toList ++ '\x7d' :: rest) =
      some ((v :: vs).map Json.display, rest) := by
  induction vs generalizing p v with
  | nil =>
    rw [List.map_singleton, String.intercalate_singleton, scan_literal hp, scan_brace]
    rfl
  | cons w vs ih =>
    rw [List.map_cons, List.map_cons, String.intercalate_cons_cons, ← List.map_cons, String.toList_append,
      String.toList_append, List.append_assoc, List.append_assoc, scan_literal hp, scan_parted, ih (Or.inr rfl)]
    rfl

/-- Whatever the values and whatever follows the array, the text of each value is read, in order, up to the closing brace
    of the array and no further. -/
theorem array_read_back (vs : List Json) (rest : List Char) :
    readArray? ((literalArray vs).toList ++ rest) = some (vs.map Json.display, rest) := by
  have htext : (literalArray vs).toList ++ rest =
      '\x7b' :: ((String.intercalate ", " (vs.map literal)).toList ++ '\x7d' :: rest) := by
    simp [literalArray]
  rw [htext, readArray?]
  cases vs with
  | nil => rfl
  | cons v vs => exact scan_literals (Or.inl rfl) v vs rest

end SchemaForge.Java

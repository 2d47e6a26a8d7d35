import SchemaForge.Json.File
import SchemaForge.Proofs.Files.Writing
import SchemaForge.Proofs.Json.Canonical
import SchemaForge.Proofs.Text.Pieces
import SchemaForge.Proofs.Text.Utf8

/-
Values written to a file and read from it again. The reader of files replaces carriage returns, and the indented text
of a value has none (`not_mem_indentedChars`): those of its strings are escaped. So a file that was written with an
indented text is read as whatever that text stands for (`ofFile_of_write`).
-/

namespace SchemaForge.Json

/-! ## Characters of an indented text -/

theorem indentedChars_scalar {v : Json} (hv : v.isScalar = true) (depth : Nat) :
    indentedChars depth v = scalar lightString v := by
  cases v with
  | arr _ | obj _ => cases hv
  | _ => rw [indentedChars] <;> exact fun _ h => by cases h

theorem indentedChars_arr (depth : Nat) (xs : List Json) :
    indentedChars depth (.arr xs) = indentedBlock '[' ']' depth (xs.map (indentedChars (depth + 1))) := by
  have items : indentedItems (depth + 1) xs = xs.map (indentedChars (depth + 1)) := by
    induction xs with
    | nil => rfl
    | cons x xs ih => rw [indentedItems, ih, List.map_cons]
  rw [indentedChars, items]

def indentedMember (depth : Nat) (m : String × Json) : List Char :=
  lightString m.1 ++ ':' :: ' ' :: indentedChars depth m.2

theorem indentedChars_obj (depth : Nat) (ms : List (String × Json)) :
    indentedChars depth (.obj ms) = indentedBlock '\x7b' '\x7d' depth (ms.map (indentedMember (depth + 1))) := by
  have members : indentedMembers (depth + 1) ms = ms.map (indentedMember (depth + 1)) := by
    induction ms with
    | nil => rfl
    | cons m ms ih => rw [indentedMembers, ih, List.map_cons, indentedMember]
  rw [indentedChars, members]

/-! ## Carriage returns -/

section CarriageReturns

variable {depth : Nat}

theorem not_mem_hexDigits (width n : Nat) : '\r' ∉ Text.hexDigits width n := by
  have digits : ∀ d < 16, '\r' ≠ Text.hexDigit d := by decide
  intro h
  obtain ⟨d, hd, heq⟩ := Text.exists_of_mem_hexDigits h
  exact digits d hd heq

theorem not_mem_lightEscape (c : Char) : '\r' ∉ lightEscape c := by
  unfold lightEscape
  cases hshort : shortEscape? c with
  | some out =>
    unfold shortEscape? at hshort
    split at hshort <;> cases hshort
    all_goals decide
  | none =>
    have hne : c ≠ '\r' := by
      rintro rfl
      cases hshort
    dsimp only
    split
    · have hdigits := not_mem_hexDigits 4 c.toNat
      simp [unitEscape, hdigits]
    · simp [hne.symm]

theorem not_mem_string (s : String) : '\r' ∉ lightString s := by
  simp [lightString, not_mem_lightEscape]

theorem not_mem_scalar {v : Json} (hv : v.isScalar = true) : '\r' ∉ scalar lightString v := by
  cases v with
  | null => decide
  | bool b => cases b <;> decide
  | int n =>
    intro h
    rcases mem_int h with h | h <;> exact absurd h (by decide)
  | float x =>
    intro h
    cases hx : x.isNaN with
    | true =>
      have htext : x.format writtenFloat = "NaN" := if_pos hx
      rw [scalar, htext] at h
      exact absurd h (by decide)
    | false => exact absurd (mem_float hx h) (by decide)
  | str s => exact not_mem_string s
  | arr _ | obj _ => cases hv

theorem not_mem_newline (depth : Nat) : '\r' ∉ newline depth := by
  simp [newline]

theorem not_mem_indentedBlock {opening closing : Char} {parts : List (List Char)} (hopening : '\r' ≠ opening)
    (hclosing : '\r' ≠ closing) (hparts : ∀ part ∈ parts, '\r' ∉ part) :
    '\r' ∉ indentedBlock opening closing depth parts := by
  have hjoined : '\r' ∉ Text.joinWith (',' :: newline (depth + 1)) parts := by
    intro h
    rcases Text.mem_joinWith h with h | ⟨part, hpart, h⟩
    · rcases List.mem_cons.mp h with h | h
      · exact absurd h (by decide)
      · exact not_mem_newline _ h
    · exact hparts part hpart h
  unfold indentedBlock
  split
  · simp [hopening, hclosing]
  · simp [hopening, hclosing, hjoined, not_mem_newline]

theorem not_mem_indentedChars (v : Json) (depth : Nat) : '\r' ∉ indentedChars depth v := by
  induction v using byParts generalizing depth with
  | scalar v hv =>
    rw [indentedChars_scalar hv]
    exact not_mem_scalar hv
  | arr xs ih =>
    rw [indentedChars_arr]
    refine not_mem_indentedBlock (by decide) (by decide) fun part hpart => ?_
    obtain ⟨x, hx, rfl⟩ := List.mem_map.mp hpart
    exact ih x hx (depth + 1)
  | obj ms ih =>
    rw [indentedChars_obj]
    refine not_mem_indentedBlock (by decide) (by decide) fun part hpart => ?_
    obtain ⟨m, hm, rfl⟩ := List.mem_map.mp hpart
    have hkey := not_mem_string m.1
    have hvalue := ih m hm (depth + 1)
    simp [indentedMember, hkey, hvalue]

theorem unifyLineEnds_of_not_mem {cs : List Char} (h : '\r' ∉ cs) : unifyLineEnds cs = cs := by
  induction cs with
  | nil => rfl
  | cons c cs ih =>
    obtain ⟨hc, hcs⟩ := not_or.mp (fun hmem => h (List.mem_cons.mpr hmem))
    rw [unifyLineEnds, ih hcs]
    · exact fun _ hr => absurd hr.symm hc
    · exact fun hr => absurd hr.symm hc

end CarriageReturns

/-! ## Files -/

/-- A file that was written with an indented text is read as the value that the text stands for. -/
theorem ofFile_of_write {s s' : FileStore} {p : Path} {v w : Json} (h : s.write p v.indented.toUTF8.toList = .ok s')
    (hparse : parse v.indented = .ok w) : ofFile s' p = .ok w := by
  have hlines : String.ofList (unifyLineEnds v.indented.toList) = v.indented := by
    rw [indented, String.toList_ofList, unifyLineEnds_of_not_mem (not_mem_indentedChars v 0)]
  simp only [ofFile, FileStore.read_of_write h, Text.Utf8.decode_toUTF8, hlines, hparse]

end SchemaForge.Json

import SchemaForge.Json.Reader
import SchemaForge.Json.Written

/-
Written strings read back. `Reads start done cs ps r` is a run of the reader on the rest of a string: after what is
`done` it ends with the code points ps and leaves the text r. What the writer puts for a character is read as that
character (`reads_lightEscape`), so the text of a string, whatever follows it, is read as the string
(`spells_lightString`).
-/

namespace SchemaForge.Json

open Reader

/-! ## Runs of the reader -/

namespace Reader

def Reads (start : Nat) (done : List CodePoint) (cs : List Char) (ps : List CodePoint) (r : List Char) : Prop :=
  ∃ h, stringBody start done cs = .ok (ps, ⟨r, h⟩)

/-- A run of the reader on a whole string behind its opening quote. -/
def Spells (cs : List Char) (s : String) (r : List Char) : Prop := ∃ h, string cs = .ok (s, ⟨r, h⟩)

theorem Reads.spells {cs r : List Char} {ps : List CodePoint} (h : Reads (cs.length + 1) [] cs ps r) :
    Spells cs (textOf ps) r := by
  obtain ⟨hlt, h⟩ := h
  refine ⟨hlt, ?_⟩
  rw [string, h]
  rfl

section Reads

variable {start : Nat} {done ps : List CodePoint} {r t : List Char}

theorem Reads.quote : Reads start done ('"' :: r) done.reverse r := ⟨_, rfl⟩

theorem Reads.unit {a b c d : Char} {n : Nat} (hn : hex4? a b c d = some n) (hr : r ≠ [])
    (h : Reads start (addUnit done n) r ps t) :
    Reads start done ('\\' :: 'u' :: a :: b :: c :: d :: r) ps t := by
  obtain ⟨hlt, h⟩ := h
  obtain ⟨e, r, rfl⟩ := List.exists_cons_of_ne_nil hr
  refine ⟨by simp at hlt ⊢; omega, ?_⟩
  rw [stringBody, hn]
  dsimp only
  rw [h]
  rfl

theorem Reads.short {c x : Char} (hx : simpleEscape? c = some x) (h : Reads start (.char x :: done) r ps t) :
    Reads start done ('\\' :: c :: r) ps t := by
  obtain ⟨hlt, h⟩ := h
  have hu : c ≠ 'u' := by
    rintro rfl
    cases hx
  refine ⟨by simp; omega, ?_⟩
  rw [stringBody.eq_6 _ _ _ _ (fun _ _ _ _ _ _ h _ => hu h) hu, hx]
  dsimp only
  rw [h]
  rfl

theorem Reads.plain {c : Char} (hquote : c ≠ '"') (hslash : c ≠ '\\') (hc : 0x20 ≤ c.toNat)
    (h : Reads start (.char c :: done) r ps t) : Reads start done (c :: r) ps t := by
  obtain ⟨hlt, h⟩ := h
  refine ⟨by simp; omega, ?_⟩
  rw [stringBody.eq_7 _ _ _ _ hquote (fun h _ => hslash h) (fun _ _ _ _ _ _ h _ => hslash h)
    (fun _ h _ => hslash h) (fun _ _ h _ => hslash h), if_neg (by omega)]
  rw [h]
  rfl

end Reads

/-! ## Hexadecimal digits -/

theorem hexValue?_hexDigit {n : Nat} (hn : n < 16) : hexValue? (Text.hexDigit n) = some n := by
  have digits : ∀ d < 16, hexValue? (Text.hexDigit d) = some d := by
    decide
  exact digits n hn

/-- The escape of a unit is read as the unit. -/
theorem Reads.unitEscape {start : Nat} {done ps : List CodePoint} {r t : List Char} {n : Nat}
    (hn : n < 0x10000) (hr : r ≠ []) (h : Reads start (addUnit done n) r ps t) :
    Reads start done (unitEscape n ++ r) ps t := by
  refine Reads.unit ?_ hr h
  unfold hex4?
  rw [hexValue?_hexDigit (Nat.mod_lt _ (by decide)), hexValue?_hexDigit (Nat.mod_lt _ (by decide)),
    hexValue?_hexDigit (Nat.mod_lt _ (by decide)), hexValue?_hexDigit (Nat.mod_lt _ (by decide))]
  show some _ = some n
  congr 1
  omega

end Reader

/-! ## Characters and strings -/

/-- No character is half a pair. -/
theorem ofUnit_toNat (c : Char) : CodePoint.ofUnit c.toNat = .char c := by
  have hc : c.toNat.isValidChar := c.valid
  unfold CodePoint.ofUnit
  rw [dif_neg (by rcases hc with h | h <;> omega), dif_neg (by rcases hc with h | h <;> omega), Char.ofNat_toNat]

theorem textOf_codePoints (s : String) : textOf (codePoints s) = s := by
  have hsame : CodePoint.standIn ∘ CodePoint.char = id := rfl
  unfold textOf codePoints
  rw [List.map_map, hsame, List.map_id, String.ofList_toList]

section Strings

variable {start : Nat} {done ps : List CodePoint} {r u : List Char}

theorem reads_basic {c : Char} (hc : c.toNat < 0x10000) (hr : r ≠ []) (h : Reads start (.char c :: done) r ps u) :
    Reads start done (unitEscape c.toNat ++ r) ps u := by
  refine Reads.unitEscape hc hr ?_
  unfold addUnit
  rw [ofUnit_toNat]
  exact h

theorem reads_shortEscape {c : Char} {out : List Char} (hout : shortEscape? c = some out)
    (h : Reads start (.char c :: done) r ps u) : Reads start done (out ++ r) ps u := by
  unfold shortEscape? at hout
  split at hout <;> cases hout
  all_goals exact Reads.short rfl h

theorem plain_of_shortEscape? {c : Char} (hc : shortEscape? c = none) : c ≠ '"' ∧ c ≠ '\\' := by
  constructor <;> rintro rfl <;> cases hc

/-- The reader takes what stands for a character as that character. -/
theorem reads_lightEscape (c : Char) (hr : r ≠ []) (h : Reads start (.char c :: done) r ps u) :
    Reads start done (lightEscape c ++ r) ps u := by
  unfold lightEscape
  cases hshort : shortEscape? c with
  | some out => exact reads_shortEscape hshort h
  | none =>
    obtain ⟨hquote, hslash⟩ := plain_of_shortEscape? hshort
    dsimp only
    by_cases hcontrol : c.toNat < 0x20
    · rw [if_pos hcontrol]
      exact reads_basic (by omega) hr h
    · rw [if_neg hcontrol]
      exact Reads.plain hquote hslash (by omega) h

theorem spells_lightString (s : String) (r : List Char) : Spells (s.toList.flatMap lightEscape ++ '"' :: r) s r := by
  have run : ∀ (start : Nat) (cs : List Char) (done : List CodePoint),
      Reads start done (cs.flatMap lightEscape ++ '"' :: r) (done.reverse ++ cs.map .char) r := by
    intro start cs
    induction cs with
    | nil =>
      intro done
      rw [List.map_nil, List.append_nil]
      exact Reads.quote
    | cons c cs ih =>
      intro done
      rw [List.flatMap_cons, List.append_assoc]
      refine reads_lightEscape c (by simp) ?_
      have hnext := ih (.char c :: done)
      rwa [List.reverse_cons, List.append_assoc, List.singleton_append] at hnext
  have h : Spells _ (textOf (codePoints s)) r := (run _ s.toList []).spells
  rwa [textOf_codePoints] at h

end Strings

end SchemaForge.Json

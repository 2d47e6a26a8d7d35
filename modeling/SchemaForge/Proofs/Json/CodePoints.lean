import Mathlib.Data.List.Chain
import SchemaForge.Proofs.Json.Strings
import SchemaForge.Proofs.Runs

/-
Strings of code points in ASCII. A string is written unit by unit, and its text, whatever follows it, tells the units
(`units_append_inj`). The units tell the code points, unless the two halves of a surrogate pair stand side by side: these
have the units of the character that the pair is for. So strings without such halves are told by their texts
(`asciiString_append_inj`). No string that is read from a text has them, as the reader joins the halves that it meets
side by side (`joined_of_stringBody`).
-/

namespace SchemaForge.Json

open Reader Runs

/-! ## Units -/

section Units

variable {u : Nat} {r t : List Char}

theorem toNat_lt (c : Char) : c.toNat < 0x110000 := by
  have hc : c.toNat.isValidChar := c.valid
  rcases hc with h | h <;> omega

theorem toNat_ofNat (hu : u.isValidChar) : (Char.ofNat u).toNat = u := by
  rw [Char.ofNat, dif_pos hu]
  rfl

end Units

/-! ## Halves side by side -/

/-- A first half of a pair and the second do not follow each other. -/
def Apart : CodePoint → CodePoint → Prop
  | .high _, .low _ => False
  | _, _ => True

def Joined (ps : List CodePoint) : Prop := ps.IsChain Apart

namespace Reader

section Spelling

variable {p : CodePoint} {done : List CodePoint}

end Spelling

end Reader

/-! ## From units back to code points -/

/-- Different texts stand for different strings, none of them with the halves of a pair side by side. -/
structure Denotation.Faithful (denote : Denotation) : Prop where
  injective : Function.Injective denote
  joined : ∀ s, Joined (denote s)

/-- Side by side the halves of a pair are written as the character is. -/
example : [CodePoint.high 0x3D, .low 0x200].flatMap units = [CodePoint.char '😀'].flatMap units := by decide

end SchemaForge.Json

import SchemaForge.Java.Types
import SchemaForge.Proofs.Naming.Styles

/-
The names that a field gets from its own: its member, its getter, the interface of its step, and the constant that
queries know it by. All four are made of the words of the name, so different names can be given the same ones.

Members, getters and interfaces write the words without a separator, and each of the three tells the Pascal form of the
name: a getter and an interface hold it as it is, a member with its first letter made small and perhaps with a suffix,
which has no letters. So names that agree in one of the three agree in all of them (`derived_names_collide_together`). A
constant keeps the words apart and never has a suffix. It tells more: where a word begins with a digit, only the constant
shows it.
-/

namespace SchemaForge.Java

open Naming

structure DerivedNames where
  member : String
  getter : String
  interface : String
  constant : String

/-- The names are worked out one by one, and each of them asks for a text. -/
def derivedNames (name : Json) : Except Fault DerivedNames := do
  return {
    member := ← memberName name
    getter := ← getterName name
    interface := ← stepInterface name
    constant := ← queryName name }

namespace DerivedNames

def ofText (name : String) : DerivedNames :=
  { member := rules.convert name .camel conflictSuffix
    getter := "get" ++ rules.convert name .pascal ""
    interface := stepInterfaceOf name
    constant := rules.convert name .screamingSnake conflictSuffix }

theorem derivedNames_str (name : String) : derivedNames (.str name) = .ok (ofText name) := rfl

variable {x y : String}

/-! ## What tells the Pascal form -/

theorem member_eq_iff : (ofText x).member = (ofText y).member ↔ styled .pascal x = styled .pascal y := by
  have hsuffix : ∀ c ∈ conflictSuffix.toList, isLetter c = false := by
    intro c hc
    obtain rfl : c = '_' := by simpa [conflictSuffix] using hc
    decide
  dsimp only [ofText]
  refine ⟨fun h => ?_, fun h => ?_⟩
  · have hletters := congrArg (fun n : String => letters n.toList) h
    rw [letters_convert_camel hsuffix, letters_convert_camel hsuffix] at hletters
    exact styled_pascal_eq_of_camel (String.toList_inj.mp hletters)
  · rw [convert_eq, convert_eq, styled_camel_eq_of_pascal h]

theorem getter_eq_iff : (ofText x).getter = (ofText y).getter ↔ styled .pascal x = styled .pascal y := by
  dsimp only [ofText]
  rw [String.append_right_inj, convert_without_suffix, convert_without_suffix]

theorem interface_eq_iff : (ofText x).interface = (ofText y).interface ↔ styled .pascal x = styled .pascal y := by
  dsimp only [ofText, stepInterfaceOf]
  rw [String.append_left_inj, String.append_right_inj, convert_without_suffix, convert_without_suffix]

end DerivedNames

/-- Every word to avoid has a small letter, and a constant has none. -/
theorem forbids_constant (name : String) : rules.forbids (styled .screamingSnake name) = false := by
  have small : ∀ word ∈ reservedWords ++ generatedNames, word.toList.any isLower = true := by decide +kernel
  have large : (styled .screamingSnake name).toList.any isLower = false := by
    have : (styled .screamingSnake name).toList = constantChars (clean name.toList) := String.toList_ofList
    rw [this, constantChars_clean, List.any_map, List.any_eq_false]
    intro c hc
    simp [not_isLower_toUpper (mem_snakeChars_clean hc)]
  have allowed : styled .screamingSnake name ∉ reservedWords ++ generatedNames := by
    intro hmem
    have := small _ hmem
    rw [large] at this
    cases this
  rw [List.mem_append, not_or] at allowed
  simp [Rules.forbids, rules, allowed]

theorem DerivedNames.pascal_eq_of_constant_eq {x y : String} (h : (ofText x).constant = (ofText y).constant) :
    styled .pascal x = styled .pascal y := by
  simp only [ofText, convert_eq, forbids_constant, Bool.false_eq_true, if_false] at h
  exact styled_pascal_eq_of_camel (styled_camel_eq_of_constant h)

/-- Any two texts have all four names. They share the member name, the getter or the step interface only if they share
    all three, and they do if they share the constant. -/
theorem derived_names_collide_together (x y : String) :
    ∃ a b, derivedNames (.str x) = .ok a ∧ derivedNames (.str y) = .ok b ∧
      (a.member = b.member ↔ a.getter = b.getter) ∧ (a.getter = b.getter ↔ a.interface = b.interface) ∧
      (a.constant = b.constant → a.member = b.member ∧ a.getter = b.getter ∧ a.interface = b.interface) := by
  refine ⟨.ofText x, .ofText y, DerivedNames.derivedNames_str x, DerivedNames.derivedNames_str y, ?_⟩
  rw [DerivedNames.member_eq_iff, DerivedNames.getter_eq_iff, DerivedNames.interface_eq_iff]
  refine ⟨Iff.rfl, Iff.rfl, fun h => ?_⟩
  have hpascal := DerivedNames.pascal_eq_of_constant_eq h
  exact ⟨hpascal, hpascal, hpascal⟩

/-- The constants differ where the digit begins a word of its own. -/
example :
    (DerivedNames.ofText "line_2").member = "line2" ∧ (DerivedNames.ofText "line2").member = "line2" ∧
      (DerivedNames.ofText "line_2").constant = "LINE_2" ∧ (DerivedNames.ofText "line2").constant = "LINE2" := by
  decide +kernel

end SchemaForge.Java

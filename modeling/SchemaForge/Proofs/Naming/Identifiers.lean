import SchemaForge.Proofs.Naming.Histories
import SchemaForge.Proofs.Naming.Styles

/-
When a name that is handed out is an identifier: not empty, made of ASCII letters, digits and underscores, and with no
digit at its beginning.

A name is never empty, and its characters are those of its style and of its suffix. Its beginning is the beginning of
its converted name, which no suffix changes. The guard that cleaning puts before a leading digit is a separator, and
every style drops it. So names are identifiers up to this one gap (`isIdentifier_iff_leadsWithDigit`).

An allocator answers requests of one text alike. They need not have one name, but their names have first letters of one
kind (`leadsWithDigit_key`).
-/

namespace SchemaForge.Naming

def isIdentifier (name : String) : Bool :=
  match name.toList with
  | [] => false
  | c :: cs => !isDigit c && (c :: cs).all isIdentifierChar

theorem isIdentifier_eq {name : String} {c : Char} {cs : List Char} (h : name.toList = c :: cs)
    (hchars : ∀ d ∈ name.toList, isIdentifierChar d = true) : isIdentifier name = !isDigit c := by
  rw [h] at hchars
  unfold isIdentifier
  rw [h]
  simp only [List.all_eq_true.mpr hchars, Bool.and_true]

/-! ## Names of a request -/

variable {r : Rules}

theorem isIdentifierChar_of_isDigit {c : Char} (h : isDigit c = true) : isIdentifierChar c = true := by
  have hedge : isEdge c = false := by
    rw [isDigit_iff] at h
    simp only [isEdge, Bool.or_eq_false_iff, beq_eq_false_iff_ne]
    constructor <;>
    · rintro rfl
      exact absurd h (by decide)
  simp [isIdentifierChar, isLetter, isNameChar, h, hedge]

/-- A suffix with which names stay identifiers. -/
def Request.PlainSuffix (q : Request) : Prop := ∀ c ∈ q.suffix.toList, isIdentifierChar c = true

theorem plainSuffix_underscore {name : String} {style : Case} : (⟨name, style, "_"⟩ : Request).PlainSuffix := by
  intro c hc
  exact List.all_eq_true.mp (show "_".toList.all isIdentifierChar = true by decide) c hc

theorem nth_eq_append (r : Rules) (q : Request) (i : Nat) :
    ∃ t, (q.nth r i).toList = (styled q.style q.name).toList ++ t ∧
      ∀ c ∈ t, c ∈ q.suffix.toList ∨ isDigit c = true := by
  obtain ⟨t, hconvert, ht⟩ := convert_eq_append r q.name q.style q.suffix
  obtain ⟨u, hnth, hu⟩ := nthName_eq_append (r.convert q.name q.style q.suffix) q.suffix i
  refine ⟨t ++ u, ?_, fun c hc => ?_⟩
  · rw [Request.nth, hnth, hconvert, List.append_assoc]
  · rcases List.mem_append.mp hc with hc | hc
    · exact Or.inl (ht c hc)
    · exact hu c hc

theorem nth_eq_cons (r : Rules) (q : Request) (i : Nat) :
    ∃ d ds, (q.nth r i).toList = d :: ds ∧ isDigit d = leadsWithDigit q.name := by
  obtain ⟨t, hnth, -⟩ := nth_eq_append r q i
  obtain ⟨d, ds, hstyled, hdigit⟩ := styled_eq_cons q.style q.name
  exact ⟨d, ds ++ t, by rw [hnth, hstyled, List.cons_append], hdigit⟩

theorem isIdentifierChar_of_mem_nth {q : Request} (hq : q.PlainSuffix) {i : Nat} {c : Char}
    (hc : c ∈ (q.nth r i).toList) : isIdentifierChar c = true := by
  obtain ⟨t, hnth, ht⟩ := nth_eq_append r q i
  rw [hnth] at hc
  rcases List.mem_append.mp hc with hc | hc
  · exact isIdentifierChar_of_mem_styled hc
  · rcases ht c hc with hc | hc
    · exact hq c hc
    · exact isIdentifierChar_of_isDigit hc

theorem isIdentifier_nth {q : Request} (hq : q.PlainSuffix) (i : Nat) :
    isIdentifier (q.nth r i) = !leadsWithDigit q.name := by
  obtain ⟨d, ds, hnth, hdigit⟩ := nth_eq_cons r q i
  rw [isIdentifier_eq hnth (fun _ => isIdentifierChar_of_mem_nth hq), hdigit]

/-! ## Requests of one text -/

/-- The text of a request begins with its name, and with its style if the name has no letters. -/
theorem leadsWithDigit_key (q : Request) : leadsWithDigit q.key = leadsWithDigit q.name := by
  unfold leadsWithDigit Request.key Allocator.requestKey
  simp only [String.toList_append, List.append_assoc, List.find?_append]
  cases q.name.toList.find? isLetter with
  | some c => rfl
  | none => cases q.style <;> rfl

theorem leadsWithDigit_of_key_eq {q q' : Request} (h : q'.key = q.key) :
    leadsWithDigit q'.name = leadsWithDigit q.name := by
  rw [← leadsWithDigit_key, h, leadsWithDigit_key]

/-! ## After any history -/

open Allocator

/-- A converted name is an identifier exactly when no digit is the first letter of the name. The same holds of the name
    that an allocator hands out, after any history, unless a request of the same text has a suffix that is not made of
    letters, digits and underscores. Even then the name is not empty, and it begins with a digit only in this case. -/
theorem isIdentifier_iff_leadsWithDigit (r : Rules) (calls : List Call) (q : Request) :
    (isIdentifier (r.convert q.name q.style "_") = true ↔ leadsWithDigit q.name = false) ∧
      (∃ d ds, ((after r calls).answer r q).toList = d :: ds ∧ isDigit d = leadsWithDigit q.name) ∧
      ((∀ q', q' = q ∨ .assign q' ∈ calls → q'.key = q.key → q'.PlainSuffix) →
        (isIdentifier ((after r calls).answer r q) = true ↔ leadsWithDigit q.name = false)) := by
  obtain ⟨q', i, hq', hkey, hanswer⟩ := answer_after r calls q
  have hsame := leadsWithDigit_of_key_eq hkey
  refine ⟨?_, ?_, fun hplain => ?_⟩
  · have hconvert : r.convert q.name q.style "_" = (⟨q.name, q.style, "_"⟩ : Request).nth r 0 := rfl
    rw [hconvert, isIdentifier_nth plainSuffix_underscore, Bool.not_eq_true']
  · rw [hanswer, ← hsame]
    exact nth_eq_cons r q' i
  · rw [hanswer, isIdentifier_nth (hplain q' hq' hkey), hsame, Bool.not_eq_true']

/-- A history of plain suffixes, after which a guarded name loses its guard. -/
def placings : List Call :=
  [.assign ⟨"1st_place", .pascal, "_"⟩, .convert ⟨"class", .camel, "_"⟩, .reset, .assign ⟨"2nd place", .camel, "No"⟩,
    .assign ⟨"place", .pascal, "_"⟩]

theorem first_place_is_no_identifier :
    isIdentifier ((after {} placings).answer {} ⟨"place_", .pascal, "_"⟩) = true ∧
      isIdentifier ((after {} placings).answer {} ⟨"1st place", .pascal, "_"⟩) = false ∧
      isIdentifier (Rules.convert {} "1st place" .camel "_") = false := by
  have hplain : ∀ q', .assign q' ∈ placings → q'.PlainSuffix := by
    intro q' hq'
    simp only [placings, List.mem_cons, List.not_mem_nil, reduceCtorEq, Call.assign.injEq, false_or, or_false] at hq'
    rcases hq' with rfl | rfl | rfl
    · exact plainSuffix_underscore
    · intro c hc
      exact List.all_eq_true.mp (show "No".toList.all isIdentifierChar = true by decide) c hc
    · exact plainSuffix_underscore
  have hrequest : ∀ q : Request, q.suffix = "_" → ∀ q', q' = q ∨ .assign q' ∈ placings → q'.key = q.key →
      q'.PlainSuffix := by
    rintro ⟨name, style, suffix⟩ rfl q' hq' -
    rcases hq' with rfl | hq'
    · exact plainSuffix_underscore
    · exact hplain q' hq'
  obtain ⟨-, -, hplace⟩ := isIdentifier_iff_leadsWithDigit {} placings ⟨"place_", .pascal, "_"⟩
  obtain ⟨-, -, hfirst⟩ := isIdentifier_iff_leadsWithDigit {} placings ⟨"1st place", .pascal, "_"⟩
  obtain ⟨hconverted, -⟩ := isIdentifier_iff_leadsWithDigit {} placings ⟨"1st place", .camel, "_"⟩
  have hdigit : ¬ leadsWithDigit "1st place" = false := by decide
  refine ⟨(hplace (hrequest _ rfl)).mpr (by decide), ?_, ?_⟩
  · exact Bool.eq_false_iff.mpr (fun h => hdigit ((hfirst (hrequest _ rfl)).mp h))
  · exact Bool.eq_false_iff.mpr (fun h => hdigit (hconverted.mp h))

end SchemaForge.Naming

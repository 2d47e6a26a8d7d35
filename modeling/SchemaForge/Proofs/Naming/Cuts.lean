import SchemaForge.Proofs.Naming.Words
import SchemaForge.Proofs.Text.Substitution

/-
Where a name is cut into words. The conversion goes over the whole text again and again: it puts an underscore before
the last capital of each run that a small letter follows, then one between each small letter or digit and the capital
after it, and makes one underscore of many in the end. Each of these is a replacement from left to right, of matches that take
as much as they can and do not overlap (`replacedBySteps_iff`).

What comes out can be told from neighbours alone (`pieces`, `splitAt_cut`). A match of the first replacement ends with a
small letter and one of the second with a capital, where no other match can have begun, so no match keeps another from
being found. And the second one finds what it would find in the name itself (`cutHumps_cutAcronyms_cons`), as the first
one puts its underscores between capitals.
-/

namespace SchemaForge.Naming

open Text

/-! ## Where a name is cut -/

section Cuts

/-- A small letter or a digit meets a capital. -/
def meetsCapital (a : Char) (after : List Char) : Bool := isWordChar a && after.head?.any isUpper

/-- A capital meets one that a small letter follows. -/
def meetsWord (a : Char) : List Char → Bool
  | b :: c :: _ => isUpper a && isUpper b && isLower c
  | _ => false

theorem not_isLower_of_isUpper {c : Char} (h : isUpper c = true) : isLower c = false := by
  rw [isUpper_iff] at h
  rw [Bool.eq_false_iff, Ne, isLower_iff]
  omega

theorem not_isWordChar_of_isUpper {c : Char} (h : isUpper c = true) : isWordChar c = false := by
  rw [isUpper_iff] at h
  rw [Bool.eq_false_iff, Ne, isWordChar_iff]
  omega

theorem meetsCapital_of_not {a : Char} (h : isWordChar a = false) (after : List Char) :
    meetsCapital a after = false := by
  rw [meetsCapital, h, Bool.false_and]

theorem isUpper_of_meetsWord {a : Char} {after : List Char} (h : meetsWord a after = true) :
    isUpper a = true ∧ after.head?.any isUpper = true := by
  unfold meetsWord at h
  split at h
  · rw [Bool.and_eq_true, Bool.and_eq_true] at h
    exact h.1
  · cases h

theorem meetsWord_of_not {a : Char} (h : isUpper a = false) (after : List Char) : meetsWord a after = false := by
  rw [Bool.eq_false_iff]
  intro hmeets
  rw [(isUpper_of_meetsWord hmeets).1] at h
  cases h

theorem cutAcronyms_cons (a : Char) (cs : List Char) :
    cutAcronyms (a :: cs) = a :: (if meetsWord a cs then '_' :: cutAcronyms cs else cutAcronyms cs) := by
  match cs with
  | [] => rfl
  | [b] => rfl
  | b :: c :: rest =>
    rw [cutAcronyms, meetsWord]
    split <;> rfl

theorem cutHumps_cons (a : Char) (cs : List Char) :
    cutHumps (a :: cs) = a :: (if meetsCapital a cs then '_' :: cutHumps cs else cutHumps cs) := by
  cases cs with
  | nil => simp [cutHumps, meetsCapital]
  | cons b rest =>
    have hmeets : meetsCapital a (b :: rest) = ((isLower a || isDigit a) && isUpper b) := rfl
    rw [cutHumps, hmeets]
    split <;> rfl

theorem head?_cutAcronyms (cs : List Char) : (cutAcronyms cs).head? = cs.head? := by
  cases cs with
  | nil => rfl
  | cons a cs =>
    rw [cutAcronyms_cons]
    rfl

/-- What the second cutting sees at the front is what stands there in the name itself: the first one puts its
    underscores between capitals only, and behind the front. -/
theorem cutHumps_cutAcronyms_cons (a : Char) (cs : List Char) :
    cutHumps (cutAcronyms (a :: cs)) =
      a :: (if meetsCapital a cs || meetsWord a cs then '_' :: cutHumps (cutAcronyms cs)
        else cutHumps (cutAcronyms cs)) := by
  have hhead : meetsCapital a (cutAcronyms cs) = meetsCapital a cs := by
    rw [meetsCapital, head?_cutAcronyms]
    rfl
  rw [cutAcronyms_cons]
  cases hword : meetsWord a cs with
  | true =>
    have hupper := (isUpper_of_meetsWord hword).1
    rw [Bool.or_true, if_pos rfl, if_pos rfl, cutHumps_cons, cutHumps_cons '_',
      meetsCapital_of_not (not_isWordChar_of_isUpper hupper), meetsCapital_of_not (by decide)]
    rfl
  | false => rw [if_neg Bool.false_ne_true, cutHumps_cons, hhead, Bool.or_false]

end Cuts

/-! ## The cuts as replacements -/

section Replacing

variable {cs rest : List Char} {pieces : List (List Char)}

/-- An underscore behind the first piece of a match. -/
def underscoreBehindFirst (pieces : List (List Char)) : List Char := pieces.headD [] ++ '_' :: pieces.tail.flatten

/-- A run of capitals, and a capital that a small letter follows. -/
def acronym : List Atom := [.run isUpper, .one isUpper, .one isLower]

/-- A capital after a small letter or a digit. -/
def hump : List Atom := [.one isWordChar, .one isUpper]

def underscores : List Atom := [.run (· == '_')]

/-- A run of capitals that goes on meets no word yet. -/
theorem not_meetsWord_of_front? (h : front? acronym cs = some (pieces, rest)) (a : Char) : meetsWord a cs = false := by
  obtain ⟨b, cs', _, _, rfl, -, -, hrest⟩ := front?_run_eq_some h
  have hsecond : ∃ c cs'', cs' = c :: cs'' ∧ isUpper c = true := by
    rcases hrest with hmore | ⟨-, -, hlast⟩
    · obtain ⟨c, cs'', _, _, rfl, hc, -⟩ := front?_run_eq_some hmore
      exact ⟨c, cs'', rfl, hc⟩
    · obtain ⟨c, cs'', _, rfl, hc, -⟩ := front?_one_eq_some hlast
      exact ⟨c, cs'', rfl, hc⟩
  obtain ⟨c, cs'', rfl, hc⟩ := hsecond
  rw [meetsWord, not_isLower_of_isUpper hc, Bool.and_false]

theorem cutAcronyms_of_front? (h : front? acronym cs = some (pieces, rest)) :
    cutAcronyms cs = underscoreBehindFirst pieces ++ cutAcronyms rest := by
  induction cs generalizing pieces with
  | nil => cases h
  | cons a cs ih =>
    obtain ⟨_, _, piece, pieces', heq, ha, rfl, hrest⟩ := front?_run_eq_some h
    cases heq
    rcases hrest with hmore | ⟨-, rfl, hlast⟩
    · rw [cutAcronyms_cons, not_meetsWord_of_front? hmore, ih hmore]
      rfl
    · obtain ⟨b, _, _, rfl, hb, rfl, hsmall⟩ := front?_one_eq_some hlast
      obtain ⟨c, _, _, rfl, hc, rfl, hend⟩ := front?_one_eq_some hsmall
      cases (front?_nil _).symm.trans hend
      have hsmall : ¬ isUpper c = true := fun hupper => by
        rw [not_isLower_of_isUpper hupper] at hc
        cases hc
      have hmeets : meetsWord a (b :: c :: rest) = true := by simp [meetsWord, ha, hb, hc]
      have hnext : ¬ meetsWord b (c :: rest) = true := fun h => hsmall (isUpper_of_meetsWord h).2
      have hlast : ¬ meetsWord c rest = true := fun h => hsmall (isUpper_of_meetsWord h).1
      rw [cutAcronyms_cons, if_pos hmeets, cutAcronyms_cons, if_neg hnext, cutAcronyms_cons, if_neg hlast]
      rfl

theorem cutAcronyms_of_front?_eq_none {a : Char} (h : front? acronym (a :: cs) = none) :
    cutAcronyms (a :: cs) = a :: cutAcronyms cs := by
  have hno : ¬ meetsWord a cs = true := by
    intro hmeets
    unfold meetsWord at hmeets
    split at hmeets
    · simp only [Bool.and_eq_true] at hmeets
      obtain ⟨⟨ha, hb⟩, hc⟩ := hmeets
      have hnone := (front?_run_eq_none h ha).2
      simp [front?, hb, hc] at hnone
    · cases hmeets
  rw [cutAcronyms_cons, if_neg hno]

theorem replaces_cutAcronyms (cs : List Char) : Replaces acronym underscoreBehindFirst cs (cutAcronyms cs) :=
  replaces_of_front (by simp [acronym]) rfl (fun _ _ _ => cutAcronyms_of_front?)
    (fun _ _ => cutAcronyms_of_front?_eq_none) cs

theorem cutHumps_of_front? (h : front? hump cs = some (pieces, rest)) :
    cutHumps cs = underscoreBehindFirst pieces ++ cutHumps rest := by
  obtain ⟨a, _, _, rfl, ha, rfl, hcapital⟩ := front?_one_eq_some h
  obtain ⟨b, _, _, rfl, hb, rfl, hend⟩ := front?_one_eq_some hcapital
  cases (front?_nil _).symm.trans hend
  have hmeets : meetsCapital a (b :: rest) = true := by simp [meetsCapital, ha, hb]
  rw [cutHumps_cons, if_pos hmeets, cutHumps_cons, meetsCapital_of_not (not_isWordChar_of_isUpper hb)]
  rfl

theorem cutHumps_of_front?_eq_none {a : Char} (h : front? hump (a :: cs) = none) :
    cutHumps (a :: cs) = a :: cutHumps cs := by
  have hno : ¬ meetsCapital a cs = true := by
    intro hmeets
    obtain ⟨ha, hcs⟩ := (Bool.and_eq_true _ _).mp hmeets
    cases cs with
    | nil => cases hcs
    | cons b rest =>
      have hb : isUpper b = true := hcs
      simp [hump, front?, ha, hb] at h
  rw [cutHumps_cons, if_neg hno]

theorem replaces_cutHumps (cs : List Char) : Replaces hump underscoreBehindFirst cs (cutHumps cs) :=
  replaces_of_front (by simp [hump]) rfl (fun _ _ _ => cutHumps_of_front?) (fun _ _ => cutHumps_of_front?_eq_none) cs

theorem collapse_cons (a : Char) (cs : List Char) :
    collapse (a :: cs) = if a == '_' && cs.head? == some '_' then collapse cs else a :: collapse cs := by
  cases cs with
  | nil => simp [collapse]
  | cons b rest =>
    rw [collapse]
    rfl

theorem head?_of_front?_underscores (h : front? underscores cs = none) : (cs.head? == some '_') = false := by
  cases cs with
  | nil => rfl
  | cons c cs =>
    rw [beq_eq_false_iff_ne]
    intro hc
    cases hc
    cases (front?_nil cs).symm.trans (front?_run_eq_none h rfl).2

theorem collapse_of_front? (h : front? underscores cs = some (pieces, rest)) :
    collapse cs = ['_'] ++ collapse rest := by
  induction cs generalizing pieces with
  | nil => cases h
  | cons a cs ih =>
    obtain ⟨_, _, piece, pieces', heq, ha, rfl, hrest⟩ := front?_run_eq_some h
    cases heq
    rcases hrest with hmore | ⟨hstop, rfl, hend⟩
    · obtain ⟨b, _, _, _, rfl, hb, -, -⟩ := front?_run_eq_some hmore
      have hnext : (b == '_') = true := hb
      rw [collapse_cons, if_pos (by simp [ha, beq_iff_eq.mp hnext]), ih hmore]
    · cases (front?_nil _).symm.trans hend
      rw [collapse_cons, head?_of_front?_underscores hstop, Bool.and_false, beq_iff_eq.mp ha]
      rfl

theorem collapse_of_front?_eq_none {a : Char} (h : front? underscores (a :: cs) = none) :
    collapse (a :: cs) = a :: collapse cs := by
  have hno : ¬ (a == '_' && cs.head? == some '_') = true := by
    intro hboth
    cases (front?_nil cs).symm.trans (front?_run_eq_none h ((Bool.and_eq_true _ _).mp hboth).1).2
  rw [collapse_cons, if_neg hno]

theorem replaces_collapse (cs : List Char) : Replaces underscores (fun _ => ['_']) cs (collapse cs) :=
  replaces_of_front (by simp [underscores]) rfl (fun _ _ _ => collapse_of_front?)
    (fun _ _ => collapse_of_front?_eq_none) cs

/-- The conversion step by step: an underscore is put into all acronyms and then into all humps of the text, and in
    lower case each run of underscores becomes one. -/
def ReplacedBySteps (cs out : List Char) : Prop :=
  ∃ parted humped collapsed, Replaces acronym underscoreBehindFirst (unhyphen cs) parted ∧
    Replaces hump underscoreBehindFirst parted humped ∧ Replaces underscores (fun _ => ['_']) (lower humped) collapsed ∧
    out = dropEnds (· == '_') collapsed

theorem replacedBySteps_iff {out : List Char} : ReplacedBySteps cs out ↔ out = snakeChars cs := by
  refine ⟨fun h => ?_, fun h => ?_⟩
  · obtain ⟨parted, humped, collapsed, hparted, hhumped, hcollapsed, rfl⟩ := h
    obtain rfl := hparted.unique (by simp [acronym]) (replaces_cutAcronyms _)
    obtain rfl := hhumped.unique (by simp [hump]) (replaces_cutHumps _)
    obtain rfl := hcollapsed.unique (by simp [underscores]) (replaces_collapse _)
    rfl
  · exact ⟨_, _, _, replaces_cutAcronyms _, replaces_cutHumps _, replaces_collapse _, h⟩

end Replacing

/-! ## The pieces between the cuts -/

section Pieces

/-- The pieces of a name: an underscore or a hyphen is a cut, and between two characters there is one where a small
    letter or a digit meets a capital, or a capital meets one that a small letter follows. -/
def pieces : List Char → List (List Char)
  | [] => [[]]
  | a :: cs =>
    if isEdge a then [] :: pieces cs
    else if meetsCapital a cs || meetsWord a cs then [a] :: pieces cs
    else match pieces cs with
      | [] => [[a]]
      | piece :: rest => (a :: piece) :: rest

theorem unhyphen_cons (a : Char) (cs : List Char) :
    unhyphen (a :: cs) = (if a == '-' then '_' else a) :: unhyphen cs := rfl

/-- A class that tells no hyphen from an underscore holds the same characters as before. -/
theorem class_unhyphen {p : Char → Bool} (h : p '_' = p '-') (c : Char) :
    p (if c == '-' then '_' else c) = p c := by
  split
  · rename_i hc
    rw [beq_iff_eq.mp hc, h]
  · rfl

theorem meetsCapital_unhyphen (a : Char) (cs : List Char) : meetsCapital a (unhyphen cs) = meetsCapital a cs := by
  cases cs with
  | nil => rfl
  | cons b cs =>
    rw [unhyphen_cons]
    exact congrArg (isWordChar a && ·) (class_unhyphen (p := isUpper) rfl b)

theorem meetsWord_unhyphen (a : Char) (cs : List Char) : meetsWord a (unhyphen cs) = meetsWord a cs := by
  match cs with
  | [] => rfl
  | [b] => rfl
  | b :: c :: rest =>
    rw [unhyphen_cons, unhyphen_cons, meetsWord, class_unhyphen (p := isUpper) rfl, class_unhyphen (p := isLower) rfl]
    rfl

theorem splitAt_cut (cs : List Char) : splitAt '_' (cutHumps (cutAcronyms (unhyphen cs))) = pieces cs := by
  unfold splitAt
  induction cs with
  | nil => rfl
  | cons a cs ih =>
    rw [unhyphen_cons, cutHumps_cutAcronyms_cons, meetsCapital_unhyphen, meetsWord_unhyphen, pieces]
    by_cases hedge : isEdge a = true
    · have hcut : (if a == '-' then '_' else a) = '_' := by
        split
        · rfl
        · rename_i hhyphen
          simpa [isEdge, hhyphen] using hedge
      rw [hcut, meetsCapital_of_not (by decide), meetsWord_of_not (by decide), if_pos hedge]
      show splitWhere _ ('_' :: cutHumps _) = _
      rw [splitWhere, if_pos BEq.rfl, ih]
    · obtain ⟨hunder, hhyphen⟩ : (a == '_') = false ∧ (a == '-') = false := by simpa [isEdge] using hedge
      have hone : splitWhere (· == '_') [a] = [[a]] := splitWhere_of_forall (by simpa using hunder)
      rw [if_neg hedge, hhyphen, if_neg Bool.false_ne_true]
      split
      · rw [← List.singleton_append, splitWhere_append_cons (p := (· == '_')) BEq.rfl, hone, ih]
        rfl
      · rw [splitWhere, hunder, ih]
        rfl

end Pieces

end SchemaForge.Naming

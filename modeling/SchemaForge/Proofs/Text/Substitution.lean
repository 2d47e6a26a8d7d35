/-
Replacing the parts of a text that a pattern matches. A pattern is a row of atoms, each of them one character of a
class or a run of such characters. At the front of a text it matches in one way at most: a run is as long as the atoms
after it allow (`front?`).

A text is replaced from left to right (`Replaces`). Where the pattern matches, the pieces of the match are written anew
and the search goes on behind them, so no two matches overlap; where it does not, one character stays as it is. There is
one result (`Replaces.unique`), and a function that does the right thing at the front of every text gives it
(`replaces_of_front`).
-/

namespace SchemaForge.Text

/-- One character of a class, or one and as many more as can be had. -/
inductive Atom
  | one (p : Char → Bool)
  | run (p : Char → Bool)

/-- The piece that each atom matches at the front of a text, and what is left of the text. -/
def front? : List Atom → List Char → Option (List (List Char) × List Char)
  | [], cs => some ([], cs)
  | _ :: _, [] => none
  | .one p :: atoms, c :: cs => if p c then (front? atoms cs).map (fun m => ([c] :: m.1, m.2)) else none
  | .run p :: atoms, c :: cs =>
    if p c then
      match front? (.run p :: atoms) cs with
      | some (piece :: pieces, rest) => some ((c :: piece) :: pieces, rest)
      | _ => (front? atoms cs).map (fun m => ([c] :: m.1, m.2))
    else none

/-- The second text is the first one with every match written anew. -/
inductive Replaces (atoms : List Atom) (write : List (List Char) → List Char) : List Char → List Char → Prop
  | done : Replaces atoms write [] []
  | matched {cs rest out : List Char} {pieces : List (List Char)} : front? atoms cs = some (pieces, rest) →
      Replaces atoms write rest out → Replaces atoms write cs (write pieces ++ out)
  | kept {c : Char} {cs out : List Char} : front? atoms (c :: cs) = none → Replaces atoms write cs out →
      Replaces atoms write (c :: cs) (c :: out)

variable {atoms : List Atom} {write : List (List Char) → List Char} {cs rest : List Char} {pieces : List (List Char)}

/-! ## Matches -/

theorem front?_nil (cs : List Char) : front? [] cs = some ([], cs) := by
  unfold front?
  rfl

theorem front?_one_eq_some {p : Char → Bool} (h : front? (.one p :: atoms) cs = some (pieces, rest)) :
    ∃ c cs' pieces', cs = c :: cs' ∧ p c = true ∧ pieces = [c] :: pieces' ∧
      front? atoms cs' = some (pieces', rest) := by
  cases cs with
  | nil => cases h
  | cons c cs =>
    unfold front? at h
    split at h
    · rename_i hc
      obtain ⟨m, hm, heq⟩ := Option.map_eq_some_iff.mp h
      cases heq
      exact ⟨c, cs, m.1, rfl, hc, rfl, hm⟩
    · cases h

/-- A run goes on as long as it can, and ends where it can go on no more. -/
theorem front?_run_eq_some {p : Char → Bool} (h : front? (.run p :: atoms) cs = some (pieces, rest)) :
    ∃ c cs' piece pieces', cs = c :: cs' ∧ p c = true ∧ pieces = (c :: piece) :: pieces' ∧
      (front? (.run p :: atoms) cs' = some (piece :: pieces', rest) ∨
        front? (.run p :: atoms) cs' = none ∧ piece = [] ∧ front? atoms cs' = some (pieces', rest)) := by
  induction cs generalizing pieces rest with
  | nil => cases h
  | cons c cs ih =>
    unfold front? at h
    split at h
    · rename_i hc
      split at h
      · rename_i piece pieces' rest' hmore
        cases h
        exact ⟨c, cs, piece, pieces', rfl, hc, rfl, Or.inl hmore⟩
      · rename_i hend
        obtain ⟨m, hm, heq⟩ := Option.map_eq_some_iff.mp h
        cases heq
        refine ⟨c, cs, [], m.1, rfl, hc, rfl, Or.inr ⟨?_, rfl, hm⟩⟩
        rw [Option.eq_none_iff_forall_ne_some]
        rintro ⟨more, rest'⟩ hmore
        obtain ⟨d, cs', piece, pieces', -, -, rfl, -⟩ := ih hmore
        exact hend _ _ _ hmore
    · cases h

/-- A run that could be one character and does not match has no match of the rest behind it. -/
theorem front?_run_eq_none {p : Char → Bool} {c : Char} (h : front? (.run p :: atoms) (c :: cs) = none)
    (hc : p c = true) : front? (.run p :: atoms) cs = none ∧ front? atoms cs = none := by
  have hrest : front? atoms cs = none := by
    unfold front? at h
    rw [if_pos hc] at h
    split at h
    · cases h
    · exact Option.map_eq_none_iff.mp h
  refine ⟨?_, hrest⟩
  rw [Option.eq_none_iff_forall_ne_some]
  rintro ⟨more, rest⟩ hmore
  obtain ⟨d, cs', piece, pieces, -, -, rfl, -⟩ := front?_run_eq_some hmore
  unfold front? at h
  rw [if_pos hc, hmore] at h
  cases h

/-- Every atom takes a character. -/
theorem length_of_front? (h : front? atoms cs = some (pieces, rest)) : rest.length + atoms.length ≤ cs.length := by
  fun_induction front? atoms cs generalizing pieces rest with
  | case1 cs =>
    cases h
    exact Nat.le_refl _
  | case2 => cases h
  | case3 p atoms c cs _ ih =>
    obtain ⟨m, hm, heq⟩ := Option.map_eq_some_iff.mp h
    cases heq
    have := ih hm
    simp only [List.length_cons]
    omega
  | case4 => cases h
  | case5 p atoms c cs _ piece pieces' rest' hmore ih =>
    cases h
    have := ih hmore
    simp only [List.length_cons] at this ⊢
    omega
  | case6 p atoms c cs _ _ _ ih =>
    obtain ⟨m, hm, heq⟩ := Option.map_eq_some_iff.mp h
    cases heq
    have := ih hm
    simp only [List.length_cons]
    omega
  | case7 => cases h

/-! ## Replacing -/

theorem Replaces.unique (hne : atoms ≠ []) {x y : List Char} (hx : Replaces atoms write cs x)
    (hy : Replaces atoms write cs y) : x = y := by
  have hnil : front? atoms [] = none := by
    cases atoms with
    | nil => exact absurd rfl hne
    | cons atom atoms => rfl
  induction hx generalizing y with
  | done =>
    cases hy with
    | done => rfl
    | matched hfront _ =>
      rw [hnil] at hfront
      cases hfront
  | matched hfront _ ih =>
    cases hy with
    | done =>
      rw [hnil] at hfront
      cases hfront
    | matched hfront' hrest =>
      rw [hfront] at hfront'
      cases hfront'
      rw [ih hrest]
    | kept hnone _ =>
      rw [hfront] at hnone
      cases hnone
  | kept hnone _ ih =>
    cases hy with
    | matched hfront _ =>
      rw [hnone] at hfront
      cases hfront
    | kept _ hrest => rw [ih hrest]

theorem replaces_of_front {f : List Char → List Char} (hne : atoms ≠ []) (hnil : f [] = [])
    (hmatched : ∀ cs pieces rest, front? atoms cs = some (pieces, rest) → f cs = write pieces ++ f rest)
    (hkept : ∀ c cs, front? atoms (c :: cs) = none → f (c :: cs) = c :: f cs) (cs : List Char) :
    Replaces atoms write cs (f cs) := by
  induction hlength : cs.length using Nat.strongRecOn generalizing cs with
  | ind n ih =>
    subst hlength
    cases hfront : front? atoms cs with
    | some m =>
      obtain ⟨pieces, rest⟩ := m
      have hshorter := length_of_front? hfront
      have := List.length_pos_iff.mpr hne
      rw [hmatched cs pieces rest hfront]
      exact .matched hfront (ih rest.length (by omega) rest rfl)
    | none =>
      cases cs with
      | nil =>
        rw [hnil]
        exact .done
      | cons c cs =>
        rw [hkept c cs hfront]
        exact .kept hfront (ih cs.length (Nat.lt_succ_self _) cs rfl)

end SchemaForge.Text

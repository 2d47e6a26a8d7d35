import SchemaForge.Text.Casing

/-
Lower case, once and again. A text in lower case stays as it is when it is lowered (`lowerText_lowerText`).

Lowering changes the members of some runs of characters and no others (`settled_of_unchanged`). So it is enough that
nothing a text in lower case can hold is in a run. That is checked for all numbers at once, with each set of them as the
bits of one number (`changed_disjoint`).
-/

namespace SchemaForge.Text

/-! ## Runs -/

theorem CaseRun.mapped?_eq_some {first last step n m : Nat} {shift : Int} :
    CaseRun.mapped? (first, last, step, shift) n = some m ↔
      (first ≤ n ∧ n ≤ last ∧ (n - first) % step = 0) ∧ ((n : Int) + shift).toNat = m := by
  simp only [mapped?, Bool.and_eq_true, decide_eq_true_eq, beq_iff_eq, Option.ite_none_right_eq_some,
    Option.some.injEq, and_assoc]

theorem CaseRun.mapped?_eq_none {first last step n : Nat} {shift : Int} (h : ¬ (first ≤ n ∧ n ≤ last)) :
    CaseRun.mapped? (first, last, step, shift) n = none := by
  rw [Option.eq_none_iff_forall_ne_some]
  intro m hm
  obtain ⟨⟨hfirst, hlast, -⟩, -⟩ := mapped?_eq_some.mp hm
  exact h ⟨hfirst, hlast⟩

/-- The members of a run. -/
def CaseRun.members (r : CaseRun) : List Nat :=
  (List.range ((r.2.1 - r.1) / r.2.2.1 + 1)).map (fun k => r.1 + r.2.2.1 * k)

/-- What the members of a run are mapped to. -/
def CaseRun.images (r : CaseRun) : List Nat := r.members.map (fun n : Nat => ((n : Int) + r.2.2.2).toNat)

theorem CaseRun.mem_members {r : CaseRun} {n m : Nat} (h : r.mapped? n = some m) : n ∈ r.members := by
  obtain ⟨first, last, step, shift⟩ := r
  obtain ⟨⟨hfirst, hlast, hstep⟩, -⟩ := mapped?_eq_some.mp h
  refine List.mem_map.mpr ⟨(n - first) / step, List.mem_range.mpr ?_, ?_⟩
  · exact Nat.lt_succ_of_le (Nat.div_le_div_right (Nat.sub_le_sub_right hlast first))
  · show first + step * ((n - first) / step) = n
    rw [Nat.mul_div_cancel' (Nat.dvd_of_mod_eq_zero hstep)]
    omega

theorem CaseRun.mem_images {r : CaseRun} {n m : Nat} (h : r.mapped? n = some m) : m ∈ r.images := by
  obtain ⟨-, hm⟩ := mapped?_eq_some.mp h
  exact List.mem_map.mpr ⟨n, mem_members h, hm⟩

/-- A set of numbers as the bits of one. -/
def marks (ns : List Nat) : Nat := ns.foldr (fun n m => m ||| 1 <<< n) 0

theorem testBit_marks {ns : List Nat} {n : Nat} (h : n ∈ ns) : (marks ns).testBit n = true := by
  induction ns with
  | nil => cases h
  | cons k ns ih =>
    rw [marks, List.foldr_cons, Nat.testBit_or, Bool.or_eq_true, Nat.one_shiftLeft]
    rcases List.mem_cons.mp h with rfl | h
    · exact Or.inr Nat.testBit_two_pow_self
    · exact Or.inl (ih h)

/-- The runs of all characters that lowering changes: the letters of ASCII, the one that becomes two, the capital sigma
    and those of the table. -/
def changed : List CaseRun := (65, 90, 1, 32) :: (304, 304, 1, 0) :: (931, 931, 1, 0) :: lowerRuns.toList

/-! ## Settled characters -/

/-- Lowering leaves the character as it is, wherever it stands. -/
def Settled (c : Char) : Prop := c ≠ 'Σ' ∧ lowerChar c = [c]

/-- The number is in no run of changed characters. -/
def Unchanged (n : Nat) : Prop := ∀ q ∈ changed, q.mapped? n = none

/-- What lowering puts in the place of others: what the table maps to, the two characters that one becomes, the small
    forms of sigma, and the character 0 for a number that is no code point. -/
def reached : List Nat := [0, 105, 775, 962, 963] ++ lowerRuns.toList.flatMap CaseRun.images

/-- Nothing that lowering puts into a text is changed by lowering. -/
theorem changed_disjoint : marks (changed.flatMap CaseRun.members) &&& marks reached = 0 := by
  decide +kernel

theorem unchanged_of_mem_reached {n : Nat} (h : n ∈ reached) : Unchanged n := by
  intro q hq
  rw [Option.eq_none_iff_forall_ne_some]
  intro k hk
  have hboth : (marks (changed.flatMap CaseRun.members) &&& marks reached).testBit n = true := by
    rw [Nat.testBit_and, testBit_marks (List.mem_flatMap.mpr ⟨q, hq, CaseRun.mem_members hk⟩), testBit_marks h]
    rfl
  rw [changed_disjoint, Nat.zero_testBit] at hboth
  cases hboth

theorem unchanged_of_table {n : Nat} (hletter : 128 ≤ n) (hdotted : n ≠ 304) (hsigma : n ≠ 931)
    (hruns : ∀ q ∈ lowerRuns, q.mapped? n = none) : Unchanged n := by
  intro q hq
  simp only [changed, List.mem_cons, Array.mem_toList_iff] at hq
  rcases hq with rfl | rfl | rfl | hq
  · exact CaseRun.mapped?_eq_none (by omega)
  · exact CaseRun.mapped?_eq_none (by omega)
  · exact CaseRun.mapped?_eq_none (by omega)
  · exact hruns q hq

theorem not_between_of_unchanged {n first last : Nat} {shift : Int} (h : Unchanged n)
    (hq : (first, last, 1, shift) ∈ changed) : ¬ (first ≤ n ∧ n ≤ last) := by
  intro hn
  have := h _ hq
  rw [CaseRun.mapped?_eq_some.mpr ⟨⟨hn.1, hn.2, Nat.mod_one _⟩, rfl⟩] at this
  cases this

theorem settled_of_unchanged {c : Char} (h : Unchanged c.toNat) : Settled c := by
  have hletter := not_between_of_unchanged h (show (65, 90, 1, 32) ∈ changed by simp [changed])
  have hdotted := not_between_of_unchanged h (show (304, 304, 1, 0) ∈ changed by simp [changed])
  have hsigma := not_between_of_unchanged h (show (931, 931, 1, 0) ∈ changed by simp [changed])
  refine ⟨?_, ?_⟩
  · rintro rfl
    exact hsigma (by decide)
  unfold lowerChar
  split
  · rename_i hascii
    have := of_ascii (p := fun c => (65 ≤ c.toNat && c.toNat ≤ 90) || c.toLower == c) (by decide +kernel) hascii
    simp only [Bool.or_eq_true, Bool.and_eq_true, decide_eq_true_eq, beq_iff_eq] at this
    rw [this.resolve_left hletter]
  · have hspecial : lowerSpecial.find? (·.1 == c.toNat) = none := by
      have : ¬ 304 = c.toNat := fun h => hdotted (by omega)
      simp [lowerSpecial, this]
    have hruns : lowerRuns.findSome? (CaseRun.mapped? · c.toNat) = none :=
      Array.findSome?_eq_none_iff.mpr fun q hq => h q (by simp [changed, hq])
    rw [mapCase, hspecial, hruns]
    simp only [Option.getD_none, Char.ofNat_toNat]

theorem settled_ofNat {n : Nat} (h : Unchanged n) : Settled (Char.ofNat n) := by
  refine settled_of_unchanged ?_
  by_cases hvalid : n.isValidChar
  · rw [Char.ofNat, dif_pos hvalid]
    exact h
  · -- a number that is no code point stands for the character 0
    rw [Char.ofNat, dif_neg hvalid]
    exact unchanged_of_mem_reached (by simp [reached])

theorem settled_toLower {c : Char} (hc : c.toNat < 128) : Settled c.toLower := by
  have := of_ascii (p := fun c => c.toLower != 'Σ' && lowerChar c.toLower == [c.toLower]) (by decide +kernel) hc
  simpa [Settled] using this

theorem settled_of_mem_lowerChar {c d : Char} (hc : c ≠ 'Σ') (hd : d ∈ lowerChar c) : Settled d := by
  unfold lowerChar at hd
  split at hd
  · rename_i hascii
    rw [List.mem_singleton.mp hd]
    exact settled_toLower hascii
  · rename_i hascii
    unfold mapCase at hd
    split at hd
    · rename_i out hspecial
      obtain ⟨-, rfl⟩ : _ = 304 ∧ out = [105, 775] := by
        simpa [lowerSpecial] using Array.mem_of_find?_eq_some hspecial
      have hd : d = Char.ofNat 105 ∨ d = Char.ofNat 775 := by simpa using hd
      rcases hd with rfl | rfl
      · exact settled_ofNat (unchanged_of_mem_reached (by simp [reached]))
      · exact settled_ofNat (unchanged_of_mem_reached (by simp [reached]))
    · rename_i hspecial
      rw [List.mem_singleton.mp hd]
      refine settled_ofNat ?_
      cases hruns : lowerRuns.findSome? (CaseRun.mapped? · c.toNat) with
      | some m =>
        obtain ⟨r, hr, hm⟩ := Array.exists_of_findSome?_eq_some hruns
        refine unchanged_of_mem_reached (List.mem_append_right _ (List.mem_flatMap.mpr ⟨r, ?_, CaseRun.mem_images hm⟩))
        exact Array.mem_toList_iff.mpr hr
      | none =>
        rw [Option.getD_none]
        refine unchanged_of_table (by omega) ?_ ?_ (Array.findSome?_eq_none_iff.mp hruns)
        · intro h
          rw [h] at hspecial
          cases hspecial
        · exact fun h => hc (Char.toNat_inj.mp h)

/-! ## Whole texts -/

theorem settled_of_mem_lowerFrom {cs : List Char} {c : Char} :
    ∀ {before : List Char}, c ∈ lowerFrom before cs → Settled c := by
  induction cs with
  | nil =>
    intro before h
    cases h
  | cons d cs ih =>
    intro before h
    rcases List.mem_append.mp h with h | h
    · split at h
      · -- both small forms of sigma are settled
        have hsigma : c = 'ς' ∨ c = 'σ' := by
          rw [List.mem_singleton.mp h]
          split
          · exact Or.inl rfl
          · exact Or.inr rfl
        rcases hsigma with rfl | rfl
        · exact settled_of_unchanged (unchanged_of_mem_reached (by simp [reached]))
        · exact settled_of_unchanged (unchanged_of_mem_reached (by simp [reached]))
      · rename_i hd
        exact settled_of_mem_lowerChar (by simpa using hd) h
    · exact ih h

theorem lowerFrom_of_settled {cs : List Char} (h : ∀ c ∈ cs, Settled c) : ∀ before, lowerFrom before cs = cs := by
  induction cs with
  | nil =>
    intro _
    rfl
  | cons c cs ih =>
    intro before
    obtain ⟨hsigma, hc⟩ := h c (List.mem_cons_self ..)
    rw [lowerFrom, beq_eq_false_iff_ne.mpr hsigma, ih (fun d hd => h d (List.mem_cons_of_mem _ hd)), hc]
    rfl

/-- A text in lower case stays as it is. -/
theorem lowerText_lowerText (s : String) : lowerText (lowerText s) = lowerText s := by
  unfold lowerText lower
  rw [String.toList_ofList, lowerFrom_of_settled (fun _ => settled_of_mem_lowerFrom)]

end SchemaForge.Text

import SchemaForge.Proofs.Naming.Words

/-
How an allocator numbers colliding names. A request gets its converted name, its base, or the base with the first free
number; asking again gives the same answer.

For requests of one style and suffix the answer can be said without the allocator. With the distinct names of the
requests in the order of first request, `rank` counts those before a name that share its base, and the answer is
`nthName base suffix rank` (`assign_of_numbered`). What carries this is `Numbered`: the answers so far are these, and
the used names are the answers. For Pascal names an underscore tells the base from the number, so answers are equal
only for one base and one rank (`given_eq_iff`).
-/

namespace SchemaForge.Naming

/-! ## Numbered names -/

/-- The base itself, then the base under each number from one on. -/
def nthName (base suffix : String) : Nat → String
  | 0 => base
  | n + 1 => Allocator.numbered base suffix (n + 1)

theorem numbered_ne_base {base suffix : String} {n : Nat} : Allocator.numbered base suffix n ≠ base := by
  intro h
  have hl := congrArg (fun s => s.toList.length) h
  have hn : 0 < (toString n).toList.length := by
    rw [Nat.toString_eq_repr, Nat.toList_repr]
    exact List.length_pos_iff.mpr Nat.toDigits_ne_nil
  simp only [Allocator.numbered, String.toList_append, List.length_append] at hl
  omega

theorem nthName_inj {base suffix : String} {i j : Nat} (h : nthName base suffix i = nthName base suffix j) : i = j := by
  cases i with
  | zero =>
    cases j with
    | zero => rfl
    | succ j => exact absurd h.symm numbered_ne_base
  | succ i =>
    cases j with
    | zero => exact absurd h numbered_ne_base
    | succ j => exact Allocator.numbered_inj h

theorem nthName_eq_append (base suffix : String) (i : Nat) :
    ∃ t, (nthName base suffix i).toList = base.toList ++ t ∧ ∀ c ∈ t, c ∈ suffix.toList ∨ isDigit c = true := by
  cases i with
  | zero => exact ⟨[], (List.append_nil _).symm, by simp⟩
  | succ i =>
    refine ⟨suffix.toList ++ (toString (i + 1)).toList, ?_, fun c hc => ?_⟩
    · rw [nthName, Allocator.numbered, String.toList_append, String.toList_append, List.append_assoc]
    · rcases List.mem_append.mp hc with hc | hc
      · exact Or.inl hc
      · rw [Nat.toString_eq_repr, Nat.toList_repr] at hc
        have hdigit := Nat.isDigit_of_mem_toDigits (by decide) (by decide) hc
        exact Or.inr (isDigit_iff.mpr (Char.isDigit_iff_toNat.mp hdigit))

/-- The search goes past taken numbers only. -/
theorem firstFree_eq (used : List String) (base suffix : String) (fuel : Nat) :
    ∀ n, ∃ k, n ≤ k ∧ Allocator.firstFree used base suffix fuel n = Allocator.numbered base suffix k ∧
      ∀ i, n ≤ i → i < k → Allocator.numbered base suffix i ∈ used := by
  induction fuel with
  | zero =>
    intro n
    exact ⟨n, Nat.le_refl n, rfl, fun i hi hk => absurd hk (Nat.not_lt.mpr hi)⟩
  | succ fuel ih =>
    intro n
    unfold Allocator.firstFree
    split
    · rename_i htaken
      obtain ⟨k, hk, heq, hbelow⟩ := ih (n + 1)
      refine ⟨k, by omega, heq, fun i hi hik => ?_⟩
      by_cases hn : i = n
      · rw [hn]
        simpa using htaken
      · exact hbelow i (by omega) hik
    · exact ⟨n, Nat.le_refl n, rfl, fun i hi hk => absurd hk (Nat.not_lt.mpr hi)⟩

theorem free_eq (used : List String) (base suffix : String) :
    ∃ k, Allocator.free used base suffix = nthName base suffix k ∧ ∀ i < k, nthName base suffix i ∈ used := by
  unfold Allocator.free
  split
  · rename_i htaken
    obtain ⟨k, hk, heq, hbelow⟩ := firstFree_eq used base suffix used.length 1
    obtain ⟨k, rfl⟩ := Nat.exists_eq_add_of_le' hk
    refine ⟨k + 1, heq, fun i hi => ?_⟩
    cases i with
    | zero => exact List.contains_iff_mem.mp htaken
    | succ i => exact hbelow (i + 1) (by omega) hi
  · exact ⟨0, rfl, fun i hi => absurd hi (Nat.not_lt_zero i)⟩

/-- If the first `k` names of a base are the taken ones, the next one is given. -/
theorem free_of_taken {used : List String} {base suffix : String} {k : Nat}
    (h : ∀ i, nthName base suffix i ∈ used ↔ i < k) : Allocator.free used base suffix = nthName base suffix k := by
  obtain ⟨j, heq, hbelow⟩ := free_eq used base suffix
  have hfree := Allocator.free_not_mem used base suffix
  rw [heq, h j] at hfree
  rcases Nat.lt_or_ge k j with hlt | hge
  · exact absurd ((h k).mp (hbelow k hlt)) (Nat.lt_irrefl k)
  · rw [heq, Nat.le_antisymm hge (Nat.not_lt.mp hfree)]

/-! ## Requests -/

/-- The distinct names in the order of first request, after one more request. -/
def ask (asked : List String) (name : String) : List String := if name ∈ asked then asked else asked ++ [name]

theorem mem_ask {asked : List String} {name n : String} : n ∈ ask asked name ↔ n ∈ asked ∨ n = name := by
  unfold ask
  split
  · rename_i h
    constructor
    · exact Or.inl
    · rintro (hn | rfl)
      · exact hn
      · exact h
  · rw [List.mem_append, List.mem_singleton]

theorem nodup_ask {asked : List String} {name : String} (h : asked.Nodup) : (ask asked name).Nodup := by
  unfold ask
  split
  · exact h
  · rename_i hn
    refine List.nodup_append.mpr ⟨h, by simp, ?_⟩
    intro a ha b hb
    rw [List.mem_singleton.mp hb]
    exact fun e => hn (e ▸ ha)

section Ranks

variable (base : String → String)

/-- How many of the names share this base. -/
def sharing (asked : List String) (b : String) : Nat := asked.countP (fun m => base m == b)

/-- How many names before this one share its base. -/
def rank (asked : List String) (name : String) : Nat := sharing base (asked.takeWhile (· != name)) (base name)

variable {base} {asked : List String} {name n : String}

theorem rank_append (later : List String) (hn : n ∈ asked) : rank base (asked ++ later) n = rank base asked n := by
  unfold rank
  congr 1
  induction asked with
  | nil => cases hn
  | cons m asked ih =>
    by_cases hm : m = n
    · simp [hm]
    · have hmem : n ∈ asked := (List.mem_cons.mp hn).resolve_left (fun e => hm e.symm)
      rw [List.cons_append, List.takeWhile_cons, List.takeWhile_cons, ih hmem]

theorem rank_append_self (hn : n ∉ asked) : rank base (asked ++ [n]) n = sharing base asked (base n) := by
  have hall : ∀ m ∈ asked, (m != n) = true := fun m hm => bne_iff_ne.mpr (fun e => hn (e ▸ hm))
  unfold rank
  rw [List.takeWhile_append_of_pos hall]
  simp

theorem rank_cons {m : String} : rank base (m :: asked) n =
    if m = n then 0 else rank base asked n + if base m = base n then 1 else 0 := by
  unfold rank sharing
  by_cases hm : m = n
  · simp [hm]
  · simp [hm, List.countP_cons]

/-- Names that share a base have different ranks. -/
theorem rank_inj (hn : n ∈ asked) (hname : name ∈ asked) (hb : base n = base name)
    (hr : rank base asked n = rank base asked name) : n = name := by
  induction asked with
  | nil => cases hn
  | cons m asked ih =>
    rw [rank_cons, rank_cons] at hr
    by_cases hmn : m = n <;> by_cases hmname : m = name
    · exact hmn.symm.trans hmname
    · rw [if_pos hmn, if_neg hmname, hmn, if_pos hb] at hr
      omega
    · rw [if_neg hmn, if_pos hmname, hmname, if_pos hb.symm] at hr
      omega
    · rw [if_neg hmn, if_neg hmname, hb] at hr
      have hn := (List.mem_cons.mp hn).resolve_left (Ne.symm hmn)
      have hname := (List.mem_cons.mp hname).resolve_left (Ne.symm hmname)
      exact ih hn hname (Nat.add_right_cancel hr)

theorem rank_ask (hn : n ∈ asked) : rank base (ask asked name) n = rank base asked n := by
  unfold ask
  split
  · rfl
  · exact rank_append [name] hn

theorem mem_foldl_ask {names : List String} : n ∈ names.foldl ask asked ↔ n ∈ asked ∨ n ∈ names := by
  induction names generalizing asked with
  | nil => simp
  | cons m names ih => rw [List.foldl_cons, ih, mem_ask, List.mem_cons, or_assoc]

theorem nodup_foldl_ask {names : List String} (h : asked.Nodup) : (names.foldl ask asked).Nodup :=
  List.foldlRecOn names ask h fun _ h _ _ => nodup_ask h

theorem rank_foldl_ask (names : List String) (hn : n ∈ asked) :
    rank base (names.foldl ask asked) n = rank base asked n := by
  induction names generalizing asked with
  | nil => rfl
  | cons m names ih =>
    have hm : n ∈ ask asked m := mem_ask.mpr (Or.inl hn)
    exact (ih hm).trans (rank_ask hn)

theorem sharing_ask {b : String} (hn : name ∉ asked) :
    sharing base (ask asked name) b = sharing base asked b + if base name = b then 1 else 0 := by
  unfold sharing ask
  rw [if_neg hn, List.countP_append, List.countP_singleton]
  simp only [beq_iff_eq]

/-- The ranks under one base are a range. -/
def Ranked (base : String → String) (asked : List String) : Prop :=
  ∀ b i, (∃ n ∈ asked, base n = b ∧ rank base asked n = i) ↔ i < sharing base asked b

theorem ranked_ask (h : Ranked base asked) : Ranked base (ask asked name) := by
  by_cases hn : name ∈ asked
  · rwa [ask, if_pos hn]
  intro b i
  have hold : ∀ n ∈ asked, rank base (ask asked name) n = rank base asked n := fun n hmem => rank_ask hmem
  have hnew : rank base (ask asked name) name = sharing base asked (base name) := by
    rw [ask, if_neg hn, rank_append_self hn]
  rw [sharing_ask hn]
  refine ⟨fun hr => ?_, fun hi => ?_⟩
  · obtain ⟨n, hmem, rfl, rfl⟩ := hr
    rcases mem_ask.mp hmem with hmem | rfl
    · have := (h (base n) (rank base asked n)).mp ⟨n, hmem, rfl, rfl⟩
      rw [hold n hmem]
      omega
    · rw [hnew, if_pos rfl]
      omega
  · by_cases hlt : i < sharing base asked b
    · obtain ⟨n, hmem, hb, hr⟩ := (h b i).mpr hlt
      exact ⟨n, mem_ask.mpr (Or.inl hmem), hb, (hold n hmem).trans hr⟩
    · by_cases hb : base name = b
      · rw [if_pos hb] at hi
        refine ⟨name, mem_ask.mpr (Or.inr rfl), hb, ?_⟩
        rw [hnew, hb]
        omega
      · rw [if_neg hb] at hi
        omega

end Ranks

/-! ## Pascal names with an underscore before the number -/

section Pascal

variable (r : Rules)

def pascalBase (name : String) : String := r.convert name .pascal "_"

def pascalKey (name : String) : String := Allocator.requestKey name .pascal "_"

/-- The answer to a request, by the names that have been asked for. -/
def given (asked : List String) (name : String) : String :=
  nthName (pascalBase r name) "_" (rank (pascalBase r) asked name)

theorem pascalKey_inj {x y : String} (h : pascalKey x = pascalKey y) : x = y := by
  unfold pascalKey Allocator.requestKey at h
  exact (String.append_left_inj "_").mp ((String.append_left_inj _).mp ((String.append_left_inj "_").mp
    ((String.append_left_inj "_").mp h)))

variable {r}

/-- What stands before the first underscore of a name that was given. -/
def stem (name : String) : List Char := name.toList.takeWhile (· != '_')

theorem takeWhile_stem {w rest : List Char} (hw : '_' ∉ w) (hrest : rest = [] ∨ ∃ t, rest = '_' :: t) :
    (w ++ rest).takeWhile (· != '_') = w := by
  have hall : ∀ c ∈ w, (c != '_') = true := fun c hc => bne_iff_ne.mpr (fun e => hw (e ▸ hc))
  rw [List.takeWhile_append_of_pos hall]
  rcases hrest with rfl | ⟨t, rfl⟩ <;> simp

theorem stem_nthName (name : String) (i : Nat) :
    stem (nthName (pascalBase r name) "_" i) = (styled .pascal name).toList := by
  have hw : '_' ∉ (styled .pascal name).toList := by
    rw [styled, String.toList_ofList]
    exact fun hu => ne_underscore_of_isLetter (isLetter_of_mem_pascalChars hu) rfl
  have hbase : ∃ t, (pascalBase r name).toList = (styled .pascal name).toList ++ t ∧ (t = [] ∨ ∃ u, t = '_' :: u) := by
    unfold pascalBase
    rw [convert_eq]
    split
    · exact ⟨['_'], String.toList_append, Or.inr ⟨[], rfl⟩⟩
    · exact ⟨[], (List.append_nil _).symm, Or.inl rfl⟩
  obtain ⟨t, ht, hkind⟩ := hbase
  unfold stem
  cases i with
  | zero =>
    show (pascalBase r name).toList.takeWhile _ = _
    rw [ht]
    exact takeWhile_stem hw hkind
  | succ i =>
    show (pascalBase r name ++ "_" ++ toString (i + 1)).toList.takeWhile _ = _
    rw [String.toList_append, String.toList_append, ht, List.append_assoc, List.append_assoc]
    refine takeWhile_stem hw (Or.inr ?_)
    rcases hkind with rfl | ⟨u, rfl⟩
    · exact ⟨_, rfl⟩
    · exact ⟨_, rfl⟩

theorem isNameChar_of_mem_nthName {name : String} {i : Nat} {c : Char}
    (h : c ∈ (nthName (pascalBase r name) "_" i).toList) : isNameChar c = true := by
  have hsuffix : ∀ c ∈ "_".toList, isNameChar c = true := by
    intro c hc
    rw [List.mem_singleton.mp hc]
    decide
  obtain ⟨t, hconvert, ht⟩ := convert_eq_append r name .pascal "_"
  obtain ⟨u, hnth, hu⟩ := nthName_eq_append (pascalBase r name) "_" i
  rw [hnth, pascalBase, hconvert] at h
  rcases List.mem_append.mp h with h | h
  · rcases List.mem_append.mp h with h | h
    · rw [styled, String.toList_ofList] at h
      exact (Bool.and_eq_true _ _ ▸ isLetter_of_mem_pascalChars h).1
    · exact hsuffix c (ht c h)
  · rcases hu c h with h | h
    · exact hsuffix c h
    · simp [isNameChar, h]

/-- A name tells its base and its number. -/
theorem nthName_pascal_inj {x y : String} {i j : Nat}
    (h : nthName (pascalBase r x) "_" i = nthName (pascalBase r y) "_" j) :
    pascalBase r x = pascalBase r y ∧ i = j := by
  have hstem : (styled .pascal x).toList = (styled .pascal y).toList := by
    rw [← stem_nthName (r := r) x i, h, stem_nthName]
  have hbase : pascalBase r x = pascalBase r y := by
    unfold pascalBase
    rw [convert_eq, convert_eq, String.toList_inj.mp hstem]
  rw [hbase] at h
  exact ⟨hbase, nthName_inj h⟩

/-- The allocator has answered just these requests, each by its rank. -/
structure Numbered (r : Rules) (asked : List String) (a : Allocator) : Prop where
  nodup : asked.Nodup
  ranked : Ranked (pascalBase r) asked
  answered : ∀ n, a.answered? (pascalKey n) = if n ∈ asked then some (given r asked n) else none
  used : ∀ x, x ∈ a.used ↔ ∃ n ∈ asked, x = given r asked n

theorem numbered_nil : Numbered r [] {} where
  nodup := List.nodup_nil
  ranked := by
    intro b i
    simp [sharing]
  answered := by
    intro n
    simp [Allocator.answered?, Entries.get?]
  used := by
    intro x
    simp

variable {asked : List String} {a : Allocator}

theorem given_ask {n : String} (name : String) (hn : n ∈ asked) : given r (ask asked name) n = given r asked n := by
  unfold given
  rw [rank_ask hn]

/-- The taken names of a base are its first ones. -/
theorem nthName_mem_used (h : Numbered r asked a) (name : String) (i : Nat) :
    nthName (pascalBase r name) "_" i ∈ a.used ↔ i < sharing (pascalBase r) asked (pascalBase r name) := by
  rw [h.used, ← h.ranked]
  refine ⟨fun h => ?_, fun h => ?_⟩
  · obtain ⟨n, hn, he⟩ := h
    obtain ⟨hb, hi⟩ := nthName_pascal_inj he
    exact ⟨n, hn, hb.symm, hi.symm⟩
  · obtain ⟨n, hn, hb, hi⟩ := h
    refine ⟨n, hn, ?_⟩
    unfold given
    rw [hb, hi]

theorem assign_of_numbered (h : Numbered r asked a) (name : String) :
    (a.assign r name .pascal "_").1 = given r (ask asked name) name ∧
      Numbered r (ask asked name) (a.assign r name .pascal "_").2 := by
  have hanswered : a.answered? (Allocator.requestKey name .pascal "_") = _ := h.answered name
  by_cases hn : name ∈ asked
  · rw [if_pos hn] at hanswered
    simp only [Allocator.assign, hanswered, ask, if_pos hn]
    exact ⟨trivial, h⟩
  · rw [if_neg hn] at hanswered
    have hfree : Allocator.free a.used (r.convert name .pascal "_") "_" = given r (ask asked name) name := by
      rw [given, ask, if_neg hn, rank_append_self hn]
      exact free_of_taken (nthName_mem_used h name)
    simp only [Allocator.assign, hanswered, hfree]
    refine ⟨trivial, nodup_ask h.nodup, ranked_ask h.ranked, ?_, ?_⟩
    · intro n
      unfold Allocator.answered?
      by_cases hname : n = name
      · rw [hname, if_pos (mem_ask.mpr (Or.inr rfl))]
        exact Entries.get?_put_self ..
      · have hkey : pascalKey n ≠ pascalKey name := fun e => hname (pascalKey_inj e)
        have hget := Entries.get?_put_of_ne hkey (given r (ask asked name) name) a.assigned
        refine hget.trans ((h.answered n).trans ?_)
        by_cases hold : n ∈ asked
        · rw [if_pos hold, if_pos (mem_ask.mpr (Or.inl hold)), given_ask name hold]
        · rw [if_neg hold, if_neg (fun hmem => (mem_ask.mp hmem).elim hold hname)]
    · intro x
      rw [List.mem_cons, h.used]
      refine ⟨fun h => ?_, fun h => ?_⟩
      · rcases h with rfl | ⟨n, hold, rfl⟩
        · exact ⟨name, mem_ask.mpr (Or.inr rfl), rfl⟩
        · exact ⟨n, mem_ask.mpr (Or.inl hold), (given_ask name hold).symm⟩
      · obtain ⟨n, hmem, rfl⟩ := h
        rcases mem_ask.mp hmem with hold | rfl
        · exact Or.inr ⟨n, hold, given_ask name hold⟩
        · exact Or.inl rfl

/-- In any two runs of requests, two answers are one name exactly for one base and one rank. -/
theorem given_eq_iff {asked asked' : List String} {x y : String} :
    given r asked x = given r asked' y ↔
      pascalBase r x = pascalBase r y ∧ rank (pascalBase r) asked x = rank (pascalBase r) asked' y := by
  constructor
  · exact nthName_pascal_inj
  · rintro ⟨hb, hr⟩
    unfold given
    rw [hb, hr]

/-- In one run, different names are answered differently. -/
theorem given_inj {x y : String} (hx : x ∈ asked) (hy : y ∈ asked) (h : given r asked x = given r asked y) : x = y := by
  obtain ⟨hb, hr⟩ := given_eq_iff.mp h
  exact rank_inj hx hy hb hr

end Pascal

end SchemaForge.Naming

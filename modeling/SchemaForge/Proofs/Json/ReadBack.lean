import SchemaForge.Proofs.Json.Indented
import SchemaForge.Proofs.Json.WellKeyed

/-
Indented texts are read back. `Takes room cs v r` is a run of the reader: the text `cs` starts with the value v, which
may open `room` arrays and objects, and goes on with r. The indented text of a value within the limits of the reader
(`Fits`), followed by nothing, a comma or a blank, is taken as that value (`takes_indentedChars`), so the reader inverts
the writer (`parse_indented`).
-/

namespace SchemaForge.Json

open Reader

/-- A value that the reader takes in whole: it opens at most so many arrays and objects at once, its objects have each
    key once, its integers do not have too many digits, and it holds no floats. -/
inductive Fits : Nat → Json → Prop
  | null {room : Nat} : Fits room .null
  | bool {room : Nat} (b : Bool) : Fits room (.bool b)
  | int {room : Nat} {n : Int} (digits : (Nat.toDigits 10 n.natAbs).length ≤ maxDigits) : Fits room (.int n)
  | str {room : Nat} (s : String) : Fits room (.str s)
  | arr {room : Nat} {xs : List Json} (items : ∀ x ∈ xs, Fits room x) : Fits (room + 1) (.arr xs)
  | obj {room : Nat} {ms : List (String × Json)} (keys : (Entries.keys ms).Nodup) (members : ∀ m ∈ ms, Fits room m.2) :
    Fits (room + 1) (.obj ms)

/-! ## Runs of the reader -/

def Takes (room : Nat) (cs : List Char) (v : Json) (r : List Char) : Prop := ∃ h, value room cs = .ok (v, ⟨r, h⟩)

section Bare

variable {room : Nat} {c : Char} {cs ds r : List Char} {v : Json}

theorem takes_string {room : Nat} (s : String) (r : List Char) : Takes room (lightString s ++ r) (.str s) r := by
  obtain ⟨h, hbody⟩ := spells_lightString s r
  have hcs : lightString s ++ r = '"' :: (s.toList.flatMap lightEscape ++ '"' :: r) := by
    rw [lightString, List.cons_append, List.cons_append, List.append_assoc, List.singleton_append]
  rw [hcs]
  refine ⟨Nat.lt_succ_of_lt h, ?_⟩
  rw [value, hbody]
  rfl

theorem ne_of_isBareChar {q : Char} (hc : isBareChar c = true) (hq : isBareChar q = false) (r : List Char) :
    c :: cs ≠ q :: r := by
  intro h
  rw [(List.cons.inj h).1, hq] at hc
  cases hc

theorem takes_constant (hc : isBareChar c = true) (found : Rest (c :: cs))
    (h : constant? (c :: cs) = some (v, found)) : Takes room (c :: cs) v found.val := by
  refine ⟨found.property, ?_⟩
  rw [value.eq_4 _ _ (ne_of_isBareChar hc rfl) (ne_of_isBareChar hc rfl) (ne_of_isBareChar hc rfl), h]

theorem takes_number (hc : isBareChar c = true) (found : Rest (c :: cs)) (hconstant : constant? (c :: cs) = none)
    (h : number? (c :: cs) = some (.ok v, found)) : Takes room (c :: cs) v found.val := by
  refine ⟨found.property, ?_⟩
  rw [value.eq_4 _ _ (ne_of_isBareChar hc rfl) (ne_of_isBareChar hc rfl) (ne_of_isBareChar hc rfl), hconstant, h]

theorem natOf_eq (ds : List Char) : natOf ds = Nat.ofDigitChars 10 ds 0 := by
  unfold natOf Nat.ofDigitChars
  simp only [Nat.mul_comm]
  rfl

theorem digits_append (hds : ∀ d ∈ ds, d.isDigit = true) (hr : ∀ a ∈ r.head?, a.isDigit = false) :
    ∃ h, digits (ds ++ r) = (ds, ⟨r, h⟩) := by
  have htake : (ds ++ r).takeWhile Char.isDigit = ds := by
    rw [List.takeWhile_append_of_pos hds]
    cases r with
    | nil => simp
    | cons a r => simp [hr a rfl]
  have hdrop : (ds ++ r).dropWhile Char.isDigit = r := by
    rw [List.dropWhile_append_of_pos hds]
    cases r with
    | nil => rfl
    | cons a r => simp [hr a rfl]
  exact ⟨by simp, Prod.ext htake (Subtype.ext hdrop)⟩

/-- Digits without a leading zero are read to their end. -/
theorem wholePart?_append (hc : c.isDigit = true) (hds : ∀ d ∈ ds, d.isDigit = true) (hzero : c = '0' → ds = [])
    (hr : ∀ a ∈ r.head?, a.isDigit = false) : ∃ h, wholePart? (c :: (ds ++ r)) = some (c :: ds, ⟨r, h⟩) := by
  by_cases hc0 : c = '0'
  · rw [hzero hc0, hc0]
    exact ⟨by simp, rfl⟩
  · obtain ⟨h, hdigits⟩ := digits_append hds hr
    refine ⟨Nat.lt_succ_of_le h, ?_⟩
    rw [wholePart?.eq_2 c _ hc0, if_pos hc, hdigits]

theorem fraction_of_head (hr : ∀ a ∈ r.head?, a ≠ '.') : fraction r = ([], ⟨r, Nat.le_refl _⟩) := by
  rw [fraction.eq_2]
  rintro t rfl
  exact hr '.' rfl rfl

theorem exponent?_of_head (hr : ∀ a ∈ r.head?, (a == 'e' || a == 'E') = false) : exponent? r = none := by
  unfold exponent?
  split
  · rename_i a t
    rw [hr a rfl]
    rfl
  · rfl

theorem head_of_delimited {a q : Char} (hr : Delimited r) (ha : a ∈ r.head?) (hq : isBareChar q = true) : a ≠ q := by
  rintro rfl
  rw [hr a ha] at hq
  cases hq

theorem isDigit_of_delimited {a : Char} (hr : Delimited r) (ha : a ∈ r.head?) : a.isDigit = false := by
  rw [Bool.eq_false_iff]
  intro hdigit
  exact head_of_delimited hr ha (isBareChar_of_isDigit hdigit) rfl

section Numerals

variable {whole : List Char} {r₁ : Rest cs} {f : List Char × { t : List Char // t.length ≤ r₁.val.length }}

theorem unsigned?_plain (neg : Bool) (hwhole : wholePart? cs = some (whole, r₁)) (hfraction : fraction r₁.val = f)
    (hexponent : exponent? f.2.val = none) :
    ∃ h, unsigned? neg cs = some (if f.1.isEmpty then integer neg whole
      else .ok (.float (.ofDecimal neg (natOf (whole ++ f.1)) (-f.1.length))), ⟨f.2.val, h⟩) := by
  subst hfraction
  refine ⟨Nat.lt_of_le_of_lt (fraction r₁.val).2.property r₁.property, ?_⟩
  unfold unsigned?
  rw [hwhole, Option.bind_eq_bind, Option.bind_some]
  dsimp only
  rw [hexponent]
  dsimp only
  split <;> rfl

end Numerals

/-- Digits alone are an integer. -/
theorem unsigned?_whole (neg : Bool) (hc : c.isDigit = true) (hds : ∀ d ∈ ds, d.isDigit = true)
    (hzero : c = '0' → ds = []) (hr : Delimited r) :
    ∃ h, unsigned? neg (c :: (ds ++ r)) = some (integer neg (c :: ds), ⟨r, h⟩) := by
  obtain ⟨h, hwhole⟩ := wholePart?_append hc hds hzero fun a ha => isDigit_of_delimited hr ha
  have hfraction := fraction_of_head fun a ha => head_of_delimited hr ha (q := '.') rfl
  have hexponent : exponent? r = none := exponent?_of_head fun a ha => by
    have he : a ≠ 'e' := head_of_delimited hr ha rfl
    have hE : a ≠ 'E' := head_of_delimited hr ha rfl
    simp [he, hE]
  exact unsigned?_plain neg hwhole hfraction hexponent

/-- No number but zero is written with a leading zero. -/
theorem exists_toDigits (n : Nat) : ∃ c ds, Nat.toDigits 10 n = c :: ds ∧ (c = '0' → ds = []) := by
  induction n using Nat.strong_induction_on with
  | _ n ih =>
    rw [Nat.toDigits_eq_if (by decide)]
    split
    · exact ⟨_, [], rfl, fun _ => rfl⟩
    · rename_i hn
      obtain ⟨c, ds, hhigher, hzero⟩ := ih (n / 10) (by omega)
      refine ⟨c, ds ++ [(n % 10).digitChar], by rw [hhigher, List.cons_append], fun hc => ?_⟩
      have hvalue : Nat.ofDigitChars 10 (Nat.toDigits 10 (n / 10)) 0 = n / 10 := Nat.ofDigitChars_ten_toDigits
      rw [hhigher, hzero hc, hc] at hvalue
      have : Nat.ofDigitChars 10 ['0'] 0 = 0 := rfl
      omega

theorem constant?_of_digit (hc : c.isDigit = true) :
    constant? (c :: cs) = none ∧ constant? ('-' :: c :: cs) = none := by
  have hne : ∀ a : Char, a.isDigit = false → c ≠ a := by
    rintro a ha rfl
    rw [hc] at ha
    cases ha
  constructor
  · rw [constant?.eq_7]
    all_goals
      intro t h
      exact hne _ rfl (List.cons.inj h).1
  · rw [constant?.eq_7]
    case x_6 =>
      intro t h
      exact hne _ rfl (List.cons.inj (List.cons.inj h).2).1
    all_goals
      intro t h
      exact absurd (List.cons.inj h).1 (by decide)

/-- A sign turns what is read without it around. -/
theorem number?_signed {v : Numeral} {t : Rest cs} (h : unsigned? true cs = some (v, t)) :
    ∃ h, number? ('-' :: cs) = some (v, ⟨t.val, h⟩) := by
  refine ⟨Nat.lt_succ_of_lt t.property, ?_⟩
  rw [number?.eq_1, h]
  rfl

theorem number?_unsigned (hc : c ≠ '-') : number? (c :: cs) = unsigned? false (c :: cs) :=
  number?.eq_2 _ fun _ h => hc (List.cons.inj h).1

theorem takes_int {n : Int} (hn : (Nat.toDigits 10 n.natAbs).length ≤ maxDigits) (hr : Delimited r) :
    Takes room ((toString n).toList ++ r) (.int n) r := by
  obtain ⟨c, ds, htext, hzero⟩ := exists_toDigits n.natAbs
  have hdigits : ∀ d ∈ c :: ds, d.isDigit = true := htext ▸ Binary64.digits_isDigit n.natAbs
  have hc := hdigits c (List.mem_cons_self ..)
  have hds : ∀ d ∈ ds, d.isDigit = true := fun d hd => hdigits d (List.mem_cons_of_mem _ hd)
  have hvalue : natOf (c :: ds) = n.natAbs := by
    rw [natOf_eq, ← htext]
    exact Nat.ofDigitChars_ten_toDigits
  have hinteger : ∀ neg, integer neg (c :: ds) = .ok (.int (if neg then -(n.natAbs : Int) else n.natAbs)) := by
    intro neg
    rw [integer, if_pos (htext ▸ hn), hvalue]
  rw [toList_int]
  split
  · rename_i hpos
    obtain ⟨h, hread⟩ := unsigned?_whole false hc hds hzero hr
    rw [show n.toNat = n.natAbs by omega, htext, List.cons_append]
    refine takes_number (isBareChar_of_isDigit hc) ⟨r, h⟩ (constant?_of_digit hc).1 ?_
    rw [number?_unsigned (Binary64.ne_of_isDigit hc rfl), hread, hinteger, if_neg Bool.false_ne_true,
      show (n.natAbs : Int) = n by omega]
  · rename_i hneg
    obtain ⟨h, hread⟩ := unsigned?_whole true hc hds hzero hr
    obtain ⟨h', hnumber⟩ := number?_signed hread
    rw [show (-n).toNat = n.natAbs by omega, htext, List.cons_append, List.cons_append]
    refine takes_number rfl ⟨r, h'⟩ (constant?_of_digit hc).2 ?_
    rw [hnumber, hinteger, if_pos rfl, show -(n.natAbs : Int) = n by omega]

end Bare

/-! ## Arrays and objects -/

section Blocks

variable {room : Nat} {cs r t : List Char} {v : Json}

theorem skip_newline (depth : Nat) (cs : List Char) : skip (newline depth ++ cs) = skip cs := by
  refine List.dropWhile_append_of_pos fun c hc => ?_
  rcases List.mem_cons.mp hc with rfl | hc
  · rfl
  · rw [List.eq_of_mem_replicate hc]
    rfl

theorem skip_cons {c : Char} (hc : isBlank c = false) (cs : List Char) : skip (c :: cs) = c :: cs := by
  simp [skip, hc]

theorem items_last (hv : Takes room cs v r) (hr : skip r = ']' :: t) : ∃ h, items room cs = .ok ([v], ⟨t, h⟩) := by
  obtain ⟨h, hv⟩ := hv
  refine ⟨Nat.lt_trans (length_lt_of_skip hr) h, ?_⟩
  rw [items, hv]
  simp only [bind, Except.bind]
  split
  · rename_i ht
    obtain ⟨-, rfl⟩ := List.cons.inj (hr.symm.trans ht)
    rfl
  · rename_i ht
    exact absurd (List.cons.inj (hr.symm.trans ht)).1 (by decide)
  · rename_i hne _
    exact absurd hr (hne t)

theorem items_more {vs : List Json} {w : Rest (skip t)} (hv : Takes room cs v r) (hr : skip r = ',' :: t)
    (hrest : items room (skip t) = .ok (vs, w)) : ∃ h, items room cs = .ok (v :: vs, ⟨w.val, h⟩) := by
  obtain ⟨h, hv⟩ := hv
  have hskip := length_skip_le t
  refine ⟨Nat.lt_trans (Nat.lt_of_lt_of_le w.property hskip) (Nat.lt_trans (length_lt_of_skip hr) h), ?_⟩
  rw [items, hv]
  simp only [bind, Except.bind]
  split
  · rename_i ht
    exact absurd (List.cons.inj (hr.symm.trans ht)).1 (by decide)
  · rename_i ht
    obtain ⟨-, rfl⟩ := List.cons.inj (hr.symm.trans ht)
    rw [hrest]
    rfl
  · rename_i hne
    exact absurd hr (hne t)

theorem takes_arr_nil (hr : skip r = ']' :: t) : Takes (room + 1) ('[' :: r) (.arr []) t := by
  refine ⟨Nat.lt_succ_of_lt (length_lt_of_skip hr), ?_⟩
  rw [value, if_neg (Nat.succ_ne_zero room)]
  split
  · rename_i ht
    obtain ⟨-, rfl⟩ := List.cons.inj (hr.symm.trans ht)
    rfl
  · rename_i hne
    exact absurd hr (hne t)

theorem takes_arr {xs : List Json} {w : Rest (skip r)} (hr : ∀ t, skip r ≠ ']' :: t)
    (h : items room (skip r) = .ok (xs, w)) : Takes (room + 1) ('[' :: r) (.arr xs) w.val := by
  refine ⟨Nat.lt_succ_of_lt (Nat.lt_of_lt_of_le w.property (length_skip_le r)), ?_⟩
  rw [value, if_neg (Nat.succ_ne_zero room)]
  split
  · rename_i ht
    exact absurd ht (hr _)
  · rw [Nat.add_sub_cancel, h]
    rfl

theorem takes_obj_nil (hr : skip r = '\x7d' :: t) : Takes (room + 1) ('\x7b' :: r) (.obj []) t := by
  refine ⟨Nat.lt_succ_of_lt (length_lt_of_skip hr), ?_⟩
  rw [value, if_neg (Nat.succ_ne_zero room)]
  split
  · rename_i ht
    obtain ⟨-, rfl⟩ := List.cons.inj (hr.symm.trans ht)
    rfl
  · rename_i hne
    exact absurd hr (hne t)

theorem takes_obj {ms : List (String × Json)} {w : Rest (skip r)} (hr : ∀ t, skip r ≠ '\x7d' :: t)
    (h : members room [] (skip r) = .ok (ms, w)) : Takes (room + 1) ('\x7b' :: r) (.obj ms) w.val := by
  refine ⟨Nat.lt_succ_of_lt (Nat.lt_of_lt_of_le w.property (length_skip_le r)), ?_⟩
  rw [value, if_neg (Nat.succ_ne_zero room)]
  split
  · rename_i ht
    exact absurd ht (hr _)
  · rw [Nat.add_sub_cancel, h]
    rfl

variable {done : List (String × Json)} {k : String} {r₁ r₂ r₄ : List Char}

theorem members_last (hk : Spells cs k r₁) (hcolon : skip r₁ = ':' :: r₂)
    (hv : Takes room (skip r₂) v r₄) (hend : skip r₄ = '\x7d' :: t) :
    ∃ h, members room done ('"' :: cs) = .ok (Entries.put k v done, ⟨t, h⟩) := by
  obtain ⟨h₁, hk⟩ := hk
  obtain ⟨h₄, hv⟩ := hv
  have h₂ := length_lt_of_skip hcolon
  have h₃ := length_skip_le r₂
  have h₅ := length_lt_of_skip hend
  refine ⟨by rw [List.length_cons]; omega, ?_⟩
  rw [members, hk]
  simp only [bind, Except.bind]
  split
  · rename_i hc
    obtain ⟨-, rfl⟩ := List.cons.inj (hcolon.symm.trans hc)
    rw [hv]
    dsimp only
    split
    · rename_i ht
      obtain ⟨-, rfl⟩ := List.cons.inj (hend.symm.trans ht)
      rfl
    · rename_i ht
      exact absurd (List.cons.inj (hend.symm.trans ht)).1 (by decide)
    · rename_i hne _
      exact absurd hend (hne t)
  · rename_i hne
    exact absurd hcolon (hne r₂)

theorem members_more {ms : List (String × Json)} {w : Rest (skip t)} (hk : Spells cs k r₁)
    (hcolon : skip r₁ = ':' :: r₂) (hv : Takes room (skip r₂) v r₄) (hend : skip r₄ = ',' :: t)
    (hrest : members room (Entries.put k v done) (skip t) = .ok (ms, w)) :
    ∃ h, members room done ('"' :: cs) = .ok (ms, ⟨w.val, h⟩) := by
  obtain ⟨h₁, hk⟩ := hk
  obtain ⟨h₄, hv⟩ := hv
  have h₂ := length_lt_of_skip hcolon
  have h₃ := length_skip_le r₂
  have h₅ := length_lt_of_skip hend
  have h₆ := length_skip_le t
  have h₇ := w.property
  refine ⟨by rw [List.length_cons]; omega, ?_⟩
  rw [members, hk]
  simp only [bind, Except.bind]
  split
  · rename_i hc
    obtain ⟨-, rfl⟩ := List.cons.inj (hcolon.symm.trans hc)
    rw [hv]
    dsimp only
    split
    · rename_i ht
      exact absurd (List.cons.inj (hend.symm.trans ht)).1 (by decide)
    · rename_i ht
      obtain ⟨-, rfl⟩ := List.cons.inj (hend.symm.trans ht)
      rw [hrest]
      rfl
    · rename_i hne
      exact absurd hend (hne t)
  · rename_i hne
    exact absurd hcolon (hne r₂)

end Blocks

/-! ## Indented texts -/

/-- What a value can start with: no blank and nothing that closes. -/
def isOpening (c : Char) : Bool := isBareChar c || ['"', '[', '\x7b'].contains c

section Indented

variable {room depth : Nat} {v : Json} {c : Char} {cs r : List Char}

theorem ne_of_isOpening {q : Char} (hc : isOpening c = true) (hq : isOpening q = false) : c ≠ q := by
  rintro rfl
  rw [hc] at hq
  cases hq

theorem skip_of_isOpening (hc : isOpening c = true) : skip (c :: cs) = c :: cs := by
  have hspace : c ≠ ' ' := ne_of_isOpening hc rfl
  have htab : c ≠ '\t' := ne_of_isOpening hc rfl
  have hfeed : c ≠ '\n' := ne_of_isOpening hc rfl
  have hreturn : c ≠ '\r' := ne_of_isOpening hc rfl
  exact skip_cons (by simp [isBlank, hspace, htab, hfeed, hreturn]) cs

theorem indentedBlock_append {opening closing : Char} {parts : List (List Char)} (hparts : parts ≠ []) :
    indentedBlock opening closing depth parts ++ r = opening :: (newline (depth + 1) ++
      (Text.joinWith (',' :: newline (depth + 1)) parts ++ (newline depth ++ closing :: r))) := by
  rw [indentedBlock, if_neg (by simpa using hparts)]
  simp

theorem head_indentedChars (hv : Fits room v) (depth : Nat) :
    ∃ c cs, indentedChars depth v = c :: cs ∧ isOpening c = true := by
  have block : ∀ (o c : Char) (parts : List (List Char)), ∃ cs, indentedBlock o c depth parts = o :: cs := by
    intro o c parts
    unfold indentedBlock
    split <;> exact ⟨_, rfl⟩
  cases hv with
  | null => exact ⟨_, _, rfl, rfl⟩
  | bool b => cases b <;> exact ⟨_, _, rfl, rfl⟩
  | @int _ n _ =>
    rw [indentedChars_scalar rfl, Json.scalar, toList_int]
    split
    · obtain ⟨c, ds, htext, -⟩ := exists_toDigits n.toNat
      have hc := Binary64.digits_isDigit n.toNat c (htext ▸ List.mem_cons_self ..)
      exact ⟨c, ds, htext, by rw [isOpening, isBareChar_of_isDigit hc, Bool.true_or]⟩
    · exact ⟨_, _, rfl, rfl⟩
  | str s => exact ⟨_, _, indentedChars_scalar rfl depth, rfl⟩
  | arr items =>
    obtain ⟨cs, htext⟩ := block '[' ']' _
    exact ⟨_, cs, by rw [indentedChars_arr, htext], rfl⟩
  | obj keys members =>
    obtain ⟨cs, htext⟩ := block '\x7b' '\x7d' _
    exact ⟨_, cs, by rw [indentedChars_obj, htext], rfl⟩

/-- Before the next part the reader skips the line break. -/
theorem skip_joinWith (depth : Nat) {sep part : List Char} {rest : List (List Char)}
    (hpart : ∃ c cs, part = c :: cs ∧ isOpening c = true) :
    skip (newline depth ++ (Text.joinWith sep (part :: rest) ++ r)) = Text.joinWith sep (part :: rest) ++ r := by
  obtain ⟨c, cs, rfl, hc⟩ := hpart
  rw [skip_newline, Text.joinWith_cons_cons, List.cons_append, skip_of_isOpening hc]

theorem skip_joinWith_ne {sep part : List Char} {rest : List (List Char)} {q : Char}
    (hpart : ∃ c cs, part = c :: cs ∧ isOpening c = true) (hq : isOpening q = false) (t : List Char) :
    skip (newline depth ++ (Text.joinWith sep (part :: rest) ++ r)) ≠ q :: t := by
  rw [skip_joinWith depth hpart]
  obtain ⟨c, cs, rfl, hc⟩ := hpart
  rw [Text.joinWith_cons_cons, List.cons_append]
  exact fun h => ne_of_isOpening hc hq (List.cons.inj h).1

theorem items_joined {xs : List Json} (hne : xs ≠ []) (hfits : ∀ x ∈ xs, Fits room x)
    (hread : ∀ x ∈ xs, ∀ r, Delimited r → Takes room (indentedChars depth x ++ r) x r) (outer : Nat) (r : List Char) :
    ∃ h, items room (Text.joinWith (',' :: newline depth) (xs.map (indentedChars depth)) ++
      (newline outer ++ ']' :: r)) = .ok (xs, ⟨r, h⟩) := by
  induction xs with
  | nil => exact absurd rfl hne
  | cons x xs ih =>
    have hx := hread x (List.mem_cons_self ..)
    cases xs with
    | nil => exact items_last (hx _ (delimited_cons rfl _)) (by rw [skip_newline]; rfl)
    | cons y ys =>
      have hhead := head_indentedChars (hfits y (List.mem_cons_of_mem _ (List.mem_cons_self ..))) depth
      have hrest := ih (List.cons_ne_nil _ _) (fun z hz => hfits z (List.mem_cons_of_mem _ hz))
        (fun z hz => hread z (List.mem_cons_of_mem _ hz))
      rw [List.map_cons, ← skip_joinWith depth hhead] at hrest
      obtain ⟨_, hrest⟩ := hrest
      rw [List.map_cons, List.map_cons, Text.joinWith, List.append_assoc, List.append_assoc, List.cons_append]
      exact items_more (hx _ (delimited_cons rfl _)) (skip_cons rfl _) hrest

theorem head_indentedMember (depth : Nat) (m : String × Json) :
    ∃ c cs, indentedMember depth m = c :: cs ∧ isOpening c = true :=
  ⟨'"', _, rfl, rfl⟩

theorem members_joined {ms : List (String × Json)} (hne : ms ≠ [])
    (hread : ∀ m ∈ ms, ∀ r, Delimited r → Takes room (indentedChars depth m.2 ++ r) m.2 r)
    (hfits : ∀ m ∈ ms, Fits room m.2) (outer : Nat) (r : List Char) (done : List (String × Json)) :
    ∃ h, members room done (Text.joinWith (',' :: newline depth) (ms.map (indentedMember depth)) ++
      (newline outer ++ '\x7d' :: r)) = .ok (Entries.putAll ms done, ⟨r, h⟩) := by
  have member : ∀ (m : String × Json) (t : List Char), indentedMember depth m ++ t =
      '"' :: (m.1.toList.flatMap lightEscape ++ '"' :: ':' :: ' ' :: (indentedChars depth m.2 ++ t)) := by
    intro m t
    simp [indentedMember, lightString]
  induction ms generalizing done with
  | nil => exact absurd rfl hne
  | cons m ms ih =>
    have hm := hread m (List.mem_cons_self ..)
    obtain ⟨c, cs, hhead, hc⟩ := head_indentedChars (hfits m (List.mem_cons_self ..)) depth
    have hvalue : ∀ t, Delimited t → Takes room (skip (' ' :: (indentedChars depth m.2 ++ t))) m.2 t := by
      intro t ht
      have hskip : skip (' ' :: (indentedChars depth m.2 ++ t)) = indentedChars depth m.2 ++ t := by
        rw [hhead]
        exact skip_of_isOpening hc
      rw [hskip]
      exact hm t ht
    cases ms with
    | nil =>
      rw [List.map_cons, List.map_nil, Text.joinWith, member]
      exact members_last (spells_lightString m.1 _) (skip_cons rfl _) (hvalue _ (delimited_cons rfl _))
        (by rw [skip_newline]; rfl)
    | cons n ns =>
      have hrest := ih (List.cons_ne_nil _ _) (fun z hz => hread z (List.mem_cons_of_mem _ hz))
        (fun z hz => hfits z (List.mem_cons_of_mem _ hz)) (Entries.put m.1 m.2 done)
      rw [List.map_cons, ← skip_joinWith depth (head_indentedMember depth n)] at hrest
      obtain ⟨_, hrest⟩ := hrest
      rw [List.map_cons, List.map_cons, Text.joinWith, List.append_assoc, List.append_assoc, List.cons_append, member]
      exact members_more (spells_lightString m.1 _) (skip_cons rfl _) (hvalue _ (delimited_cons rfl _))
        (skip_cons rfl _) hrest

/-- The indented text of a value is taken as the value. -/
theorem takes_indentedChars (hv : Fits room v) :
    ∀ depth r, Delimited r → Takes room (indentedChars depth v ++ r) v r := by
  induction hv with
  | null => exact fun _ r _ => takes_constant rfl ⟨r, by simp; omega⟩ rfl
  | bool b =>
    intro _ r _
    cases b with
    | false => exact takes_constant rfl ⟨r, by simp; omega⟩ rfl
    | true => exact takes_constant rfl ⟨r, by simp; omega⟩ rfl
  | int digits =>
    intro depth r hr
    rw [indentedChars_scalar rfl]
    exact takes_int digits hr
  | str s =>
    intro depth r _
    rw [indentedChars_scalar rfl]
    exact takes_string s r
  | @arr _ xs items ih =>
    intro depth r _
    rw [indentedChars_arr]
    cases xs with
    | nil => exact takes_arr_nil rfl
    | cons x xs =>
      have hhead := head_indentedChars (items x (List.mem_cons_self ..)) (depth + 1)
      have hitems := items_joined (List.cons_ne_nil _ _) items (fun y hy => ih y hy (depth + 1)) depth r
      rw [List.map_cons, ← skip_joinWith (depth + 1) hhead] at hitems
      obtain ⟨_, hitems⟩ := hitems
      rw [List.map_cons, indentedBlock_append (List.cons_ne_nil _ _)]
      exact takes_arr (skip_joinWith_ne hhead rfl) hitems
  | @obj _ ms keys members ih =>
    intro depth r _
    rw [indentedChars_obj]
    cases ms with
    | nil => exact takes_obj_nil rfl
    | cons m ms =>
      have hhead := head_indentedMember (depth + 1) m
      have hmembers := members_joined (List.cons_ne_nil _ _) (fun n hn => ih n hn (depth + 1)) members depth r []
      rw [Entries.putAll_nil keys, List.map_cons, ← skip_joinWith (depth + 1) hhead] at hmembers
      obtain ⟨_, hmembers⟩ := hmembers
      rw [List.map_cons, indentedBlock_append (List.cons_ne_nil _ _)]
      exact takes_obj (skip_joinWith_ne hhead rfl) hmembers

/-- The reader reads what the writer wrote. -/
theorem parse_indented (hv : Fits maxDepth v) : parse v.indented = .ok v := by
  obtain ⟨c, cs, hhead, hc⟩ := head_indentedChars hv 0
  have htakes := takes_indentedChars hv 0 [] fun a ha => by cases ha
  rw [List.append_nil] at htakes
  have hskip : Takes maxDepth (skip (indentedChars 0 v)) v [] := by
    rwa [show skip (indentedChars 0 v) = indentedChars 0 v by rw [hhead, skip_of_isOpening hc]]
  have hdocument : document (indentedChars 0 v) = .ok v := by
    obtain ⟨_, hvalue⟩ := hskip
    rw [document.eq_2]
    · rw [hvalue]
      rfl
    · intro t ht
      exact ne_of_isOpening (q := '\ufeff') hc rfl (List.cons.inj (hhead.symm.trans ht)).1
  simp only [parse, indented, String.toList_ofList, hdocument]

end Indented

end SchemaForge.Json

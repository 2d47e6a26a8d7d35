import SchemaForge.Text.Utf8

/-
Written texts decode. Whatever stands before, the bytes of a character are taken as that character
(`decodeFrom_utf8EncodeChar`): the first says how many follow, and its range for the second keeps out only what is no
character. So the bytes of a text decode to the text (`decode_toUTF8`).
-/

namespace SchemaForge.Text.Utf8

section Steps

variable {offset n owed low high : Nat} {p : Pending} {done : List Char} {x : UInt8} {xs : List UInt8}

theorem decodeFrom_single (hx : x.toNat = n) (hn : n < 0x80) :
    decodeFrom offset none done (x :: xs) = decodeFrom (offset + 1) none (Char.ofNat n :: done) xs := by
  subst hx
  simp only [decodeFrom, if_pos hn]

theorem decodeFrom_lead (hx : x.toNat = n) (hn : ¬ n < 0x80) (hlead : lead? n = some (owed, low, high)) :
    decodeFrom offset none done (x :: xs) =
      decodeFrom (offset + 1) (some ⟨offset, n, 1, leadBits owed n, owed, low, high⟩) done xs := by
  subst hx
  simp only [decodeFrom, if_neg hn, hlead]

theorem decodeFrom_more (hx : x.toNat = n) (hlow : p.low ≤ n) (hhigh : n ≤ p.high) (howed : ¬ p.owed ≤ 1) :
    decodeFrom offset (some p) done (x :: xs) = decodeFrom (offset + 1)
      (some ⟨p.start, p.byte, p.taken + 1, p.bits * 0x40 + n % 0x40, p.owed - 1, 0x80, 0xBF⟩) done xs := by
  subst hx
  simp only [decodeFrom, hlow, hhigh, decide_true, Bool.and_self, if_true, if_neg howed]

theorem decodeFrom_last (hx : x.toNat = n) (hlow : p.low ≤ n) (hhigh : n ≤ p.high) (howed : p.owed ≤ 1) :
    decodeFrom offset (some p) done (x :: xs) =
      decodeFrom (offset + 1) none (Char.ofNat (p.bits * 0x40 + n % 0x40) :: done) xs := by
  subst hx
  simp only [decodeFrom, hlow, hhigh, decide_true, Bool.and_self, if_true, if_pos howed]

end Steps

/-! ## Leading bytes -/

theorem lead?_two {v : Nat} (hlow : 0x80 ≤ v) (hhigh : v < 0x800) :
    lead? (v / 64 % 32 + 192) = some (1, 0x80, 0xBF) := by
  unfold lead?
  rw [if_pos]
  simp only [Bool.and_eq_true, decide_eq_true_eq]
  omega

/-- The second byte is in the range that goes with the first one, as `v` is no half of a pair. -/
theorem lead?_three {v : Nat} (hlow : 0x800 ≤ v) (hhigh : v < 0x10000) (hpair : v < 0xD800 ∨ 0xDFFF < v) :
    ∃ low high, lead? (v / 4096 % 16 + 224) = some (2, low, high) ∧ low ≤ v / 64 % 64 + 128 ∧
      v / 64 % 64 + 128 ≤ high := by
  unfold lead?
  simp only [Bool.and_eq_true, decide_eq_true_eq, beq_iff_eq]
  rw [if_neg (by omega)]
  by_cases he0 : v / 4096 % 16 + 224 = 0xE0
  · exact ⟨_, _, if_pos he0, by omega, by omega⟩
  · rw [if_neg he0]
    by_cases hed : v / 4096 % 16 + 224 = 0xED
    · exact ⟨_, _, if_pos hed, by omega, by omega⟩
    · rw [if_neg hed]
      exact ⟨_, _, if_pos (by omega), by omega, by omega⟩

/-- The second byte is in the range that goes with the first one, as `v` is not too large. -/
theorem lead?_four {v : Nat} (hlow : 0x10000 ≤ v) (hhigh : v < 0x110000) :
    ∃ low high, lead? (v / 262144 % 8 + 240) = some (3, low, high) ∧ low ≤ v / 4096 % 64 + 128 ∧
      v / 4096 % 64 + 128 ≤ high := by
  unfold lead?
  simp only [Bool.and_eq_true, decide_eq_true_eq, beq_iff_eq]
  rw [if_neg (by omega), if_neg (by omega), if_neg (by omega), if_neg (by omega)]
  by_cases hf0 : v / 262144 % 8 + 240 = 0xF0
  · exact ⟨_, _, if_pos hf0, by omega, by omega⟩
  · rw [if_neg hf0]
    by_cases hfour : 0xF1 ≤ v / 262144 % 8 + 240 ∧ v / 262144 % 8 + 240 ≤ 0xF3
    · exact ⟨_, _, if_pos hfour, by omega, by omega⟩
    · rw [if_neg hfour]
      exact ⟨_, _, if_pos (by omega), by omega, by omega⟩

/-! ## Characters and texts -/

section Sequences

variable {offset v : Nat} {done : List Char} {xs : List UInt8}

theorem toNat_ofNat {n : Nat} (h : n < 256) : (UInt8.ofNat n).toNat = n := Nat.mod_eq_of_lt h

theorem decodeFrom_two (hlow : 0x80 ≤ v) (hhigh : v < 0x800) :
    decodeFrom offset none done (.ofNat (v / 64 % 32 + 192) :: .ofNat (v % 64 + 128) :: xs) =
      decodeFrom (offset + 2) none (Char.ofNat v :: done) xs := by
  have hbits : leadBits 1 (v / 64 % 32 + 192) * 0x40 + (v % 64 + 128) % 0x40 = v := by
    show (v / 64 % 32 + 192) % 0x20 * 0x40 + (v % 64 + 128) % 0x40 = v
    omega
  rw [decodeFrom_lead (toNat_ofNat (by omega)) (by omega) (lead?_two hlow hhigh),
    decodeFrom_last (toNat_ofNat (by omega)) (by dsimp only; omega) (by dsimp only; omega) (Nat.le_refl 1)]
  dsimp only
  rw [hbits]

theorem decodeFrom_three (hlow : 0x800 ≤ v) (hhigh : v < 0x10000) (hpair : v < 0xD800 ∨ 0xDFFF < v) :
    decodeFrom offset none done
        (.ofNat (v / 4096 % 16 + 224) :: .ofNat (v / 64 % 64 + 128) :: .ofNat (v % 64 + 128) :: xs) =
      decodeFrom (offset + 3) none (Char.ofNat v :: done) xs := by
  obtain ⟨low, high, hlead, hsecond, hsecond'⟩ := lead?_three hlow hhigh hpair
  have hbits : (leadBits 2 (v / 4096 % 16 + 224) * 0x40 + (v / 64 % 64 + 128) % 0x40) * 0x40 +
      (v % 64 + 128) % 0x40 = v := by
    show ((v / 4096 % 16 + 224) % 0x10 * 0x40 + (v / 64 % 64 + 128) % 0x40) * 0x40 + (v % 64 + 128) % 0x40 = v
    omega
  rw [decodeFrom_lead (toNat_ofNat (by omega)) (by omega) hlead,
    decodeFrom_more (toNat_ofNat (by omega)) hsecond hsecond' (by dsimp only; omega),
    decodeFrom_last (toNat_ofNat (by omega)) (by dsimp only; omega) (by dsimp only; omega) (Nat.le_refl 1)]
  dsimp only
  rw [hbits]

theorem decodeFrom_four (hlow : 0x10000 ≤ v) (hhigh : v < 0x110000) :
    decodeFrom offset none done (.ofNat (v / 262144 % 8 + 240) :: .ofNat (v / 4096 % 64 + 128) ::
        .ofNat (v / 64 % 64 + 128) :: .ofNat (v % 64 + 128) :: xs) =
      decodeFrom (offset + 4) none (Char.ofNat v :: done) xs := by
  obtain ⟨low, high, hlead, hsecond, hsecond'⟩ := lead?_four hlow hhigh
  have hbits : ((leadBits 3 (v / 262144 % 8 + 240) * 0x40 + (v / 4096 % 64 + 128) % 0x40) * 0x40 +
      (v / 64 % 64 + 128) % 0x40) * 0x40 + (v % 64 + 128) % 0x40 = v := by
    show (((v / 262144 % 8 + 240) % 0x08 * 0x40 + (v / 4096 % 64 + 128) % 0x40) * 0x40 +
      (v / 64 % 64 + 128) % 0x40) * 0x40 + (v % 64 + 128) % 0x40 = v
    omega
  rw [decodeFrom_lead (toNat_ofNat (by omega)) (by omega) hlead,
    decodeFrom_more (toNat_ofNat (by omega)) hsecond hsecond' (by dsimp only; omega),
    decodeFrom_more (toNat_ofNat (by omega)) (by dsimp only; omega) (by dsimp only; omega)
      (by dsimp only; omega),
    decodeFrom_last (toNat_ofNat (by omega)) (by dsimp only; omega) (by dsimp only; omega) (Nat.le_refl 1)]
  dsimp only
  rw [hbits]

end Sequences

theorem decodeFrom_utf8EncodeChar (c : Char) (offset : Nat) (done : List Char) (xs : List UInt8) :
    ∃ next, decodeFrom offset none done (String.utf8EncodeChar c ++ xs) = decodeFrom next none (c :: done) xs := by
  have hvalid : c.toNat < 0xD800 ∨ 0xDFFF < c.toNat ∧ c.toNat < 0x110000 := c.valid
  have hchar : Char.ofNat c.toNat = c := Char.ofNat_toNat c
  unfold String.utf8EncodeChar
  simp only [Char.toNat_val]
  split
  · exact ⟨offset + 1, (decodeFrom_single (toNat_ofNat (by omega)) (by omega)).trans (by rw [hchar]; rfl)⟩
  · split
    · exact ⟨offset + 2, (decodeFrom_two (by omega) (by omega)).trans (by rw [hchar]; rfl)⟩
    · split
      · exact ⟨offset + 3, (decodeFrom_three (by omega) (by omega) (by omega)).trans (by rw [hchar]; rfl)⟩
      · exact ⟨offset + 4, (decodeFrom_four (by omega) (by omega)).trans (by rw [hchar]; rfl)⟩

theorem decodeFrom_flatMap (cs : List Char) (offset : Nat) (done : List Char) :
    decodeFrom offset none done (cs.flatMap String.utf8EncodeChar) = .ok (done.reverse ++ cs) := by
  induction cs generalizing offset done with
  | nil => simp [decodeFrom]
  | cons c cs ih =>
    obtain ⟨next, hnext⟩ := decodeFrom_utf8EncodeChar c offset done (cs.flatMap String.utf8EncodeChar)
    rw [List.flatMap_cons, hnext, ih, List.reverse_cons, List.append_assoc, List.singleton_append]

theorem toList_loop (bytes : ByteArray) (i : Nat) (done : List UInt8) :
    ByteArray.toList.loop bytes i done = done.reverse ++ bytes.data.toList.drop i := by
  induction i, done using ByteArray.toList.loop.induct bytes with
  | case1 i done hi ih =>
    have hlength : i < bytes.data.toList.length := by simpa using hi
    have hget : bytes.get! i = bytes.data.toList[i] := by
      show bytes.data[i]! = _
      rw [getElem!_pos bytes.data i hi, Array.getElem_toList]
    rw [ByteArray.toList.loop, if_pos hi, ih, List.drop_eq_getElem_cons hlength, hget]
    simp
  | case2 i done hi =>
    have hlength : bytes.data.toList.length ≤ i := by simpa using hi
    rw [ByteArray.toList.loop, if_neg hi, List.drop_eq_nil_of_le hlength, List.append_nil]

theorem toList_toUTF8 (s : String) : s.toUTF8.toList = s.toList.flatMap String.utf8EncodeChar := by
  show ByteArray.toList.loop s.toByteArray 0 [] = _
  rw [toList_loop, ← String.utf8Encode_toList, List.utf8Encode, List.toList_data_toByteArray]
  rfl

theorem decode_toUTF8 (s : String) : decode s.toUTF8.toList = .ok s := by
  rw [toList_toUTF8, decode, decodeFrom_flatMap]
  show Except.ok (String.ofList s.toList) = _
  rw [String.ofList_toList]

end SchemaForge.Text.Utf8

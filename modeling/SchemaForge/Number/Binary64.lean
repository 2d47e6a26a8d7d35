/-
Binary floating-point numbers of 64 bits, kept as their bit pattern so that equality is decidable and every
operation below is exact arithmetic on integers. A finite number is ± m · 2^q.
-/

namespace SchemaForge

abbrev twoTo (n : Nat) : Nat := Nat.pow 2 n

abbrev tenTo (n : Nat) : Nat := Nat.pow 10 n

structure Binary64 where
  bits : UInt64
  deriving DecidableEq, Repr

namespace Binary64

def negative (x : Binary64) : Bool := twoTo 63 ≤ x.bits.toNat

def biasedExponent (x : Binary64) : Nat := x.bits.toNat / twoTo 52 % twoTo 11

def fraction (x : Binary64) : Nat := x.bits.toNat % twoTo 52

def isFinite (x : Binary64) : Bool := x.biasedExponent < 2047

def isNaN (x : Binary64) : Bool := x.biasedExponent == 2047 && x.fraction != 0

/-- The integer m of a finite number. -/
def significand (x : Binary64) : Nat :=
  if x.biasedExponent == 0 then x.fraction else twoTo 52 + x.fraction

/-- The power q of a finite number. -/
def exponent (x : Binary64) : Int :=
  if x.biasedExponent == 0 then -1074 else (x.biasedExponent : Int) - 1075

def isZero (x : Binary64) : Bool := x.biasedExponent == 0 && x.fraction == 0

def ofFields (neg : Bool) (biased fraction : Nat) : Binary64 :=
  ⟨UInt64.ofNat ((if neg then twoTo 63 else 0) + biased * twoTo 52 + fraction)⟩

def infinity (neg : Bool) : Binary64 := ofFields neg 2047 0

def nan : Binary64 := ofFields false 2047 (twoTo 51)

/-- `num / den` rounded to the nearest integer, a half to the even one. -/
def roundHalfEven (num den : Nat) : Nat :=
  let q := num / den
  let r := num % den
  if 2 * r < den then q else if den < 2 * r then q + 1 else if q % 2 == 0 then q else q + 1

/-- The number nearest to the positive fraction `num / den`, a tie going to the even significand. -/
def ofFraction (neg : Bool) (num den : Nat) : Binary64 :=
  if num == 0 then ofFields neg 0 0
  else
    let size : Int := (num.log2 : Int) - (den.log2 : Int)
    let below := if 0 ≤ size then num < den * twoTo size.toNat else num * twoTo (-size).toNat < den
    let power : Int := max ((if below then size - 1 else size) - 52) (-1074)
    let m := if 0 ≤ power then roundHalfEven num (den * twoTo power.toNat)
      else roundHalfEven (num * twoTo (-power).toNat) den
    let (m, power) := if m == twoTo 53 then (twoTo 52, power + 1) else (m, power)
    if m < twoTo 52 then ofFields neg 0 m
    else
      let biased := power + 1075
      if 2047 ≤ biased then infinity neg else ofFields neg biased.toNat (m - twoTo 52)

/-- The number nearest to `digits · 10^power`. Powers far outside the range are cut off first. -/
def ofDecimal (neg : Bool) (digits : Nat) (power : Int) : Binary64 :=
  if digits == 0 then ofFields neg 0 0
  else
    let magnitude := power + ((Nat.toDigits 10 digits).length : Int)
    if 310 < magnitude then infinity neg
    else if magnitude < -330 then ofFields neg 0 0
    else if 0 ≤ power then ofFraction neg (digits * tenTo power.toNat) 1
    else ofFraction neg digits (tenTo (-power).toNat)

/-- The integer part of a finite number. -/
def truncate? (x : Binary64) : Option Int :=
  if !x.isFinite then none
  else
    let m := if 0 ≤ x.exponent then x.significand * twoTo x.exponent.toNat
      else x.significand / twoTo (-x.exponent).toNat
    some (if x.negative then -(m : Int) else (m : Int))

/-- The number is finite and has no fractional part, and this is it. -/
def toInt? (x : Binary64) : Option Int :=
  if 0 ≤ x.exponent || x.significand % twoTo (-x.exponent).toNat == 0 then x.truncate? else none

/-- The two stand for the same: equal bits, or two zeros. -/
def same (x y : Binary64) : Bool := x.bits == y.bits || (x.isZero && y.isZero)

end Binary64

end SchemaForge

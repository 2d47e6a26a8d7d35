import SchemaForge.Number.Binary64

/-
The shortest decimal text of a binary number: the fewest digits that read back as the same number, and of
those the nearest to it. The number owns the interval of reals that round to it, ends included exactly when
its significand is even. On each decimal grid only the two neighbours of the number can be the answer.
-/

namespace SchemaForge

namespace Binary64

/-- A non-negative fraction. -/
structure Ratio where
  num : Nat
  den : Nat

def Ratio.le (a b : Ratio) : Bool := a.num * b.den ≤ b.num * a.den

def Ratio.lt (a b : Ratio) : Bool := a.num * b.den < b.num * a.den

/-- `m · 2^q / 4`, so that quarter steps of the last place are integers. -/
def quarters (m : Nat) (q : Int) : Ratio :=
  if 2 ≤ q then ⟨m * twoTo (q - 2).toNat, 1⟩ else ⟨m, twoTo (2 - q).toNat⟩

/-- What rounds to a positive finite number: lower end, the number, upper end, ends included. -/
structure Interval where
  low : Ratio
  mid : Ratio
  high : Ratio
  closed : Bool

def interval (x : Binary64) : Interval :=
  let m := x.significand
  let step := if x.fraction == 0 && 1 < x.biasedExponent then 1 else 2
  { low := quarters (4 * m - step) x.exponent
    mid := quarters (4 * m) x.exponent
    high := quarters (4 * m + 2) x.exponent
    closed := m % 2 == 0 }

def Interval.contains (i : Interval) (r : Ratio) : Bool :=
  if i.closed then i.low.le r && r.le i.high else i.low.lt r && r.lt i.high

/-- `d · 10^k` as a fraction. -/
def decimal (d : Nat) (k : Int) : Ratio :=
  if 0 ≤ k then ⟨d * tenTo k.toNat, 1⟩ else ⟨d, tenTo (-k).toNat⟩

def Ratio.distance (a b : Ratio) : Ratio :=
  ⟨max (a.num * b.den) (b.num * a.den) - min (a.num * b.den) (b.num * a.den), a.den * b.den⟩

/-- The grid point `d · 10^k` that is in the interval and nearest to the number; a tie takes the even `d`. -/
def Interval.onGrid? (i : Interval) (k : Int) : Option Nat :=
  let d := if 0 ≤ k then i.mid.num / (i.mid.den * tenTo k.toNat) else i.mid.num * tenTo (-k).toNat / i.mid.den
  let lower := decimal d k
  let upper := decimal (d + 1) k
  match d != 0 && i.contains lower, i.contains upper with
  | true, true =>
    let down := lower.distance i.mid
    let up := upper.distance i.mid
    if down.lt up then some d else if up.lt down then some (d + 1)
    else if d % 2 == 0 then some d else some (d + 1)
  | true, false => some d
  | false, true => some (d + 1)
  | false, false => none

/-- The least power of ten above the number, found from an upper guess. -/
def Interval.magnitude (i : Interval) : Nat → Int → Int
  | 0, k => k
  | fuel + 1, k => if (decimal 1 (k - 1)).le i.mid then k else i.magnitude fuel (k - 1)

/-- Digits and power of ten, trying the grids from the coarsest. -/
def Interval.search (i : Interval) (top : Int) : Nat → Nat → Nat × Int
  | 0, n => (0, top - n)
  | fuel + 1, n =>
    match i.onGrid? (top - n) with
    | some d => (d, top - n)
    | none => i.search top fuel (n + 1)

/-- An upper guess of the magnitude from the binary one: log10 2 < 0.30103. -/
def magnitudeGuess (x : Binary64) : Int :=
  let bits := x.exponent + (x.significand.log2 : Int) + 1
  if 0 ≤ bits then bits * 30103 / 100000 + 1 else bits * 30102 / 100000 + 1

def stripZeros : Nat → Nat → Int → Nat × Int
  | 0, d, k => (d, k)
  | fuel + 1, d, k => if d != 0 && d % 10 == 0 then stripZeros fuel (d / 10) (k + 1) else (d, k)

/-- The shortest digits of a positive finite number, with the power of ten of the last one. -/
def shortestDigits (x : Binary64) : Nat × Int :=
  let i := x.interval
  let (d, k) := i.search (i.magnitude 4 x.magnitudeGuess) 18 1
  stripZeros 18 d k

/-- Powers written positionally, and how the exponent is written otherwise. -/
structure TextFormat where
  leastPositional : Int
  mostPositional : Int
  exponentWidth : Nat
  infinityText : String
  nanText : String

def padLeft (width : Nat) (cs : List Char) : List Char :=
  List.replicate (width - cs.length) '0' ++ cs

def positional (digits : List Char) (point : Int) : List Char :=
  if point ≤ 0 then '0' :: '.' :: (List.replicate (-point).toNat '0' ++ digits)
  else if digits.length ≤ point.toNat then
    digits ++ List.replicate (point.toNat - digits.length) '0' ++ ['.', '0']
  else digits.take point.toNat ++ '.' :: digits.drop point.toNat

def scientific (f : TextFormat) (digits : List Char) (point : Int) : List Char :=
  let power := point - 1
  let tail := match digits with
    | [] => []
    | [d] => [d]
    | d :: rest => d :: '.' :: rest
  tail ++ 'e' :: (if power < 0 then '-' else '+') :: padLeft f.exponentWidth (Nat.toDigits 10 power.natAbs)

def format (f : TextFormat) (x : Binary64) : String :=
  if x.isNaN then f.nanText
  else
    let sign := if x.negative then "-" else ""
    if !x.isFinite then sign ++ f.infinityText
    else if x.isZero then sign ++ "0.0"
    else
      let (d, k) := x.shortestDigits
      let digits := Nat.toDigits 10 d
      let point := k + (digits.length : Int)
      sign ++ String.ofList (if f.leastPositional ≤ point && point ≤ f.mostPositional then positional digits point
        else scientific f digits point)

end Binary64

end SchemaForge

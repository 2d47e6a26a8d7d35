import SchemaForge.Proofs.Java.ClassPass
import SchemaForge.Proofs.Java.Construction

/-
The builder when a call throws, the exception is caught, and the building goes on.

A method of the builder is a list of statements, which is printed and run: `source_eq_methods` finds the methods in the
text of the class, and `perform_eq_invoke` says that running them is what `ClassDecl.invoke` says of a call. A statement
that throws ends its method, and what was stored before it stays stored.

So the order of the statements decides what a refused argument leaves behind. A step method looks at its argument first
and then stores it. The setter of the identity stores first and looks then: the id that it throws for is in the slot, in
place of the one before, and `build()` takes it from there.

Proved, for every class that is emitted and any calls on its builder: the object has the id that was passed last, accepted
or not, and a fresh one if that was null or none was passed. That is the last accepted id, or a fresh one if none was
accepted, exactly when the last call of the setter returned, or passed null and no call before it had returned, or when
there was none (`ids_of_emitted_class`).
-/

namespace SchemaForge.Java

open Generation Generation.Pass

variable {V : Type}

/-! ## The methods of the builder -/

/-- What a method does with its argument. -/
inductive Statement
  /-- Throws if it is null. -/
  | refuseNull
  | store (slot : String)
  /-- Throws unless it is an id that is accepted. -/
  | checkId

/-- A method that returns the builder when none of its statements throws. -/
structure Method where
  comment : String
  returns : String
  name : String
  type : String
  argument : String
  throwing : String
  body : List Statement

/-- How the setter of the identity looks at its argument. -/
def idCheck (argument : String) : String :=
  "\n" ++ "      try \x7b\n" ++ "        UUID.fromString(" ++ argument ++ "); // Throws when the id is not a UUID\n"
    ++ "      \x7d catch (Exception exception) \x7b\n" ++ "        throw new " ++ identityReport.exception ++ "("
    ++ stringLiteral identityReport.message ++ " + " ++ argument ++ ",\n" ++ "          exception,\n" ++ "          "
    ++ stringLiteral identityReport.suggestion ++ ",\n" ++ "          "
    ++ (if identityReport.fatal then "true" else "false") ++ ");\n" ++ "      \x7d\n" ++ "\n"

namespace Statement

def text (argument : String) : Statement → String
  | refuseNull => "      Objects.requireNonNull(" ++ argument ++ ");\n"
  | store slot => "      this." ++ slot ++ " = " ++ argument ++ ";\n"
  | checkId => idCheck argument

@[simp]
theorem text_refuseNull (argument : String) :
    refuseNull.text argument = "      Objects.requireNonNull(" ++ argument ++ ");\n" := rfl

@[simp]
theorem text_store (argument slot : String) :
    (store slot).text argument = "      this." ++ slot ++ " = " ++ argument ++ ";\n" := rfl

@[simp]
theorem text_checkId (argument : String) : checkId.text argument = idCheck argument := rfl

/-- The builder after a statement that does not throw. -/
def exec (accepts : V → Bool) (v : Option V) (b : Store V) : Statement → Option (Store V)
  | refuseNull => if v.isSome then some b else none
  | store slot => some (b.assign slot v)
  | checkId => if v.any accepts then some b else none

end Statement

namespace Method

def text (m : Method) : String :=
  "\n" ++ m.comment ++ "    @Override\n" ++ "    public " ++ m.returns ++ " " ++ m.name ++ "(" ++ m.type ++ " "
    ++ m.argument ++ ")" ++ m.throwing ++ " \x7b\n" ++ String.join (m.body.map (Statement.text m.argument))
    ++ "      return this;\n" ++ "    \x7d\n"

/-- The statements up to the first that throws, and whether none does. -/
def exec (accepts : V → Bool) (v : Option V) : List Statement → Store V → Store V × Bool
  | [], b => (b, true)
  | s :: rest, b =>
    match s.exec accepts v b with
    | some b' => exec accepts v rest b'
    | none => (b, false)

end Method

def StepDecl.toMethod (s : StepDecl) : Method :=
  { comment := ""
    returns := s.returns
    name := s.method
    type := s.type
    argument := s.argument
    throwing := ""
    body := [.refuseNull, .store s.slot] }

def SetterDecl.toMethod (terminal : String) (s : SetterDecl) : Method :=
  { comment := ""
    returns := terminal
    name := s.method
    type := s.type
    argument := s.argument
    throwing := ""
    body := [.store s.slot] }

namespace ClassDecl

def identityMethod (c : ClassDecl) : Method :=
  { comment := "    /**\n" ++ "     * WARNING: Do not set ID when creating a new object. "
      ++ "Leave this blank and one will be auto generated for you.\n"
      ++ "     * This should only be set when referring to an already existing object.\n" ++ "     * @param "
      ++ c.identity.names.member ++ " id\n"
      ++ "     * @return Current Builder instance, for fluent method chaining\n" ++ "     * @throws "
      ++ identityReport.exception ++ " Checks that ID is in the proper format\n" ++ "     */\n"
    returns := c.terminal
    name := c.identity.names.step
    type := c.identity.type
    argument := c.identity.names.member
    throwing := " throws " ++ identityReport.exception
    body := [.store c.identity.names.member, .checkId] }

/-- The methods of the builder in the order of the file. -/
def methods (c : ClassDecl) : List Method :=
  c.steps.map StepDecl.toMethod ++ (c.setters.map (SetterDecl.toMethod c.terminal) ++ [c.identityMethod])

/-- The builder after a call, and whether the call returned. -/
def perform (c : ClassDecl) (accepts : V → Bool) (b : Store V) (call : Passing V) : Store V × Bool :=
  match c.methods.find? (·.name == call.1) with
  | some m => Method.exec accepts call.2 m.body b
  | none => (b, false)

/-- The builder after calls of which each is made, whether the one before it has thrown or not. -/
def performAll (c : ClassDecl) (accepts : V → Bool) (b : Store V) (calls : List (Passing V)) : Store V :=
  calls.foldl (fun b call => (c.perform accepts b call).1) b

end ClassDecl

variable {m : Model} {c : ClassDecl} {accepts : V → Bool} {b : Store V}

/-! The literals are cut in other places here, so the texts are compared as lists of characters. -/

theorem StepDecl.body_eq_text (s : StepDecl) : s.body = s.toMethod.text := by
  unfold StepDecl.body StepDecl.toMethod Method.text
  rw [← String.toList_inj]
  simp

theorem SetterDecl.body_eq_text (terminal : String) (s : SetterDecl) : s.body terminal = (s.toMethod terminal).text := by
  unfold SetterDecl.body SetterDecl.toMethod Method.text
  rw [← String.toList_inj]
  simp

theorem identitySetter_eq_text : c.identitySetter = c.identityMethod.text ++ "  \x7d\n" := by
  have hthrows : ") throws " = ")" ++ " throws " := by decide
  unfold ClassDecl.identitySetter ClassDecl.identityMethod Method.text
  simp only [List.map_cons, List.map_nil, String.join_cons, String.join_nil, Statement.text_store,
    Statement.text_checkId, String.append_empty]
  unfold idCheck
  rw [hthrows]
  simp only [String.append_assoc]

/-- Where the methods stand in the file. -/
theorem source_eq_methods (c : ClassDecl) : ∃ before after,
    c.source = before ++ c.buildMethod ++ String.join (c.methods.map Method.text) ++ after := by
  have hsteps : c.steps.map StepDecl.body = c.steps.map (fun s => s.toMethod.text) :=
    List.map_congr_left (fun s _ => s.body_eq_text)
  have hsetters : c.setters.map (SetterDecl.body c.terminal) = c.setters.map (fun s => (s.toMethod c.terminal).text) :=
    List.map_congr_left (fun s _ => s.body_eq_text c.terminal)
  refine ⟨c.heading ++ String.join (c.members.map Member.queryDeclaration) ++
      String.join (c.members.map Member.declaration) ++ String.join (c.steps.map StepDecl.declaration) ++
      c.terminalInterface ++ String.join (c.slots.map SlotDecl.declaration),
    "  \x7d\n" ++ String.join (c.members.map Member.getterMethod) ++ c.constructor ++ c.equality ++ c.hashing, ?_⟩
  rw [ClassDecl.source, hsteps, hsetters, identitySetter_eq_text, ClassDecl.methods]
  simp only [List.map_append, List.map_map, Function.comp_def, List.map_cons, List.map_nil, String.join_append,
    String.join_cons, String.join_nil, String.append_empty, String.append_assoc]

/-! ## One call -/

theorem StepDecl.exec_body (s : StepDecl) (v : Option V) : Method.exec accepts v s.toMethod.body b =
    if v.isSome then (b.assign s.slot v, true) else (b, false) := by
  cases v <;> rfl

theorem SetterDecl.exec_body (terminal : String) (s : SetterDecl) (v : Option V) :
    Method.exec accepts v (s.toMethod terminal).body b = (b.assign s.slot v, true) := rfl

/-- The argument is stored whether it is accepted or not. -/
theorem exec_identityMethod (v : Option V) : Method.exec accepts v c.identityMethod.body b =
    (b.assign c.identity.names.member v, v.any accepts) := by
  unfold ClassDecl.identityMethod
  simp only [Method.exec, Statement.exec]
  cases v.any accepts <;> rfl

/-- With the check first the accepted id stays. -/
example :
    (Method.exec (· != "bad") (some "bad") [.checkId, .store "id"] (fun _ => some "u")).1 "id" = some "u" := by
  decide

theorem perform_eq_invoke (call : Passing V) : c.perform accepts b call = c.invoke accepts b call := by
  have hsteps : (c.steps.map StepDecl.toMethod).find? (·.name == call.1) =
      (c.steps.find? (·.method == call.1)).map StepDecl.toMethod := List.find?_map ..
  have hsetters : (c.setters.map (SetterDecl.toMethod c.terminal)).find? (·.name == call.1) =
      (c.setters.find? (·.method == call.1)).map (SetterDecl.toMethod c.terminal) := List.find?_map ..
  unfold ClassDecl.perform ClassDecl.invoke ClassDecl.methods
  rw [List.find?_append, List.find?_append, hsteps, hsetters]
  cases c.steps.find? (·.method == call.1) with
  | some s => exact s.exec_body call.2
  | none =>
    cases c.setters.find? (·.method == call.1) with
    | some s => exact s.exec_body c.terminal call.2
    | none =>
      by_cases hname : call.1 = c.identity.names.step
      · have hfind : [c.identityMethod].find? (·.name == call.1) = some c.identityMethod :=
          List.find?_cons_of_pos (beq_iff_eq.mpr hname.symm)
        simp only [Option.map_none, Option.none_or, hfind, if_pos hname]
        exact exec_identityMethod call.2
      · have hfind : [c.identityMethod].find? (·.name == call.1) = none :=
          List.find?_cons_of_neg (fun he => hname (beq_iff_eq.mp he).symm)
        simp only [Option.map_none, Option.none_or, hfind, if_neg hname]

/-- A call stores what it was given under its name, or nothing. -/
theorem perform_eq (h : Emission m c) (call : Passing V) :
    (c.perform accepts b call).1 = b ∨ (c.perform accepts b call).1 = b.assign call.1 call.2 := by
  rw [perform_eq_invoke]
  unfold ClassDecl.invoke
  split
  · rename_i s hs
    rw [slot_of_step h hs]
    split
    · exact Or.inr rfl
    · exact Or.inl rfl
  · split
    · rename_i s hs
      rw [slot_of_setter h hs]
      exact Or.inr rfl
    · split
      · rename_i hname
        rw [hname, h.stepName _ (identity_mem h), h.memberName _ (identity_mem h)]
        exact Or.inr rfl
      · exact Or.inl rfl

/-! ## The slot of the identity -/

theorem javaName_of_isIdentity {f : Field} (hid : f.isIdentity = true) : f.javaName = "id" := by
  rw [Field.javaName, isIdentity_iff.mp hid]
  decide +kernel

theorem getterName_of_isIdentity {f : Field} (hid : f.isIdentity = true) : f.getterName = "getId" := by
  rw [Field.getterName, isIdentity_iff.mp hid]
  decide +kernel

theorem perform_id (h : Emission m c) (v : Option V) :
    c.perform accepts b ("id", v) = (b.assign "id" v, v.any accepts) := by
  rw [perform_eq_invoke, ← javaName_of_isIdentity (isIdentity_identity h)]
  exact invoke_identity h v

/-- No other call touches it. -/
theorem id_of_perform (h : Emission m c) (call : Passing V) :
    (c.perform accepts b call).1 "id" = if call.1 = "id" then call.2 else b "id" := by
  obtain ⟨n, v⟩ := call
  by_cases hn : n = "id"
  · subst hn
    rw [perform_id h]
    rfl
  · rw [if_neg hn]
    rcases perform_eq h (n, v) with hb | hb
    · rw [hb]
    · rw [hb]
      exact if_neg (Ne.symm hn)

/-- It holds what its setter was given last, whichever calls have thrown. -/
theorem id_of_performAll (h : Emission m c) (calls : List (Passing V)) (b : Store V) :
    c.performAll accepts b calls "id" = lastPassed "id" (b "id") calls := by
  induction calls generalizing b with
  | nil => rfl
  | cons call calls ih =>
    unfold ClassDecl.performAll lastPassed
    rw [List.foldl_cons, List.foldl_cons, ← id_of_perform h call]
    exact ih _

/-- The ids that were passed, call by call. -/
def idsPassed (calls : List (Passing V)) : List (Option V) := (calls.filter (·.1 == "id")).map (·.2)

theorem lastPassed_id (calls : List (Passing V)) : lastPassed "id" none calls = (idsPassed calls).getLast?.join := by
  induction calls using List.reverseRecOn with
  | nil => rfl
  | append_singleton calls call ih =>
    rw [lastPassed_append, idsPassed, List.filter_append, List.map_append]
    by_cases hname : call.1 = "id"
    · simp [lastPassed, hname]
    · rw [ih]
      simp [lastPassed, idsPassed, hname]

/-! ## The last id that was accepted -/

def lastAccepted (accepts : V → Bool) (ids : List (Option V)) : Option V := (ids.filter (·.any accepts)).getLast?.join

/-- The id that was passed last was accepted. If it was null, none was accepted before. -/
def EndsAccepted (accepts : V → Bool) (ids : List (Option V)) : Prop :=
  (∀ v, ids.getLast? = some (some v) → accepts v = true) ∧
    (ids.getLast? = some none → ∀ v, some v ∈ ids → accepts v = false)

section LastAccepted

variable {ids : List (Option V)} {fresh v : V}

theorem lastAccepted_concat (id : Option V) :
    lastAccepted accepts (ids ++ [id]) = if id.any accepts then id else lastAccepted accepts ids := by
  rw [lastAccepted, List.filter_append]
  by_cases hid : id.any accepts = true
  · simp [hid]
  · simp [hid, lastAccepted]

theorem mem_of_lastAccepted (hv : lastAccepted accepts ids = some v) : some v ∈ ids ∧ accepts v = true :=
  List.mem_filter.mp (List.mem_of_getLast? (Option.join_eq_some_iff.mp hv))

theorem lastAccepted_eq_none_iff : lastAccepted accepts ids = none ↔ ∀ v, some v ∈ ids → accepts v = false := by
  induction ids using List.reverseRecOn with
  | nil => simp [lastAccepted]
  | append_singleton ids id ih =>
    rw [lastAccepted_concat]
    cases id with
    | none => simp [ih]
    | some w => cases hw : accepts w <;> simp [hw, ih, or_imp, forall_and]

/-- What should be built is always an accepted id. -/
theorem accepts_getD_lastAccepted (hfresh : accepts fresh = true) :
    accepts ((lastAccepted accepts ids).getD fresh) = true := by
  cases hlast : lastAccepted accepts ids with
  | none => exact hfresh
  | some v => exact (mem_of_lastAccepted hlast).2

theorem lastAccepted_of_getLast? (hlast : ids.getLast? = some (some v)) (hv : accepts v = true) :
    lastAccepted accepts ids = some v := by
  obtain ⟨earlier, rfl⟩ := List.getLast?_eq_some_iff.mp hlast
  rw [lastAccepted_concat, Option.any_some, if_pos hv]

/-- A fresh id should be built only if none was accepted. -/
theorem getD_lastAccepted_eq_iff (hnew : some fresh ∉ ids) :
    fresh = (lastAccepted accepts ids).getD fresh ↔ ∀ v, some v ∈ ids → accepts v = false := by
  rw [← lastAccepted_eq_none_iff]
  cases hlast : lastAccepted accepts ids with
  | none => simp
  | some v =>
    have hne : fresh ≠ v := by
      rintro rfl
      exact hnew (mem_of_lastAccepted hlast).1
    simp [hne]

theorem getD_getLast?_eq_lastAccepted_iff (hfresh : accepts fresh = true) (hnew : some fresh ∉ ids) :
    ids.getLast?.join.getD fresh = (lastAccepted accepts ids).getD fresh ↔ EndsAccepted accepts ids := by
  unfold EndsAccepted
  cases hlast : ids.getLast? with
  | none =>
    obtain rfl := List.getLast?_eq_none_iff.mp hlast
    simp [lastAccepted]
  | some id =>
    cases id with
    | none =>
      show fresh = (lastAccepted accepts ids).getD fresh ↔ _
      rw [getD_lastAccepted_eq_iff hnew]
      simp
    | some v =>
      show v = (lastAccepted accepts ids).getD fresh ↔ _
      refine ⟨fun hv => ⟨fun w hw => ?_, fun hnull => by cases hnull⟩, fun hkept => ?_⟩
      · cases hw
        rw [hv]
        exact accepts_getD_lastAccepted hfresh
      · rw [lastAccepted_of_getLast? hlast (hkept.1 v rfl)]
        rfl

theorem getD_getLast?_eq_rejected_iff (hfresh : accepts fresh = true) (hv : accepts v = false) :
    ids.getLast?.join.getD fresh = v ↔ ids.getLast? = some (some v) := by
  have hne : fresh ≠ v := by
    rintro rfl
    rw [hfresh] at hv
    cases hv
  rcases ids.getLast? with _ | _ | w <;> simp [hne]

end LastAccepted

/-! ## What comes out -/

theorem getId_of_build (h : Emission m c) (fresh : V) (b : Store V) :
    c.get (c.build fresh b) "getId" = some (some ((b "id").getD fresh)) := by
  have hid := isIdentity_identity h
  have hmem := identity_mem h
  have hname := javaName_of_isIdentity hid
  have hparameter : "id" ∈ c.parameterNames := List.mem_map.mpr ⟨c.identity, hmem, (h.memberName _ hmem).trans hname⟩
  have hget := get_eq h (o := c.build fresh b) hmem
  rw [getterName_of_isIdentity hid, hname] at hget
  rw [hget, build_eq h hparameter, ClassDecl.argument, h.memberName _ hmem, hname, if_pos rfl]

/-- Of whatever model is emitted, the object gets the id that the setter was called with last, whether the call returned or
    threw. So it gets the last accepted id, or a fresh one if there is none, exactly when the last call was with an id that
    is accepted, or with null and after no accepted id, or when there was no call; and it gets a rejected id exactly when
    the last call was with that one. -/
theorem ids_of_emitted_class {s : Settings} {mapper : TypeMapper} {m : Model} {σ τ : Session} {out : String × Imports}
    (h : Yields (classText s mapper m) σ out τ) :
    ∃ c before after, Yields (ClassDecl.ofModel (commented s) mapper m) σ c τ ∧
      out.1 = before ++ c.buildMethod ++ String.join (c.methods.map Method.text) ++ after ∧
      ∀ (V : Type) (accepts : V → Bool),
        (∀ (b : Store V) (v : Option V), c.perform accepts b ("id", v) = (b.assign "id" v, v.any accepts)) ∧
        ∀ (fresh : V) (calls : List (Passing V)),
          let object := c.build fresh (c.performAll accepts (fun _ => none) calls)
          let ids := idsPassed calls
          c.get object "getId" = some (some (ids.getLast?.join.getD fresh)) ∧
            (accepts fresh = true → some fresh ∉ ids →
              (c.get object "getId" = some (some ((lastAccepted accepts ids).getD fresh)) ↔ EndsAccepted accepts ids) ∧
              ∀ v, accepts v = false → (c.get object "getId" = some (some v) ↔ ids.getLast? = some (some v))) := by
  obtain ⟨c, hc, rfl⟩ := yields_classText.mp h
  have he := emission_of_yields hc
  obtain ⟨before, after, hsource⟩ := source_eq_methods c
  refine ⟨c, before, after, hc, hsource, fun V accepts => ⟨fun b => perform_id he, fun fresh calls => ?_⟩⟩
  have hget : c.get (c.build fresh (c.performAll accepts (fun _ => none) calls)) "getId" =
      some (some ((idsPassed calls).getLast?.join.getD fresh)) := by
    rw [getId_of_build he, id_of_performAll he, lastPassed_id]
  refine ⟨hget, fun hfresh hnew => ⟨?_, fun v hv => ?_⟩⟩
  · rw [hget, Option.some_inj, Option.some_inj]
    exact getD_getLast?_eq_lastAccepted_iff hfresh hnew
  · rw [hget, Option.some_inj, Option.some_inj]
    exact getD_getLast?_eq_rejected_iff hfresh hv

/-- The setter throws for the second id and the object has it all the same, in place of the first. -/
theorem rejected_id_of_task :
    ∃ out τ c b, Yields (classText {} taskMapper task) {} out τ ∧
      Yields (ClassDecl.ofModel (commented {}) taskMapper task) {} c τ ∧
      b = c.performAll (· != "bad") (fun _ => none)
        [("title", some "t"), ("owner", some "o"), ("id", some "u"), ("id", some "bad")] ∧
      (c.perform (· != "bad") b ("id", some "bad")).2 = false ∧
      lastAccepted (· != "bad") [some "u", some "bad"] = some "u" ∧
      c.get (c.build "fresh" b) "getId" ≠ some (some "u") ∧ c.get (c.build "fresh" b) "getId" = some (some "bad") := by
  obtain ⟨out, τ, h⟩ := exists_yields_of_succeeds
    (show succeeds (classText {} taskMapper task) {} = true by decide +kernel)
  obtain ⟨c, -, -, hc, -, hrun⟩ := ids_of_emitted_class h
  obtain ⟨hset, hids⟩ := hrun String (· != "bad")
  obtain ⟨hget, hiff⟩ := hids "fresh" [("title", some "t"), ("owner", some "o"), ("id", some "u"), ("id", some "bad")]
  obtain ⟨hkept, hrejected⟩ := hiff (by decide) (by decide)
  have hlast : lastAccepted (· != "bad") [some "u", some "bad"] = some "u" := by decide
  refine ⟨out, τ, c, _, h, hc, rfl, ?_, hlast, fun hu => ?_, (hrejected "bad" (by decide)).mpr (by decide)⟩
  · rw [hset]
    exact bne_self_eq_false "bad"
  · exact absurd ((hkept.mp hu).1 "bad" (by decide)) (by decide)

end SchemaForge.Java

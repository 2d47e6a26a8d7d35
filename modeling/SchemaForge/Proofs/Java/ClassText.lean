import SchemaForge.Java.Backend
import SchemaForge.Proofs.Template.Renders

/-
The text of a class. `ClassDecl.source` writes a declaration out part by part, in the order in which it stands in the
file; `render_classTemplate`: the class template gives this text for every declaration, so rendering a class never
fails.
-/

namespace SchemaForge.Java

open Template ClassDecl

/-! ## The parts -/

def Member.queryDeclaration (x : Member) : String :=
  "  public static final QueryField " ++ x.names.query ++ " = field(" ++ literal x.field.name ++ ");\n"

def Member.declaration (x : Member) : String :=
  "  private final " ++ String.join (x.annotations.map (fun a => "@" ++ a ++ " ")) ++ x.type ++ " " ++ x.names.member
    ++ ";\n"

def Member.parameter (x : Member) : String := x.type ++ " " ++ x.names.member

def Member.assignment (x : Member) : String := "    this." ++ x.names.member ++ " = " ++ x.names.member ++ ";\n"

def Member.getterMethod (x : Member) : String :=
  "\n  public " ++ x.type ++ " " ++ x.names.getter ++ "() \x7b\n    return " ++ x.names.member ++ ";\n  \x7d\n"

def StepDecl.declaration (s : StepDecl) : String :=
  "\n  public interface " ++ s.interface ++ " \x7b\n    " ++ s.returns ++ " " ++ s.method ++ "(" ++ s.type ++ " "
    ++ s.argument ++ ");\n  \x7d\n"

def StepDecl.body (s : StepDecl) : String :=
  "\n    @Override\n    public " ++ s.returns ++ " " ++ s.method ++ "(" ++ s.type ++ " " ++ s.argument
    ++ ") \x7b\n      Objects.requireNonNull(" ++ s.argument ++ ");\n      this." ++ s.slot ++ " = " ++ s.argument
    ++ ";\n      return this;\n    \x7d\n"

def SetterDecl.declaration (terminal : String) (s : SetterDecl) : String :=
  "    " ++ terminal ++ " " ++ s.method ++ "(" ++ s.type ++ " " ++ s.argument ++ ");\n"

def SetterDecl.body (terminal : String) (s : SetterDecl) : String :=
  "\n    @Override\n    public " ++ terminal ++ " " ++ s.method ++ "(" ++ s.type ++ " " ++ s.argument
    ++ ") \x7b\n      this." ++ s.slot ++ " = " ++ s.argument ++ ";\n      return this;\n    \x7d\n"

def SlotDecl.declaration (s : SlotDecl) : String := "    private " ++ s.type ++ " " ++ s.name ++ ";\n"

namespace ClassDecl

/-- What `build()` hands to the constructor, by position. -/
def newArguments (c : ClassDecl) : List String := c.slots.map (·.name)

def parameterNames (c : ClassDecl) : List String := c.members.map (·.names.member)

/-- The getters that `equals` compares. -/
def comparedGetters (c : ClassDecl) : List String := c.members.map (·.names.getter)

/-- The getters whose results the hash is made of. -/
def hashedGetters (c : ClassDecl) : List String := c.members.map (·.names.getter)

def heading (c : ClassDecl) : String :=
  (if (textOrNull c.description).truthy then "/** " ++ (textOrNull c.description).display ++ " */\n" else "")
    ++ String.join (c.annotations.map (fun a => "@" ++ a ++ "\n"))
    ++ "public final class " ++ c.name ++ " implements Model \x7b\n"

def terminalInterface (c : ClassDecl) : String :=
  "\n  public interface " ++ c.terminal ++ " \x7b\n    " ++ c.name ++ " build();\n    " ++ c.terminal ++ " "
    ++ c.identity.names.step ++ "(" ++ c.identity.type ++ " " ++ c.identity.names.member ++ ") throws "
    ++ identityReport.exception ++ ";\n" ++ String.join (c.setters.map (SetterDecl.declaration c.terminal))
    ++ "  \x7d\n\n  public static class Builder implements " ++ String.intercalate ", " c.interfaces ++ " \x7b\n"

def buildMethod (c : ClassDecl) : String :=
  "\n    public static " ++ c.entry
    ++ " builder() \x7b\n      return new Builder();\n    \x7d\n\n    @Override\n    public " ++ c.name
    ++ " build() \x7b\n      " ++ c.identity.type ++ " " ++ c.identity.names.member ++ " = this."
    ++ c.identity.names.member ++ " != null ? this." ++ c.identity.names.member
    ++ " : UUID.randomUUID().toString();\n\n      return new " ++ c.name ++ "(\n"
    ++ lines (fun name last => "        " ++ name ++ (if last then "" else ",") ++ "\n") c.newArguments
    ++ "      );\n    \x7d\n"

def identitySetter (c : ClassDecl) : String :=
  "\n" ++ "    /**\n" ++ "     * WARNING: Do not set ID when creating a new object. "
    ++ "Leave this blank and one will be auto generated for you.\n"
    ++ "     * This should only be set when referring to an already existing object.\n" ++ "     * @param "
    ++ c.identity.names.member ++ " id\n"
    ++ "     * @return Current Builder instance, for fluent method chaining\n" ++ "     * @throws "
    ++ identityReport.exception ++ " Checks that ID is in the proper format\n" ++ "     */\n" ++ "    @Override\n"
    ++ "    public " ++ c.terminal ++ " " ++ c.identity.names.step ++ "(" ++ c.identity.type ++ " "
    ++ c.identity.names.member ++ ") throws " ++ identityReport.exception ++ " \x7b\n" ++ "      this."
    ++ c.identity.names.member ++ " = " ++ c.identity.names.member ++ ";\n" ++ "\n" ++ "      try \x7b\n"
    ++ "        UUID.fromString(" ++ c.identity.names.member ++ "); // Throws when the id is not a UUID\n"
    ++ "      \x7d catch (Exception exception) \x7b\n" ++ "        throw new " ++ identityReport.exception ++ "("
    ++ stringLiteral identityReport.message ++ " + " ++ c.identity.names.member ++ ",\n" ++ "          exception,\n"
    ++ "          " ++ stringLiteral identityReport.suggestion ++ ",\n" ++ "          "
    ++ (if identityReport.fatal then "true" else "false") ++ ");\n" ++ "      \x7d\n" ++ "\n" ++ "      return this;\n"
    ++ "    \x7d\n" ++ "  \x7d\n"

def constructor (c : ClassDecl) : String :=
  "\n  private " ++ c.name ++ "(" ++ lines (fun x last => x.parameter ++ (if last then "" else ", ")) c.members
    ++ ") \x7b\n" ++ String.join (c.members.map Member.assignment)

def equality (c : ClassDecl) : String :=
  "  \x7d\n" ++ "\n" ++ "  @Override\n" ++ "  public boolean equals(Object obj) \x7b\n" ++ "    if (this == obj) \x7b\n"
    ++ "      return true;\n" ++ "    \x7d else if (obj == null || getClass() != obj.getClass()) \x7b\n"
    ++ "      return false;\n" ++ "    \x7d else \x7b\n" ++ "      " ++ c.name ++ " " ++ c.instanceName ++ " = ("
    ++ c.name ++ ") obj;\n" ++ "      return "
    ++ lines (fun getter last => "ObjectsCompat.equals(" ++ getter ++ "(), " ++ c.instanceName ++ "." ++ getter
      ++ "())" ++ (if last then "" else " &&\n              ")) c.comparedGetters

def hashing (c : ClassDecl) : String :=
  ";\n    \x7d\n  \x7d\n\n  @Override\n  public int hashCode() \x7b\n    return new StringBuilder()\n"
    ++ String.join (c.hashedGetters.map (fun getter => "      .append(" ++ getter ++ "())\n"))
    ++ "      .toString()\n      .hashCode();\n  \x7d\n\x7d"

def source (c : ClassDecl) : String :=
  c.heading ++ String.join (c.members.map Member.queryDeclaration) ++ String.join (c.members.map Member.declaration)
    ++ String.join (c.steps.map StepDecl.declaration) ++ c.terminalInterface
    ++ String.join (c.slots.map SlotDecl.declaration) ++ c.buildMethod ++ String.join (c.steps.map StepDecl.body)
    ++ String.join (c.setters.map (SetterDecl.body c.terminal)) ++ c.identitySetter
    ++ String.join (c.members.map Member.getterMethod) ++ c.constructor ++ c.equality ++ c.hashing

end ClassDecl

/-! ## Each part of the template -/

variable {c : ClassDecl}

theorem render_heading : renderAll { bound := c.context } ClassTemplate.heading = .ok c.heading := by
  have described : renderAll { bound := c.context } (if (textOrNull c.description).truthy then
      [.text "/** ", .out (.var "description"), .text " */\n"] else []) =
        .ok (if (textOrNull c.description).truthy then "/** " ++ (textOrNull c.description).display ++ " */\n"
          else "") := by
    split <;> simp [context, Except.bind, Except.map, String.append_assoc]
  unfold ClassTemplate.heading ClassDecl.heading
  rw [renderAll_branch (by simp [context]) described,
    renderAll_each Json.str (fun a _ => "@" ++ a ++ "\n") c.annotations]
  · simp [context, lines_eq_join, Except.bind, Except.map, String.append_assoc]
  · simp [context, texts]
  · intro a _ last
    simp [Except.bind, Except.map, String.append_assoc]

theorem render_queryFields :
    renderAll { bound := c.context } ClassTemplate.queryFields =
      .ok (String.join (c.members.map Member.queryDeclaration)) := by
  unfold ClassTemplate.queryFields
  rw [renderAll_each memberContext (fun x _ => x.queryDeclaration) c.members]
  · simp [lines_eq_join, Except.map]
  · simp [context]
  · intro x _ last
    unfold Member.queryDeclaration
    simp [part, memberContext, Except.bind, Except.map, String.append_assoc]

theorem render_fields :
    renderAll { bound := c.context } ClassTemplate.fields = .ok (String.join (c.members.map Member.declaration)) := by
  unfold ClassTemplate.fields
  rw [renderAll_each memberContext (fun x _ => x.declaration) c.members]
  · simp [lines_eq_join, Except.map]
  · simp [context]
  · intro x _ last
    unfold Member.declaration
    rw [renderAll_text, renderAll_each Json.str (fun a _ => "@" ++ a ++ " ") x.annotations]
    · simp [part, memberContext, lines_eq_join, Except.bind, Except.map, String.append_assoc]
    · simp [part, memberContext, texts]
    · intro a _ last
      simp [Except.bind, Except.map, String.append_assoc]

theorem render_stepInterfaces :
    renderAll { bound := c.context } ClassTemplate.stepInterfaces =
      .ok (String.join (c.steps.map StepDecl.declaration)) := by
  unfold ClassTemplate.stepInterfaces
  rw [renderAll_each stepContext (fun d _ => d.declaration) c.steps]
  · simp [lines_eq_join, Except.map]
  · simp [context]
  · intro d _ last
    unfold StepDecl.declaration
    simp [part, stepContext, Except.bind, Except.map, String.append_assoc]

theorem render_terminalInterface :
    renderAll { bound := c.context } ClassTemplate.terminalInterface = .ok c.terminalInterface := by
  unfold ClassTemplate.terminalInterface ClassDecl.terminalInterface
  simp only [renderAll_text, renderAll_out]
  rw [renderAll_each setterContext (fun d _ => d.declaration c.terminal) c.setters,
    renderAll_text, renderAll_joined (c.interfaces.map Json.str)]
  · simp [part, context, identityContext, lines_eq_join, Function.comp_def, Except.bind, Except.map,
      String.append_assoc]
  · simp [part, context, texts]
  · simp [part, context]
  · intro d _ last
    unfold SetterDecl.declaration
    simp [part, context, setterContext, Except.bind, Except.map, String.append_assoc]

theorem render_slots :
    renderAll { bound := c.context } ClassTemplate.slots = .ok (String.join (c.slots.map SlotDecl.declaration)) := by
  unfold ClassTemplate.slots
  rw [renderAll_each slotContext (fun d _ => d.declaration) c.slots]
  · simp [lines_eq_join, Except.map]
  · simp [part, context]
  · intro d _ last
    unfold SlotDecl.declaration
    simp [part, slotContext, Except.bind, Except.map, String.append_assoc]

theorem render_buildMethod :
    renderAll { bound := c.context } ClassTemplate.buildMethod = .ok c.buildMethod := by
  unfold ClassTemplate.buildMethod ClassDecl.buildMethod
  simp only [renderAll_text, renderAll_out]
  rw [renderAll_each slotContext (fun d last => "        " ++ d.name ++ (if last then "" else ",") ++ "\n") c.slots]
  · simp [part, context, identityContext, newArguments, lines_map, Except.bind, Except.map, String.append_assoc]
  · simp [part, context]
  · intro d _ last
    simp [part, slotContext, Except.bind, Except.map, String.append_assoc]

theorem render_stepMethods :
    renderAll { bound := c.context } ClassTemplate.stepMethods = .ok (String.join (c.steps.map StepDecl.body)) := by
  unfold ClassTemplate.stepMethods
  rw [renderAll_each stepContext (fun d _ => d.body) c.steps]
  · simp [lines_eq_join, Except.map]
  · simp [context]
  · intro d _ last
    unfold StepDecl.body
    simp [part, stepContext, Except.bind, Except.map, String.append_assoc]

theorem render_setterMethods :
    renderAll { bound := c.context } ClassTemplate.setterMethods =
      .ok (String.join (c.setters.map (SetterDecl.body c.terminal))) := by
  unfold ClassTemplate.setterMethods
  rw [renderAll_each setterContext (fun d _ => d.body c.terminal) c.setters]
  · simp [lines_eq_join, Except.map]
  · simp [part, context]
  · intro d _ last
    unfold SetterDecl.body
    simp [part, context, setterContext, Except.bind, Except.map, String.append_assoc]

theorem render_identitySetter :
    renderAll { bound := c.context } ClassTemplate.identitySetter = .ok c.identitySetter := by
  unfold ClassTemplate.identitySetter ClassDecl.identitySetter
  simp [-String.reduceAppend, part, context, identityContext, Except.bind, Except.map, String.append_assoc]

theorem render_getters :
    renderAll { bound := c.context } ClassTemplate.getters = .ok (String.join (c.members.map Member.getterMethod)) := by
  unfold ClassTemplate.getters
  rw [renderAll_each memberContext (fun x _ => x.getterMethod) c.members]
  · simp [lines_eq_join, Except.map]
  · simp [context]
  · intro x _ last
    unfold Member.getterMethod
    simp [part, memberContext, Except.bind, Except.map, String.append_assoc]

theorem render_constructor :
    renderAll { bound := c.context } ClassTemplate.constructor = .ok c.constructor := by
  unfold ClassTemplate.constructor ClassDecl.constructor
  simp only [renderAll_text, renderAll_out]
  rw [renderAll_each memberContext (fun x last => x.parameter ++ (if last then "" else ", ")) c.members, renderAll_text,
    renderAll_each memberContext (fun x _ => x.assignment) c.members]
  · simp [context, lines_eq_join, Except.bind, Except.map, String.append_assoc]
  · simp [context]
  · intro x _ last
    unfold Member.assignment
    simp [part, memberContext, Except.bind, Except.map, String.append_assoc]
  · simp [context]
  · intro x _ last
    unfold Member.parameter
    simp [part, memberContext, Except.bind, Except.map, String.append_assoc]

theorem render_equality :
    renderAll { bound := c.context } ClassTemplate.equality = .ok c.equality := by
  unfold ClassTemplate.equality ClassDecl.equality
  simp only [renderAll_text, renderAll_out]
  rw [renderAll_each memberContext (fun x last => "ObjectsCompat.equals(" ++ x.names.getter ++ "(), " ++ c.instanceName
    ++ "." ++ x.names.getter ++ "())" ++ (if last then "" else " &&\n              ")) c.members]
  · simp [-String.reduceAppend, context, comparedGetters, lines_map, Except.bind, Except.map, String.append_assoc]
  · simp [context]
  · intro x _ last
    simp [part, context, memberContext, Except.bind, Except.map, String.append_assoc]

theorem render_hashing :
    renderAll { bound := c.context } ClassTemplate.hashing = .ok c.hashing := by
  unfold ClassTemplate.hashing ClassDecl.hashing
  rw [renderAll_text, renderAll_each memberContext (fun x _ => "      .append(" ++ x.names.getter ++ "())\n") c.members]
  · simp [hashedGetters, lines_eq_join, Function.comp_def, Except.map, String.append_assoc]
  · simp [context]
  · intro x _ last
    simp [part, memberContext, Except.bind, Except.map, String.append_assoc]

/-- Rendering never fails, and this is the text. -/
theorem render_classTemplate : classTemplate.render c.context = .ok c.source := by
  have unreserved : Entries.has "self" c.context = false := by
    simp [context, Entries.has]
  unfold Template.render
  rw [unreserved]
  show renderAll { bound := c.context } classTemplate.body = _
  unfold classTemplate ClassDecl.source
  simp only [List.append_assoc]
  rw [renderAll_append render_heading, renderAll_append render_queryFields, renderAll_append render_fields,
    renderAll_append render_stepInterfaces, renderAll_append render_terminalInterface, renderAll_append render_slots,
    renderAll_append render_buildMethod, renderAll_append render_stepMethods, renderAll_append render_setterMethods,
    renderAll_append render_identitySetter, renderAll_append render_getters, renderAll_append render_constructor,
    renderAll_append render_equality, render_hashing]
  simp only [Except.map, String.append_assoc]

end SchemaForge.Java

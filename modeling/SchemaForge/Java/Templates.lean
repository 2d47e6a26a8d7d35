import SchemaForge.Template.Basic

/-
The templates of generated Java files. What they write is Java source, so the braces and indentation in them
are part of the output.
-/

namespace SchemaForge.Java

/-- A member of a variable. -/
def part (variableName memberName : String) : Template.Expr := .member (.var variableName) memberName

/-- The head of a file: the package and its imports, an empty name standing for an empty line. -/
def packageTemplate : Template where
  name := "package.java.j2"
  body := [
    .text "package ",
    .out (.var "package_name"),
    .text ";\n",
    .branch (.var "imports") [
      .text "\n",
      .each "package" (.var "imports") [
        .branch (.var "package") [
          .text "import ",
          .out (.var "package"),
          .text ";\n"] [
          .text "\n"]]] []]

/-- An enum with one value to a line. -/
def enumTemplate : Template where
  name := "enum.java.j2"
  body := [
    .branch (.var "description") [
      .text "/** ",
      .out (.var "description"),
      .text " */\n"] [],
    .text ("@SuppressWarnings(\"all\")\n"
      ++ "public enum "),
    .out (.var "enum_name"),
    .text " \x7b\n",
    .each "value" (.var "values") [
      .text "  ",
      .out (.var "value"),
      .unlessLast ",",
      .text "\n"],
    .text "\x7d"]

/-- The model provider: a singleton that lists every model class and the version of the models. -/
def providerTemplate : Template where
  name := "loader.java.j2"
  body := [
    .branch (.var "add_comments") [
      .text ("/**\n"
        ++ " * Contains the set of model classes that implement \x7b@link Model\x7d\n"
        ++ " * interface.\n"
        ++ " */\n")] [],
    .text "public final class ",
    .out (.var "loader_class_name"),
    .text (" implements ModelProvider \x7b\n"
      ++ "  private static final String "),
    .out (.var "version_constant"),
    .text " = ",
    .out (.var "version_literal"),
    .text (";\n"
      ++ "  private static "),
    .out (.var "loader_class_name"),
    .text (" amplifyGeneratedModelInstance;\n"
      ++ "\n"
      ++ "  private "),
    .out (.var "loader_class_name"),
    .text ("() \x7b\n"
      ++ "\n"
      ++ "  \x7d\n"
      ++ "\n"
      ++ "  public static synchronized "),
    .out (.var "loader_class_name"),
    .text (" getInstance() \x7b\n"
      ++ "    if (amplifyGeneratedModelInstance == null) \x7b\n"
      ++ "      amplifyGeneratedModelInstance = new "),
    .out (.var "loader_class_name"),
    .text ("();\n"
      ++ "    \x7d\n"
      ++ "    return amplifyGeneratedModelInstance;\n"
      ++ "  \x7d\n"
      ++ "\n"
      ++ "  /**\n"
      ++ "   * Get a set of the model classes.\n"
      ++ "   *\n"
      ++ "   * @return a set of the model classes.\n"
      ++ "   */\n"
      ++ "  @Override\n"
      ++ "  public Set<Class<? extends Model>> models() \x7b\n"
      ++ "    final Set<Class<? extends Model>> modifiableSet = new HashSet<>(\n"
      ++ "      Arrays.<Class<? extends Model>>asList("),
    .joined (.var "model_classes") ", ",
    .text (")\n"
      ++ "    );\n"
      ++ "\n"
      ++ "    return Immutable.of(modifiableSet);\n"
      ++ "  \x7d\n"
      ++ "\n"
      ++ "  /**\n"
      ++ "   * Get the version of the models.\n"
      ++ "   *\n"
      ++ "   * @return the version string of the models.\n"
      ++ "   */\n"
      ++ "  @Override\n"
      ++ "  public String version() \x7b\n"
      ++ "    return "),
    .out (.var "version_constant"),
    .text (";\n"
      ++ "  \x7d\n"
      ++ "\x7d")]

/-! The class template, part by part in the order of the file. -/

namespace ClassTemplate

def heading : List Template.Node := [
  .branch (.var "description") [
    .text "/** ",
    .out (.var "description"),
    .text " */\n"] [],
  .each "annotation" (.var "annotations") [
    .text "@",
    .out (.var "annotation"),
    .text "\n"],
  .text "public final class ",
  .out (.var "class_name"),
  .text " implements Model \x7b\n"]

def queryFields : List Template.Node := [
  .each "field" (.var "fields") [
    .text "  public static final QueryField ",
    .out (part "field" "query_field_name"),
    .text " = field(",
    .out (part "field" "target_literal"),
    .text ");\n"]]

def fields : List Template.Node := [
  .each "field" (.var "fields") [
    .text "  private final ",
    .each "annotation" (part "field" "annotations") [
      .text "@",
      .out (.var "annotation"),
      .text " "],
    .out (part "field" "type"),
    .text " ",
    .out (part "field" "member_name"),
    .text ";\n"]]

def stepInterfaces : List Template.Node := [
  .each "step" (.var "steps") [
    .text ("\n"
      ++ "  public interface "),
    .out (part "step" "interface_name"),
    .text (" \x7b\n"
      ++ "    "),
    .out (part "step" "return_type"),
    .text " ",
    .out (part "step" "method_name"),
    .text "(",
    .out (part "step" "argument_type"),
    .text " ",
    .out (part "step" "argument_name"),
    .text (");\n"
      ++ "  \x7d\n")]]

def terminalInterface : List Template.Node := [
  .text ("\n"
    ++ "  public interface "),
  .out (part "build_step" "interface_name"),
  .text (" \x7b\n"
    ++ "    "),
  .out (.var "class_name"),
  .text (" build();\n"
    ++ "    "),
  .out (part "build_step" "interface_name"),
  .text " ",
  .out (part "identity" "method_name"),
  .text "(",
  .out (part "identity" "type"),
  .text " ",
  .out (part "identity" "argument_name"),
  .text ") throws ",
  .out (part "identity" "exception_type"),
  .text ";\n",
  .each "setter" (part "build_step" "setters") [
    .text "    ",
    .out (part "build_step" "interface_name"),
    .text " ",
    .out (part "setter" "method_name"),
    .text "(",
    .out (part "setter" "argument_type"),
    .text " ",
    .out (part "setter" "argument_name"),
    .text ");\n"],
  .text ("  \x7d\n"
    ++ "\n"
    ++ "  public static class Builder implements "),
  .joined (part "builder" "implements") ", ",
  .text " \x7b\n"]

def slots : List Template.Node := [
  .each "slot" (part "builder" "slots") [
    .text "    private ",
    .out (part "slot" "type"),
    .text " ",
    .out (part "slot" "name"),
    .text ";\n"]]

def buildMethod : List Template.Node := [
  .text ("\n"
    ++ "    public static "),
  .out (part "builder" "entry_type"),
  .text (" builder() \x7b\n"
    ++ "      return new Builder();\n"
    ++ "    \x7d\n"
    ++ "\n"
    ++ "    @Override\n"
    ++ "    public "),
  .out (.var "class_name"),
  .text (" build() \x7b\n"
    ++ "      "),
  .out (part "identity" "type"),
  .text " ",
  .out (part "identity" "member_name"),
  .text " = this.",
  .out (part "identity" "member_name"),
  .text " != null ? this.",
  .out (part "identity" "member_name"),
  .text (" : UUID.randomUUID().toString();\n"
    ++ "\n"
    ++ "      return new "),
  .out (.var "class_name"),
  .text "(\n",
  .each "slot" (part "builder" "slots") [
    .text "        ",
    .out (part "slot" "name"),
    .unlessLast ",",
    .text "\n"],
  .text ("      );\n"
    ++ "    \x7d\n")]

def stepMethods : List Template.Node := [
  .each "step" (.var "steps") [
    .text ("\n"
      ++ "    @Override\n"
      ++ "    public "),
    .out (part "step" "return_type"),
    .text " ",
    .out (part "step" "method_name"),
    .text "(",
    .out (part "step" "argument_type"),
    .text " ",
    .out (part "step" "argument_name"),
    .text (") \x7b\n"
      ++ "      Objects.requireNonNull("),
    .out (part "step" "argument_name"),
    .text (");\n"
      ++ "      this."),
    .out (part "step" "member_name"),
    .text " = ",
    .out (part "step" "argument_name"),
    .text (";\n"
      ++ "      return this;\n"
      ++ "    \x7d\n")]]

def setterMethods : List Template.Node := [
  .each "setter" (part "build_step" "setters") [
    .text ("\n"
      ++ "    @Override\n"
      ++ "    public "),
    .out (part "build_step" "interface_name"),
    .text " ",
    .out (part "setter" "method_name"),
    .text "(",
    .out (part "setter" "argument_type"),
    .text " ",
    .out (part "setter" "argument_name"),
    .text (") \x7b\n"
      ++ "      this."),
    .out (part "setter" "member_name"),
    .text " = ",
    .out (part "setter" "argument_name"),
    .text (";\n"
      ++ "      return this;\n"
      ++ "    \x7d\n")]]

def identitySetter : List Template.Node := [
  .text ("\n"
    ++ "    /**\n"
    ++ "     * WARNING: Do not set ID when creating a new object. "
    ++ "Leave this blank and one will be auto generated for you.\n"
    ++ "     * This should only be set when referring to an already existing object.\n"
    ++ "     * @param "),
  .out (part "identity" "argument_name"),
  .text (" id\n"
    ++ "     * @return Current Builder instance, for fluent method chaining\n"
    ++ "     * @throws "),
  .out (part "identity" "exception_type"),
  .text (" Checks that ID is in the proper format\n"
    ++ "     */\n"
    ++ "    @Override\n"
    ++ "    public "),
  .out (part "build_step" "interface_name"),
  .text " ",
  .out (part "identity" "method_name"),
  .text "(",
  .out (part "identity" "type"),
  .text " ",
  .out (part "identity" "argument_name"),
  .text ") throws ",
  .out (part "identity" "exception_type"),
  .text (" \x7b\n"
    ++ "      this."),
  .out (part "identity" "member_name"),
  .text " = ",
  .out (part "identity" "argument_name"),
  .text (";\n"
    ++ "\n"
    ++ "      try \x7b\n"
    ++ "        UUID.fromString("),
  .out (part "identity" "argument_name"),
  .text ("); // Throws when the id is not a UUID\n"
    ++ "      \x7d catch (Exception exception) \x7b\n"
    ++ "        throw new "),
  .out (part "identity" "exception_type"),
  .text "(",
  .out (part "identity" "message_literal"),
  .text " + ",
  .out (part "identity" "argument_name"),
  .text (",\n"
    ++ "          exception,\n"
    ++ "          "),
  .out (part "identity" "suggestion_literal"),
  .text (",\n"
    ++ "          "),
  .out (part "identity" "fatal_literal"),
  .text (");\n"
    ++ "      \x7d\n"
    ++ "\n"
    ++ "      return this;\n"
    ++ "    \x7d\n"
    ++ "  \x7d\n")]

def getters : List Template.Node := [
  .each "field" (.var "fields") [
    .text ("\n"
      ++ "  public "),
    .out (part "field" "type"),
    .text " ",
    .out (part "field" "getter_name"),
    .text ("() \x7b\n"
      ++ "    return "),
    .out (part "field" "member_name"),
    .text (";\n"
      ++ "  \x7d\n")]]

def constructor : List Template.Node := [
  .text ("\n"
    ++ "  private "),
  .out (.var "class_name"),
  .text "(",
  .each "field" (.var "fields") [
    .out (part "field" "type"),
    .text " ",
    .out (part "field" "member_name"),
    .unlessLast ", "],
  .text ") \x7b\n",
  .each "field" (.var "fields") [
    .text "    this.",
    .out (part "field" "member_name"),
    .text " = ",
    .out (part "field" "member_name"),
    .text ";\n"]]

def equality : List Template.Node := [
  .text ("  \x7d\n"
    ++ "\n"
    ++ "  @Override\n"
    ++ "  public boolean equals(Object obj) \x7b\n"
    ++ "    if (this == obj) \x7b\n"
    ++ "      return true;\n"
    ++ "    \x7d else if (obj == null || getClass() != obj.getClass()) \x7b\n"
    ++ "      return false;\n"
    ++ "    \x7d else \x7b\n"
    ++ "      "),
  .out (.var "class_name"),
  .text " ",
  .out (.var "instance_name"),
  .text " = (",
  .out (.var "class_name"),
  .text (") obj;\n"
    ++ "      return "),
  .each "field" (.var "fields") [
    .text "ObjectsCompat.equals(",
    .out (part "field" "getter_name"),
    .text "(), ",
    .out (.var "instance_name"),
    .text ".",
    .out (part "field" "getter_name"),
    .text "())",
    .unlessLast " &&\n              "]]

def hashing : List Template.Node := [
  .text (";\n"
    ++ "    \x7d\n"
    ++ "  \x7d\n"
    ++ "\n"
    ++ "  @Override\n"
    ++ "  public int hashCode() \x7b\n"
    ++ "    return new StringBuilder()\n"),
  .each "field" (.var "fields") [
    .text "      .append(",
    .out (part "field" "getter_name"),
    .text "())\n"],
  .text ("      .toString()\n"
    ++ "      .hashCode();\n"
    ++ "  \x7d\n"
    ++ "\x7d")]

end ClassTemplate

/-- An immutable model class with its query fields, step interfaces, builder, getters and comparisons. -/
def classTemplate : Template where
  name := "model.java.j2"
  body := ClassTemplate.heading ++ ClassTemplate.queryFields ++ ClassTemplate.fields ++ ClassTemplate.stepInterfaces
    ++ ClassTemplate.terminalInterface ++ ClassTemplate.slots ++ ClassTemplate.buildMethod ++ ClassTemplate.stepMethods
    ++ ClassTemplate.setterMethods ++ ClassTemplate.identitySetter ++ ClassTemplate.getters ++ ClassTemplate.constructor
    ++ ClassTemplate.equality ++ ClassTemplate.hashing

def templates : List Template := [packageTemplate, enumTemplate, providerTemplate, classTemplate]

end SchemaForge.Java

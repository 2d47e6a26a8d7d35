import SchemaForge.Naming.Allocator

/-
The words a Java name must not be: reserved words of the language, and the names that generated classes use
themselves.
-/

namespace SchemaForge.Java

def reservedWords : List String :=
  ["abstract", "assert", "boolean", "break", "byte", "case", "catch", "char", "class", "const", "continue",
    "default", "do", "double", "else", "enum", "extends", "final", "finally", "float", "for", "goto", "if",
    "implements", "import", "instanceof", "int", "interface", "long", "native", "new", "package", "private",
    "protected", "public", "return", "short", "static", "strictfp", "super", "switch", "synchronized", "this",
    "throw", "throws", "transient", "try", "void", "volatile", "while", "true", "false", "null", "var",
    "record", "yield"]

def generatedNames : List String := ["Builder", "Model", "Object", "String", "Class"]

def rules : Naming.Rules := { reserved := reservedWords, builtin := generatedNames }

def conflictSuffix : String := "_"

end SchemaForge.Java

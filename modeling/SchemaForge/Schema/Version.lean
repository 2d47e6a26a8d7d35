import SchemaForge.Digest.Md5
import SchemaForge.Json.Written
import SchemaForge.Schema.Basic

/-
The content version of a schema: the digest of the canonical text of its models in order. Any change to a
model name, field order, field type, nullability or directive changes the text; enums have no part in it.
-/

namespace SchemaForge.Schema

/-- The text for models whose texts stand for these strings. -/
def versionTextAs (denote : Json.Denotation) (s : Schema) : String :=
  (Json.arr ((Entries.values s.models).map Model.toJson)).canonicalAs denote

def versionText (s : Schema) : String := s.versionTextAs Json.codePoints

def version (s : Schema) : String := Md5.hexDigest s.versionText.toUTF8.toList

end SchemaForge.Schema

import SchemaForge.Fault

/-
Settings of one generation. Each holds whatever value it was given; passes read them as they need. `custom`
collects what has no field of its own.
-/

namespace SchemaForge

/-- Custom settings: entries, or some other value in their place. An entry is named by a text, or by any other
scalar if the entries came as pairs. -/
inductive Custom
  | entries (es : List (Json × Json))
  | other (v : Json)

namespace Custom

/-- The members of an object under the values that stand for their keys. -/
def keyed (ms : List (String × Json)) : List (Json × Json) := ms.map (fun m => (.str m.1, m.2))

def ofJson : Json → Custom
  | .obj ms => .entries (keyed ms)
  | v => .other v

/-- The settings as an object; names that are not texts are shown as texts. -/
def toJson : Custom → Json
  | .entries es => .obj (Entries.putAll (es.map (fun e => (e.1.display, e.2))) [])
  | .other v => v

/-- One setting, if there are settings at all. -/
def get? (c : Custom) (name : String) : Except Fault (Option Json) :=
  match c with
  | .entries es => .ok (Entries.get? (.str name) es)
  | .other v => .error (.noOperation v "get")

/-- The entries, or those that a sequence of pairs stands for. -/
def toEntries : Custom → Except Fault (List (Json × Json))
  | .entries es => .ok es
  | .other v => do return Entries.putAll (← v.entries) []

end Custom

structure Settings where
  outputFile : Json := .null
  packageName : Json := .str "com.amplifyframework.datastore.generated.model"
  loaderClassName : Json := .str "AmplifyModelProvider"
  /-- What to generate: `code`, or `loader` for the model provider. -/
  generate : Json := .str "code"
  /-- One model or enum to restrict the output to. -/
  selectedType : Json := .null
  addComments : Json := .bool true
  custom : Custom := .entries []

namespace Settings

/-- The settings under their names, `custom` last. -/
def toMembers (s : Settings) : List (String × Json) :=
  [("output_file", s.outputFile), ("package_name", s.packageName), ("loader_class_name", s.loaderClassName),
    ("generate", s.generate), ("selected_type", s.selectedType), ("add_comments", s.addComments),
    ("custom", s.custom.toJson)]

def names : List String := ({} : Settings).toMembers.map (·.1)

end Settings

end SchemaForge

import SchemaForge.Fault
import SchemaForge.Json.File
import SchemaForge.Json.Written
import SchemaForge.Settings.Basic
import SchemaForge.Text.Identifier

/-
Loading, checking and saving settings. A source is an object of settings; explicit settings go before those
of a file, and these before the defaults of the language. Entries of `custom` are merged one by one, and a
setting without a field of its own becomes a custom one.
-/

namespace SchemaForge

inductive SettingsError
  | missing (p : Path)
  | notJsonFile (p : Path)
  | invalid (p : Path) (e : Json.SyntaxError)
  | unreadable (p : Path) (e : FileError)
  | notObject (p : Path)
  | unwritable (p : Path) (e : FileError)
  | excess (x : Json.Excess)
  /-- The file is not UTF-8. -/
  | encoding (m : Text.Utf8.Malformed)
  /-- The path cannot even be asked for. -/
  | unusable (p : Path) (e : FileError)
  | fault (f : Fault)

def SettingsError.message : SettingsError → String
  | .missing p => "Configuration file not found: " ++ p.toString
  | .notJsonFile p => "Configuration file must be JSON: " ++ p.toString
  | .invalid p e => "Invalid JSON in configuration file " ++ p.toString ++ ": " ++ e.message
  | .unreadable p e => "Failed to load configuration file " ++ p.toString ++ ": " ++ e.message p
  | .notObject p => "Configuration file must contain a JSON object: " ++ p.toString
  | .unwritable p e => "Failed to save configuration to " ++ p.toString ++ ": " ++ e.message p
  | .excess x => x.message
  | .encoding m => m.message
  | .unusable p e => e.message p
  | .fault f => f.message

/-- The error is about the configuration, and not about the values or the encoding of a file. -/
def SettingsError.isConfiguration : SettingsError → Bool
  | .excess _ | .encoding _ | .unusable .. | .fault _ => false
  | _ => true

namespace Settings

abbrev Members := List (String × Json)

/-- The built-in settings of each language. -/
def languageDefaults : List (String × Members) :=
  [("java", [("package_name", ({} : Settings).packageName),
    ("loader_class_name", ({} : Settings).loaderClassName), ("generate", .str "code"),
    ("add_comments", .bool true), ("custom", .obj [("scalar_overrides", .obj [])])])]

def languages : List String := Entries.keys languageDefaults

/-- Sets one setting. An object for `custom` is merged into the one that is there. -/
def override (target : Members) (entry : String × Json) : Except Fault Members :=
  match entry with
  | ("custom", .obj new) =>
    match (Entries.get? "custom" target).getD (.obj []) with
    | .obj old => .ok (Entries.put "custom" (.obj (Entries.putAll new old)) target)
    | v => .error (.noOperation v "update")
  | (k, v) => .ok (Entries.put k v target)

def merge (target overrides : Members) : Except Fault Members := overrides.foldlM override target

/-- Sets a field by name; other names are not settings. -/
def setField (s : Settings) (name : String) (v : Json) : Except Fault Settings :=
  match name with
  | "output_file" => .ok { s with outputFile := v }
  | "package_name" => .ok { s with packageName := v }
  | "loader_class_name" => .ok { s with loaderClassName := v }
  | "generate" => .ok { s with generate := v }
  | "selected_type" => .ok { s with selectedType := v }
  | "add_comments" => .ok { s with addComments := v }
  | "custom" => .ok { s with custom := Custom.ofJson v }
  | _ => .error (.unknownField name)

/-- Settings from fields alone. -/
def ofFields (ms : Members) : Except Fault Settings :=
  ms.foldlM (fun s m => s.setField m.1 m.2) {}

/-- Settings from members of any name; the unknown ones become custom settings. -/
def ofMembers (ms : Members) : Except Fault Settings := do
  let known := ms.filter (fun m => names.contains m.1)
  let unknown := ms.filter (fun m => !names.contains m.1)
  let s ← ofFields known
  if unknown.isEmpty then return s
  return { s with custom := .entries (Entries.putAll (Custom.keyed unknown) (← s.custom.toEntries)) }

def membersOfFile (files : FileStore) (p : Path) : Except SettingsError Members := do
  match files.exists? p with
  | .error e => throw (.unusable p e)
  | .ok false => throw (.missing p)
  | .ok true =>
    if !p.isJson then throw (.notJsonFile p)
    match Json.ofFile files p with
    | .error (.text e) => throw (.invalid p e)
    | .error (.file e) => throw (.unreadable p e)
    | .error (.excess x) => throw (.excess x)
    | .error (.encoding m) => throw (.encoding m)
    | .ok (.obj ms) => return ms
    | .ok _ => throw (.notObject p)

def lift {α : Type} : Except Fault α → Except SettingsError α
  | .ok a => .ok a
  | .error f => .error (.fault f)

/-- The members of explicit settings; anything empty sets nothing. -/
def explicitMembers (explicit : Json) : Except Fault Members :=
  if explicit.truthy then
    match explicit with
    | .obj ms => .ok ms
    | v => .error (.noOperation v "items")
  else .ok []

def load (files : FileStore) (language : String) (explicit : Json) (file : Option Path) :
    Except SettingsError Settings := do
  let base := (Entries.get? language languageDefaults).getD []
  let fromFile ← match file with
    | some p => membersOfFile files p
    | none => pure []
  let merged ← lift (merge base fromFile)
  let merged ← lift (do merge merged (← explicitMembers explicit))
  lift (ofMembers merged)

/-! Checking. -/

def isIdentifierPath (s : String) : Bool :=
  (Text.splitAt '.' s.toList).all (fun part => Text.isIdentifier (String.ofList part))

def generateWarnings (s : Settings) : Except Fault (List String) := do
  let mode ← s.generate.toKey
  if mode == .str "code" || mode == .str "loader" then return []
  return ["Invalid generate mode: " ++ mode.display]

def packageWarnings (s : Settings) : Except Fault (List String) := do
  let warning := "Invalid Java package name: " ++ s.packageName.display
  if !s.packageName.truthy then return [warning]
  match s.packageName with
  | .str name => return if isIdentifierPath name then [] else [warning]
  | v => throw (.noOperation v "split")

def providerWarnings (s : Settings) : Except Fault (List String) :=
  match s.loaderClassName with
  | .str name => .ok (if Text.isIdentifier name then [] else ["Invalid loader class name: " ++ name])
  | v => .error (.noOperation v "isidentifier")

def overrideWarnings (s : Settings) : Except Fault (List String) := do
  if ((← s.custom.get? "scalar_overrides").getD (.obj [])).isObject then return []
  return ["scalar_overrides must be a mapping of scalar to type name"]

def warnings (s : Settings) (language : String) : Except Fault (List String) := do
  let shared ← s.generateWarnings
  if language != "java" then return shared
  return shared ++ (← s.packageWarnings) ++ (← s.providerWarnings) ++ (← s.overrideWarnings)

/-! Saving. -/

/-- The settings side by side, the custom ones among the others. -/
def flattened (s : Settings) : Except Fault (List (Json × Json)) := do
  return Entries.putAll (← s.custom.toEntries) (Custom.keyed (s.toMembers.filter (fun m => m.1 != "custom")))

/-- The settings as one object. Two names that are written alike are both written. -/
def toSaved (s : Settings) : Except Fault Json := do
  return .obj ((← s.flattened).map (fun e => (e.1.keyText, e.2)))

def save (s : Settings) (files : FileStore) (p : Path) : Except SettingsError (String × FileStore) := do
  let text := (← lift s.toSaved).indented
  if p.holdsNul then throw (.fault .nulInPath)
  match files.write p text.toUTF8.toList with
  | .ok files => return (text, files)
  | .error e => throw (.unwritable p e)

end Settings

end SchemaForge

import SchemaForge.Generation.Backend
import SchemaForge.Settings.Load

/-
The registry of generator classes. A language is registered under its name in lower case and may have
aliases; a name that is looked up is a language first and an alias second.

Registering works through the aliases one by one, so a conflict leaves the language and the aliases before
it registered. A language that is taken is not registered again unless it is to be replaced, and replacing
skips the check for conflicts. Unregistering removes the language and every alias that points to it.
-/

namespace SchemaForge

namespace Generation

/-- What can stand behind a class that is offered for registration. -/
inductive ClassKind
  | complete (b : Backend)
  /-- A generator class that lacks its passes, so no generator can be made of it. -/
  | incomplete
  /-- Not a generator class. -/
  | unrelated

structure GeneratorClass where
  name : String
  module : String
  kind : ClassKind

def GeneratorClass.isGenerator (c : GeneratorClass) : Bool :=
  match c.kind with
  | .unrelated => false
  | _ => true

def GeneratorClass.create (c : GeneratorClass) (s : Settings) : Except Fault Generator :=
  match c.kind with
  | .complete b => Generator.create b s
  | _ => .error (.incomplete c.name)

/-- Where a generator's settings come from. -/
inductive SettingsSource
  | settings (s : Settings)
  | explicit (members : Json)
  | file (p : Path)
  | default
  /-- A value that settings cannot come from. -/
  | unusable (v : Json)

/-- An object is explicit settings; a text is the path of a file unless it is empty. -/
def SettingsSource.ofJson : Json → SettingsSource
  | .null => .default
  | .obj ms => .explicit (.obj ms)
  | .str "" => .default
  | .str s => .file (Path.ofString s)
  | v => .unusable v

inductive RegistryError
  | notGenerator
  | aliasIsLanguage (name : String)
  | aliasTaken (name language : String)
  | unknownLanguage (language : String) (available : List String)
  | sourceKind (v : Json)
  | settings (e : SettingsError)
  | creation (language : String) (f : Fault)
  | fault (f : Fault)

def RegistryError.message : RegistryError → String
  | .notGenerator => "Generator class must inherit from CodeGenerator"
  | .aliasIsLanguage name => "Alias '" ++ name ++ "' conflicts with existing primary language"
  | .aliasTaken name language => "Alias '" ++ name ++ "' already points to '" ++ language ++ "'"
  | .unknownLanguage language available =>
    "No generator registered for language: " ++ language ++ ". Available: " ++ String.intercalate ", " available
  | .sourceKind v => "Invalid config type: <class '" ++ v.kindName ++ "'>"
  | .settings e => e.message
  | .creation language f => "Failed to create " ++ language ++ " generator: " ++ f.message
  | .fault f => f.message

structure Registry where
  languages : List (String × GeneratorClass) := []
  /-- The language each alias points to. -/
  aliases : List (String × String) := []

structure LanguageInfo where
  name : String
  className : String
  fileExtension : String
  aliases : List String
  module : String
  packageName : Json

namespace Registry

def sorted (names : List String) : List String := names.mergeSort (fun x y => decide (x ≤ y))

/-- Why `name` cannot be an alias of `language`. -/
def conflict? (r : Registry) (language name : String) : Option RegistryError :=
  let key := Text.lowerText name
  if Entries.has key r.languages then some (.aliasIsLanguage name)
  else match Entries.get? key r.aliases with
    | some other => if other == language then none else some (.aliasTaken name other)
    | none => none

/-- Adds aliases in order up to the first conflict. The language itself is no alias. -/
def addAliases (r : Registry) (language : String) (replace : Bool) :
    List String → Except RegistryError Unit × Registry
  | [] => (.ok (), r)
  | name :: names =>
    let added := { r with aliases := Entries.put (Text.lowerText name) language r.aliases }
    if Text.lowerText name == language then addAliases r language replace names
    else if replace then addAliases added language replace names
    else match r.conflict? language name with
      | some e => (.error e, r)
      | none => addAliases added language replace names

def register (r : Registry) (language : String) (c : GeneratorClass) (aliases : List String) (replace : Bool) :
    Except RegistryError Unit × Registry :=
  let key := Text.lowerText language
  if !c.isGenerator then (.error .notGenerator, r)
  else if Entries.has key r.languages && !replace then (.ok (), r)
  else addAliases { r with languages := Entries.put key c r.languages } key replace aliases

def unregister (r : Registry) (language : String) : Registry :=
  let key := Text.lowerText language
  { languages := Entries.erase key r.languages, aliases := r.aliases.filter (fun a => !(a.2 == key)) }

def languageNames (r : Registry) : List String := sorted (Entries.keys r.languages)

def resolve (r : Registry) (language : String) : Except RegistryError String :=
  let key := Text.lowerText language
  if Entries.has key r.languages then .ok key
  else match Entries.get? key r.aliases with
    | some primary => .ok primary
    | none => .error (.unknownLanguage language r.languageNames)

/-- The class registered for a language. An alias that points nowhere finds none. -/
def classOf (r : Registry) (language : String) : Except RegistryError GeneratorClass := do
  let key ← r.resolve language
  match Entries.get? key r.languages with
  | some c => return c
  | none => throw (.fault (.missingKey key))

def aliasesOf (r : Registry) (language : String) : List String :=
  sorted ((r.aliases.filter (fun a => a.2 == Text.lowerText language)).map (·.1))

def supports (r : Registry) (language : String) : Bool :=
  Entries.has (Text.lowerText language) r.languages || Entries.has (Text.lowerText language) r.aliases

def settingsFrom (files : FileStore) (language : String) : SettingsSource → Except RegistryError Settings
  | .settings s => .ok s
  | .explicit ms => (Settings.load files language ms none).mapError .settings
  | .file p => (Settings.load files language .null (some p)).mapError .settings
  | .default => (Settings.load files language .null none).mapError .settings
  | .unusable v => .error (.sourceKind v)

/-- A generator for a language, with settings from a source. -/
def create (r : Registry) (files : FileStore) (language : String) (source : SettingsSource) :
    Except RegistryError Generator := do
  let c ← r.classOf language
  let settings ← settingsFrom files (← r.resolve language) source
  (c.create settings).mapError (.creation language)

def info (r : Registry) (files : FileStore) (language : String) : Except RegistryError LanguageInfo := do
  let key ← r.resolve language
  let c ← r.classOf language
  let g ← (c.create (← settingsFrom files key .default)).mapError .fault
  return {
    name := g.backend.language
    className := c.name
    fileExtension := g.backend.fileExtension
    aliases := r.aliasesOf key
    module := c.module
    packageName := g.settings.packageName }

end Registry

end Generation

end SchemaForge

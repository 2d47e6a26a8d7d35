import SchemaForge.CommandLine.Arguments
import SchemaForge.CommandLine.Layout
import SchemaForge.Loader.Load
import SchemaForge.Targets

/-
A run of the command: arguments, document, settings, generation, output. What a run is given and what it
leaves are values, so a run is a function.

Without an output file the standard output holds the generated text and nothing else, unless it is a terminal: reports go
elsewhere. With one it holds the reports, the first of them being the empty line that ends the progress display.

What the standard output does with a text is given. Its encoding may refuse one, and a report that is refused ends the
run. How a terminal draws reports and generated texts is given as well. Reports are laid out as for an output that has
all characters.
-/

namespace SchemaForge.CommandLine

open Generation

/-- How a terminal draws. -/
structure Terminal where
  report : String → String
  /-- A generated text in its language. -/
  source : String → String → String
  /-- What is left of the progress display, which names the language. -/
  progress : String → String

/-- The standard output, as a run finds it. -/
structure Outlet where
  /-- What draws on it, if it is taken for a terminal. -/
  terminal : Option Terminal := none
  /-- Why its encoding refuses a text. -/
  refuses : String → Option String := fun _ => none

structure Invocation where
  argv : List String
  files : FileStore := {}
  stdin : String := ""
  network : Loader.Network
  outlet : Outlet := {}
  /-- Why UTF-8 refuses a generated text. It has no reason to, except that a document has spelled half of a surrogate
      pair: such a text stands for one that is none. -/
  unencodable : String → Option String := fun _ => none
  /-- Whether an option keeps `--` for its value when that is attached to it. -/
  keepsDashes : Bool := false

/-- What a run leaves behind. -/
structure Finish where
  code : Nat
  output : String := ""
  files : FileStore
  usage : Option UsageError := none

/-- The last line of a refusal. -/
def usageLine (e : UsageError) : String := "modelgen: error: " ++ e.message

/-- Why there is nothing to generate. -/
inductive Obstacle
  | load (e : Loader.LoadError)
  | stdin (e : Json.ReadError)
  | settings (e : SettingsError)
  | registry (e : RegistryError)

/-- A report of what went wrong, under a headline. -/
def report (headline text : String) : String := styled .red headline ++ " " ++ text

def unexpected (text : String) : String := report "✗ Unexpected error:" text

def Obstacle.message : Obstacle → String
  | .load e => report "✗ Error:" ("Failed to load input: " ++ e.message)
  | .stdin (.malformed e) => report "✗ Error:" ("Invalid JSON input: " ++ e.message)
  | .stdin (.excess x) => report "✗ Error:" ("Failed to load input: " ++ x.message)
  | .settings e =>
    if e.isConfiguration then report "✗ Error:" ("Configuration error: " ++ e.message) else unexpected e.message
  | .registry e => unexpected e.message

/-! The standard output. -/

def Outlet.drawn (o : Outlet) (report : String) : String :=
  match o.terminal with
  | some t => t.report report
  | none => report

def Outlet.progress (o : Outlet) (language : String) : String :=
  match o.terminal with
  | some t => t.progress language
  | none => blankLine

/-- The end of a run with one report left, which is shown if it can be. -/
def Invocation.giveUp (i : Invocation) (printed : String) (files : FileStore) (text : String) : Finish :=
  let last := i.outlet.drawn (message text)
  { code := 1, output := if (i.outlet.refuses last).isNone then printed ++ last else printed, files := files }

/-- The end of a run that is broken off by an error nobody expects. -/
def Invocation.breakOff (i : Invocation) (printed : String) (files : FileStore) (text : String) : Finish :=
  i.giveUp printed files (unexpected text)

/-- The end of a run that has these texts left to print. -/
def Invocation.conclude (i : Invocation) (code : Nat) (files : FileStore) (printed : String) : List String → Finish
  | [] => { code := code, output := printed, files := files }
  | text :: rest =>
    match i.outlet.refuses text with
    | none => i.conclude code files (printed ++ text) rest
    | some e => i.breakOff printed files e

/-- The end of a run that has these reports left. -/
def Invocation.close (i : Invocation) (code : Nat) (files : FileStore) (printed : String) (reports : List String) :
    Finish :=
  i.conclude code files printed (reports.map i.outlet.drawn)

/-! Languages. -/

def languageRow (info : LanguageInfo) : List String :=
  ["🔧 " ++ info.name, info.fileExtension, info.className,
    if info.aliases.isEmpty then "none" else String.intercalate ", " info.aliases, info.packageName.display]

def languageTable (infos : List LanguageInfo) : Table where
  title := "📋 Supported Languages"
  header := ["Language", "Extension", "Generator Class", "Aliases", "Default Package"]
  rows := infos.map languageRow

def quickStart : List String :=
  ["Classes: modelgen schema.json --language LANGUAGE", "Provider: modelgen schema.json --mode loader"]

def languageList : Except RegistryError (List String) := do
  let infos ← targets.languageNames.mapM (targets.info {})
  return [blankLine, (languageTable infos).render roundedFrame, blankLine, panel "💡 Quick Start" quickStart]

def listLanguages (i : Invocation) : Finish :=
  match languageList with
  | .error e => i.breakOff "" i.files e.message
  | .ok reports => i.close 0 i.files "" reports

def unsupported (language : String) : List String :=
  [message (styled .red ("✗ Unsupported language '" ++ language ++ "'")),
    message (styled .dim ("Supported languages: " ++ String.intercalate ", " targets.languageNames))]

/-! Input. -/

/-- A text that was given and is not empty. -/
def present (s : Option String) : Option String := s.filter (· != "")

def Arguments.hasInput (a : Arguments) : Bool := (present a.file).isSome || (present a.url).isSome || a.stdin

def readDocument (i : Invocation) (a : Arguments) : Except Obstacle Json :=
  match present a.file, present a.url with
  | none, none => (Json.parse i.stdin).mapError .stdin
  | some file, _ => load { file := some file }
  | none, some url => load { url := some url }
where
  load (s : Loader.Source) : Except Obstacle Json :=
    match (Loader.load i.files i.network s).1 with
    | .ok loaded => .ok loaded.document
    | .error e => .error (.load e)

def setting (name : String) (value : Option String) : List (String × Json) :=
  match present value with
  | some v => [(name, .str v)]
  | none => []

/-- The settings given as arguments. -/
def Arguments.overrides (a : Arguments) : List (String × Json) :=
  setting "package_name" a.packageName ++ setting "generate" a.mode ++ setting "selected_type" a.selectedType
    ++ (if a.noComments then [("add_comments", .bool false)] else [])
    ++ setting "output_file" a.output

def readSettings (i : Invocation) (a : Arguments) (language : String) : Except Obstacle Settings := do
  let language ← (targets.resolve language).mapError .registry
  (Settings.load i.files language (.obj a.overrides) ((present a.config).map Path.ofString)).mapError .settings

/-! Output. -/

def metadataTable (m : Metadata) : Table where
  title := "📊 Generation Metadata"
  header := ["Property", "Value"]
  rows := [["Language", m.language], ["File Extension", m.fileExtension], ["Mode", m.mode.name],
    ["Model Count", toString m.modelCount], ["Enum Count", toString m.enumCount],
    ["Package Name", m.packageName.display]]

def metadataReport (a : Arguments) (g : Generated) : List String :=
  if a.verbose then [blankLine, (metadataTable g.metadata).render simpleFrame] else []

def warningReport (warnings : List String) : List String :=
  if warnings.isEmpty then []
  else
    message ("\n" ++ styled .yellow "⚠️  Warnings:")
      :: warnings.map (fun w => message ("  " ++ styled .yellow "•" ++ " " ++ w)) ++ [blankLine]

/-- The failure as it is, with the name of its kind. -/
def details (f : Failure) : String := "Details: " ++ f.className ++ "(" ++ Text.quoted f.message ++ ")"

def failureReport (f : Failure) : List String :=
  [message (report "✗ Code generation failed:" (Generator.failureText f)), message (styled .dim (details f))]

/-- The path of the output file. -/
def outputPath (v : Json) : Except Fault Path :=
  match v with
  | .str s => if s.toList.contains '\x00' then .error .nulInPath else .ok (Path.ofString s)
  | v => .error (.notPath v)

/-- What is reported of a text that has been saved. -/
def savedReport (a : Arguments) (language : String) (path : Path) (g : Generated) : List String :=
  message (styled .green "✓" ++ " Generated " ++ language ++ " code saved to " ++ styled .cyan path.toString)
    :: metadataReport a g ++ warningReport g.warnings

/-- Writes the text to the output file and reports. A text that cannot be encoded leaves an empty file. -/
def deliver (i : Invocation) (a : Arguments) (language : String) (target : Json) (g : Generated) (printed : String) :
    Finish :=
  match outputPath target with
  | .error f => i.breakOff printed i.files f.message
  | .ok path =>
    let bytes := if (i.unencodable g.code).isNone then g.code.toUTF8.toList else []
    match i.files.write path bytes with
    | .error e =>
      i.close 1 i.files printed [message (report ("✗ Failed to write to " ++ path.toString ++ ":") (e.message path))]
    | .ok files =>
      match i.unencodable g.code with
      | some e => i.breakOff printed files e
      | none => i.close 0 files printed (savedReport a language path g)

/-- A run that writes to a file, after what is left of the progress display. -/
def toFile (i : Invocation) (a : Arguments) (language : String) (target : Json)
    (outcome : Except Refusal Outcome) : Finish :=
  let printed := i.outlet.progress language
  match outcome with
  | .error r => i.breakOff printed i.files r.message
  | .ok o =>
    match o.result with
    | .error f => i.close 1 i.files printed (failureReport f)
    | .ok g => deliver i a language target g printed

/-- A run that writes to the standard output, which is no terminal. -/
def toOutput (i : Invocation) (outcome : Except Refusal Outcome) : Finish :=
  match outcome with
  | .error r => i.breakOff "" i.files r.message
  | .ok o =>
    match o.result with
    | .error _ => { code := 1, files := i.files }
    | .ok g => i.conclude 0 i.files "" [g.code]

def border : String := String.ofList (List.replicate 30 '═')

/-- The text between two borders, and then the reports. -/
def terminalTexts (t : Terminal) (a : Arguments) (language : String) (g : Generated) : List String :=
  let heading := border ++ " 📄 Generated " ++ String.ofList (Text.capitalize language.toList) ++ " Code " ++ border
  t.report (message (styled .green heading ++ "\n")) :: t.source language g.code
    :: (message ("\n" ++ styled .green (border ++ border ++ border)) :: metadataReport a g
      ++ warningReport g.warnings).map t.report

/-- A run that writes to a terminal. -/
def toTerminal (i : Invocation) (t : Terminal) (a : Arguments) (language : String) (outcome : Except Refusal Outcome) :
    Finish :=
  let printed := t.progress language
  match outcome with
  | .error r => i.breakOff printed i.files r.message
  | .ok o =>
    match o.result with
    | .error f => i.close 1 i.files printed (failureReport f)
    | .ok g => i.conclude 0 i.files printed (terminalTexts t a language g)

def generate (i : Invocation) (a : Arguments) (language : String) (document : Json) (s : Settings) : Finish :=
  let outcome := generateFromDocument i.files document language (.settings s) none
  if s.outputFile.truthy then toFile i a language s.outputFile outcome
  else match i.outlet.terminal with
    | none => toOutput i outcome
    | some t => toTerminal i t a language outcome

/-- The document and the settings of a run. -/
def prepare (i : Invocation) (a : Arguments) (language : String) : Except Obstacle (Json × Settings) := do
  let document ← readDocument i a
  return (document, ← readSettings i a language)

/-- A run for a language. -/
def performFor (i : Invocation) (a : Arguments) (language : String) : Finish :=
  if !targets.supports language then i.close 1 i.files "" (unsupported language)
  else match prepare i a language with
    | .error o => i.giveUp "" i.files o.message
    | .ok (document, s) => generate i a language document s

/-- A language that was left without a name is none of a text's kind. -/
def unnamedLanguage : Fault := .noOperation (.arr []) "lower"

def perform (i : Invocation) (a : Arguments) : Finish :=
  if a.listLanguages then listLanguages i
  else if !a.hasInput then
    i.close 1 i.files "" [message (report "✗" "Input source required (file, --url, or --stdin)")]
  else match a.language with
    | none => i.breakOff "" i.files unnamedLanguage.message
    | some language => performFor i a language

def run (i : Invocation) : Finish :=
  match Arguments.ofWords i.argv i.keepsDashes with
  | .error .help => { code := 0, files := i.files }
  | .error (.usage e) => { code := 2, files := i.files, usage := some e }
  | .ok a => perform i a

end SchemaForge.CommandLine

import SchemaForge.Text.Decimal
import SchemaForge.Text.Pieces
import SchemaForge.Text.Quoted

/-
The arguments of the command. Options may be shortened as long as no other begins alike, take their value
after `=`, in the next word, or, in their short form, right behind the letter; short forms without a value
can be joined. After `--` nothing is an option. Whether an option takes `--` for its value when that is attached to it,
or is left without one, differs between versions of the argument reader, so it is a parameter (`keeps`). Words are
classified before any is acted on.
-/

namespace SchemaForge.CommandLine

inductive Flag
  | help
  | url
  | stdin
  | language
  | mode
  | type
  | packageName
  | config
  | output
  | noComments
  | verbose
  | listLanguages
  deriving DecidableEq, Repr

namespace Flag

def all : List Flag :=
  [.help, .url, .stdin, .language, .mode, .type, .packageName, .config, .output, .noComments, .verbose,
    .listLanguages]

def names : Flag → List String
  | .help => ["-h", "--help"]
  | .url => ["--url"]
  | .stdin => ["--stdin"]
  | .language => ["--language", "-l"]
  | .mode => ["--mode"]
  | .type => ["--type"]
  | .packageName => ["--package-name", "--package"]
  | .config => ["--config"]
  | .output => ["--output", "-o"]
  | .noComments => ["--no-comments"]
  | .verbose => ["--verbose", "-v"]
  | .listLanguages => ["--list-languages"]

def takesValue : Flag → Bool
  | .url | .language | .mode | .type | .packageName | .config | .output => true
  | .help | .stdin | .noComments | .verbose | .listLanguages => false

/-- Every name with its option, in the order of definition. -/
def table : List (List Char × Flag) := all.flatMap (fun o => o.names.map (fun n => (n.toList, o)))

def named? (name : List Char) : Option Flag := (table.find? (·.1 == name)).map (·.2)

def title (o : Flag) : String := String.intercalate "/" o.names

end Flag

inductive Word
  | plain (s : String)
  | separator
  /-- An option, whether it is in short form, and the text attached to it. -/
  | option (o : Flag) (short : Bool) (attached : Option (List Char))
  | unknown (s : String)

/-- The ways to give the document; at most one may be used. -/
inductive Input
  | file
  | url
  | stdin
  deriving DecidableEq, Repr

def Input.all : List Input := [.file, .url, .stdin]

def Input.title : Input → String
  | .file => "file"
  | .url => Flag.url.title
  | .stdin => Flag.stdin.title

inductive UsageError
  | ambiguous (given : String) (candidates : List String)
  | ignoredText (o : Flag) (text : String)
  | missingValue (o : Flag)
  | invalidMode (value : String)
  | conflict (later earlier : Input)
  | unrecognized (words : List String)

def modes : List String := ["code", "loader"]

def UsageError.message : UsageError → String
  | .ambiguous given candidates =>
    "ambiguous option: " ++ given ++ " could match " ++ String.intercalate ", " candidates
  | .ignoredText o text => "argument " ++ o.title ++ ": ignored explicit argument " ++ Text.quoted text
  | .missingValue o => "argument " ++ o.title ++ ": expected one argument"
  | .invalidMode value =>
    "argument " ++ Flag.mode.title ++ ": invalid choice: " ++ Text.quoted value ++ " (choose from "
      ++ String.intercalate ", " (modes.map Text.quoted) ++ ")"
  | .conflict later earlier => "argument " ++ later.title ++ ": not allowed with argument " ++ earlier.title
  | .unrecognized words => "unrecognized arguments: " ++ String.intercalate " " words

/-- Why the command stops before it does anything. -/
inductive Stop
  | help
  | usage (e : UsageError)

/-! Words. -/

def isShort (name : List Char) : Bool := name.length == 2

/-- The text up to the first equals sign, and what follows it. -/
def cutEquals (cs : List Char) : List Char × Option (List Char) :=
  match Text.cutFirst? '=' cs with
  | some (name, text) => (name, some text)
  | none => (cs, none)

structure Candidate where
  name : List Char
  flag : Flag
  attached : Option (List Char)

/-- The options a word can be short for. -/
def candidates (cs : List Char) : List Candidate :=
  if cs.take 2 == ['-', '-'] then
    let (start, attached) := cutEquals cs
    (Flag.table.filter (fun e => start.isPrefixOf e.1)).map (fun e => ⟨e.1, e.2, attached⟩)
  else
    Flag.table.filterMap (fun e =>
      if e.1 == cs.take 2 then some ⟨e.1, e.2, some (cs.drop 2)⟩
      else if cs.isPrefixOf e.1 then some ⟨e.1, e.2, none⟩
      else none)

/-- A negative number, with or without a line end behind it. -/
def isNegativeNumber (cs : List Char) : Bool :=
  let cs := if cs.getLast? == some '\n' then cs.dropLast else cs
  match cs with
  | '-' :: digits =>
    match Text.cutFirst? '.' digits with
    | none => !digits.isEmpty && digits.all Text.isDecimalDigit
    | some (whole, places) =>
      whole.all Text.isDecimalDigit && !places.isEmpty && places.all Text.isDecimalDigit
  | _ => false

/-- A word that does not name an option: a value, or an option nobody knows. -/
def unnamed (s : String) : Word :=
  if isNegativeNumber s.toList || s.toList.contains ' ' then .plain s else .unknown s

def shortened (s : String) : Except UsageError Word :=
  match candidates s.toList with
  | [] => .ok (unnamed s)
  | [c] => .ok (.option c.flag (isShort c.name) c.attached)
  | cs => .error (.ambiguous s (cs.map (fun c => String.ofList c.name)))

def classify (s : String) : Except UsageError Word :=
  let cs := s.toList
  if cs.head? != some '-' || cs.length == 1 then .ok (.plain s)
  else match Flag.named? cs with
    | some o => .ok (.option o (isShort cs) none)
    | none =>
      match cutEquals cs with
      | (name, some attached) =>
        match Flag.named? name with
        | some o => .ok (.option o (isShort name) (some attached))
        | none => shortened s
      | (_, none) => shortened s

def classifyAll : List String → Except UsageError (List Word)
  | [] => .ok []
  | s :: rest =>
    if s == "--" then .ok (.separator :: rest.map .plain)
    else do return (← classify s) :: (← classifyAll rest)

/-! Options of one word. -/

/-- What the last option of a word asks for. -/
inductive Ending
  | done
  | value (o : Flag) (text : Option String)
  | wanting (o : Flag)

/-- The value in an attached text. -/
def valueOf (keeps : Bool) (text : List Char) : Option String :=
  if !keeps && text == ['-', '-'] then none else some (String.ofList text)

/-- The options joined in one word that take no value, and how the word ends. `o` is an option without a
value, and the text stands behind its letter. -/
def unjoin (keeps : Bool) (o : Flag) : List Char → Except UsageError (List Flag × Ending)
  | [] => .ok ([o], .done)
  | c :: cs =>
    match Flag.named? ['-', c] with
    | none => .error (.ignoredText o (String.ofList (c :: cs)))
    | some next =>
      if next.takesValue then
        .ok ([o], if cs.isEmpty then .wanting next else .value next (valueOf keeps cs))
      else do
        let (flags, ending) ← unjoin keeps next cs
        return (o :: flags, ending)

def read (keeps : Bool) (o : Flag) (short : Bool) : Option (List Char) → Except UsageError (List Flag × Ending)
  | none => .ok (if o.takesValue then ([], .wanting o) else ([o], .done))
  | some text =>
    if o.takesValue then .ok ([], .value o (valueOf keeps text))
    else if short && !text.isEmpty then unjoin keeps o text
    else .error (.ignoredText o (String.ofList text))

/-! Arguments. -/

structure Arguments where
  file : Option String := none
  url : Option String := none
  stdin : Bool := false
  language : Option String := some "java"
  mode : Option String := none
  selectedType : Option String := none
  packageName : Option String := none
  config : Option String := none
  output : Option String := none
  noComments : Bool := false
  verbose : Bool := false
  listLanguages : Bool := false
  deriving DecidableEq, Repr

/-- What has been taken so far. The file is the only argument without a name, and taken once. -/
structure Progress where
  arguments : Arguments := {}
  inputs : List Input := []
  fileTaken : Bool := false
  extras : List String := []

namespace Progress

def give (p : Progress) (i : Input) : Except Stop Progress :=
  match Input.all.find? (fun other => other != i && p.inputs.contains other) with
  | some other => .error (.usage (.conflict i other))
  | none => .ok { p with inputs := i :: p.inputs }

def set (p : Progress) (f : Arguments → Arguments) : Progress := { p with arguments := f p.arguments }

def takeFlag (p : Progress) : Flag → Except Stop Progress
  | .help => .error .help
  | .stdin => do return (← p.give .stdin).set ({ · with stdin := true })
  | .noComments => .ok (p.set ({ · with noComments := true }))
  | .verbose => .ok (p.set ({ · with verbose := true }))
  | .listLanguages => .ok (p.set ({ · with listLanguages := true }))
  | _ => .ok p

def takeValue (p : Progress) (o : Flag) (v : Option String) : Except Stop Progress :=
  match o with
  | .url => do return (← p.give .url).set ({ · with url := v })
  | .language => .ok (p.set ({ · with language := v }))
  | .mode =>
    match v.filter (fun name => !modes.contains name) with
    | some name => .error (.usage (.invalidMode name))
    | none => .ok (p.set ({ · with mode := v }))
  | .type => .ok (p.set ({ · with selectedType := v }))
  | .packageName => .ok (p.set ({ · with packageName := v }))
  | .config => .ok (p.set ({ · with config := v }))
  | .output => .ok (p.set ({ · with output := v }))
  | _ => .ok p

def takeFile (p : Progress) (s : String) : Except Stop Progress := do
  return { (← p.give .file).set ({ · with file := some s }) with fileTaken := true }

def extra (p : Progress) (s : String) : Progress := { p with extras := p.extras ++ [s] }

def takeFlags (p : Progress) (flags : List Flag) : Except Stop Progress := flags.foldlM takeFlag p

/-- Takes words in order. A separator before or right after the file is dropped. -/
def takeWords (keeps : Bool) (p : Progress) : List Word → Except Stop Progress
  | [] => .ok p
  | .plain s :: rest =>
    if p.fileTaken then takeWords keeps (p.extra s) rest
    else do
      let p ← p.takeFile s
      match rest with
      | .separator :: rest => takeWords keeps p rest
      | rest => takeWords keeps p rest
  | .separator :: rest => takeWords keeps (if p.fileTaken then p.extra "--" else p) rest
  | .unknown s :: rest => takeWords keeps (p.extra s) rest
  | .option o short attached :: rest =>
    match read keeps o short attached with
    | .error e => .error (.usage e)
    | .ok (flags, .done) => do takeWords keeps (← p.takeFlags flags) rest
    | .ok (flags, .value o v) => do takeWords keeps (← (← p.takeFlags flags).takeValue o v) rest
    | .ok (flags, .wanting o) =>
      match rest with
      | .plain v :: rest => do takeWords keeps (← (← p.takeFlags flags).takeValue o (some v)) rest
      | _ => .error (.usage (.missingValue o))

end Progress

def Arguments.ofWords (argv : List String) (keeps : Bool := false) : Except Stop Arguments := do
  let words ← (classifyAll argv).mapError .usage
  let p ← ({} : Progress).takeWords keeps words
  if p.extras.isEmpty then return p.arguments
  throw (.usage (.unrecognized p.extras))

end SchemaForge.CommandLine

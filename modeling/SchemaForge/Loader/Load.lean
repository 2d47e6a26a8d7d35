import SchemaForge.Generation.Session
import SchemaForge.Json.File
import SchemaForge.Loader.Url

/-
Loading a schema document from a file or from the network. The document must be a JSON object or array. Each
attempt logs what it does and counts the requests it makes; both outlive a failure.

What the network answers is given: a reply for each URL, and whether its status counts as a refusal, which is up to
the client that asks.
-/

namespace SchemaForge.Loader

/-- How a request ends. -/
inductive Reply
  /-- `refused`: the client takes the status for an error. If nothing else is said, a status from 400 on is one. -/
  | answered (status : Int) (body : String) (contentType : Option String) (refused : Bool := decide (400 ≤ status))
  | timedOut
  | unreachable (text : String)
  /-- The request failed on the level of the protocol, with no answer to take a status from. -/
  | statusMissing
  | failed (text : String)

abbrev Network := String → Reply

structure Source where
  file : Option String := none
  url : Option String := none
  timeout : Json := .int 30

inductive LoadError
  | noSource
  | twoSources
  | missing (p : Path)
  | invalidFile (p : Path) (e : Json.SyntaxError)
  | unreadable (p : Path) (e : FileError)
  | notDocument (source : String)
  | invalidUrl (url : String)
  | timedOut (url : String)
  | unreachable (url : String)
  | refused (url : String) (status : Int)
  | failed (url text : String)
  | invalidReply (url : String) (e : Json.SyntaxError)
  | excess (x : Json.Excess)
  /-- The file is not UTF-8. -/
  | encoding (m : Text.Utf8.Malformed)
  /-- The path cannot even be asked for. -/
  | unusable (p : Path) (e : FileError)
  | malformedUrl (e : UrlDefect)
  | statusMissing

def LoadError.message : LoadError → String
  | .noSource => "Either file_path or url must be provided"
  | .twoSources => "Cannot specify both file_path and url"
  | .missing p => "File not found: " ++ p.toString
  | .invalidFile p e => "Invalid JSON in file " ++ p.toString ++ ": " ++ e.message
  | .unreadable p e => "Error reading file " ++ p.toString ++ ": " ++ e.message p
  | .notDocument source => "Schema document must be a JSON object or array: " ++ source
  | .invalidUrl url => "Invalid URL: " ++ url
  | .timedOut url => "Request timeout for URL: " ++ url
  | .unreachable url => "Connection error for URL: " ++ url
  | .refused url status => "HTTP error " ++ toString status ++ " for URL: " ++ url
  | .failed url text => "Request error for URL " ++ url ++ ": " ++ text
  | .invalidReply url e => "Invalid JSON response from URL " ++ url ++ ": " ++ e.message
  | .excess x => x.message
  | .encoding m => m.message
  | .unusable p e => e.message p
  | .malformedUrl e => e.message
  | .statusMissing => "'NoneType' object has no attribute 'status_code'"

/-- What an attempt leaves behind: its log, and each request with its timeout. -/
structure Trace where
  log : List LogEntry := []
  requests : List (String × Json) := []

abbrev Load (α : Type) := ExceptT LoadError (StateM Trace) α

def note (level : Level) (text : String) : Load Unit :=
  modify (fun t => { t with log := t.log ++ [⟨level, text⟩] })

/-- Notes what went wrong and gives up. -/
def fail {α : Type} (text : String) (e : LoadError) : Load α := do
  note .error text
  throw e

structure Loaded where
  /-- Where the document came from. -/
  source : String
  document : Json

def isDocument : Json → Bool
  | .obj _ => true
  | .arr _ => true
  | _ => false

def checked (source : String) (v : Json) : Load Loaded := do
  note .info ("Successfully loaded schema from " ++ source)
  if isDocument v then return { source := source, document := v }
  fail ("Schema document from " ++ source ++ " is not an object or array") (.notDocument source)

def fromFile (files : FileStore) (p : Path) : Load Loaded := do
  note .debug ("Attempting to load schema from file: " ++ p.toString)
  match files.exists? p with
  | .error e => throw (.unusable p e)
  | .ok false => fail ("File not found: " ++ p.toString) (.missing p)
  | .ok true =>
    if !p.isJson then note .warning ("File does not have .json extension: " ++ p.toString)
    match Json.ofFile files p with
    | .ok v => checked p.toString v
    | .error (.text e) => fail (LoadError.invalidFile p e).message (.invalidFile p e)
    | .error (.file e) => fail (LoadError.unreadable p e).message (.unreadable p e)
    | .error (.excess x) => throw (.excess x)
    | .error (.encoding m) => throw (.encoding m)

/-- The reply says that it is JSON, or the URL does. -/
def saysJson (url contentType : String) : Bool :=
  Text.occursIn "application/json".toList contentType.toList || url.endsWith ".json"

def fromReply (url : String) : Reply → Load Loaded
  | .timedOut => fail (LoadError.timedOut url).message (.timedOut url)
  | .unreachable text => fail ("Connection error for URL " ++ url ++ ": " ++ text) (.unreachable url)
  | .statusMissing => throw .statusMissing
  | .failed text => fail (LoadError.failed url text).message (.failed url text)
  | .answered status body contentType refused => do
    if refused then fail (LoadError.refused url status).message (.refused url status)
    let contentType := Text.lowerText (contentType.getD "")
    if !saysJson url contentType then
      note .warning ("URL " ++ url ++ " does not have JSON content type: " ++ contentType)
    match Json.parse body with
    | .ok v => checked url v
    | .error (.malformed e) => fail (LoadError.invalidReply url e).message (.invalidReply url e)
    | .error (.excess x) => throw (.excess x)

def fromUrl (network : Network) (url : String) (timeout : Json) : Load Loaded := do
  note .debug ("Attempting to load schema from URL: " ++ url)
  match Url.ofString url with
  | .error e => throw (.malformedUrl e)
  | .ok parts =>
    if !parts.isAbsolute then fail ("Invalid URL format: " ++ url) (.invalidUrl url)
    modify (fun t => { t with requests := t.requests ++ [(url, timeout)] })
    fromReply url (network url)

/-- A text that names a source; an empty one names none. -/
def given (s : Option String) : Option String := s.filter (· != "")

def fromSource (files : FileStore) (network : Network) (s : Source) : Load Loaded :=
  match given s.file, given s.url with
  | none, none => fail "Neither file_path nor url provided" .noSource
  | some _, some _ => fail "Both file_path and url provided" .twoSources
  | some file, none => fromFile files (Path.ofString file)
  | none, some url => fromUrl network url s.timeout

def load (files : FileStore) (network : Network) (s : Source) : Except LoadError Loaded × Trace :=
  ((fromSource files network s).run.run {} : Id _)

end SchemaForge.Loader

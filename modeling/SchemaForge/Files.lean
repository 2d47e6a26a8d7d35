import SchemaForge.Text.Casing
import SchemaForge.Text.Pieces
import SchemaForge.Text.Quoted

/-
Paths and a file store. A path is a root and parts; empty parts and `.` are dropped, `..` stays and is
followed when the path is looked up. The store holds files and directories by their place: their parts below
the working directory, or `/` and their parts below the root. Every leading part of an entry is a directory.

A path is followed part by part. What a part is looked up in must be there, then be a directory, and only then
may the part not be too long; a path that is too long as a whole is not followed at all.
-/

namespace SchemaForge

structure Path where
  root : String := ""
  parts : List String := []
  deriving DecidableEq

namespace Path

def ofString (s : String) : Path :=
  let cs := s.toList
  let slashes := (cs.takeWhile (· == '/')).length
  { root := if slashes == 0 then "" else if slashes == 2 then "//" else "/"
    parts := ((Text.splitAt '/' cs).filter (fun p => !p.isEmpty && p != ['.'])).map String.ofList }

def toString (p : Path) : String :=
  if p.root == "" && p.parts.isEmpty then "." else p.root ++ String.intercalate "/" p.parts

def name (p : Path) : String := p.parts.getLast?.getD ""

/-- The part of the name from its last dot on, if something stands on both sides of that dot. -/
def extension (p : Path) : String :=
  match Text.cutLast? '.' p.name.toList with
  | some (stem, ext) => if stem.isEmpty || ext.isEmpty then "" else String.ofList ('.' :: ext)
  | none => ""

/-- No file has such a name. -/
def holdsNul (p : Path) : Bool := p.parts.any (fun part => part.toList.contains '\x00')

/-- The extension says the file is JSON, in any case. -/
def isJson (p : Path) : Bool := Text.lowerText p.extension == ".json"

end Path

inductive Content
  | file (bytes : List UInt8)
  | directory
  deriving DecidableEq

/-- What the system answers when a path cannot be used. -/
inductive FileError
  | notFound
  | notDirectory
  | isDirectory
  | nameTooLong
  deriving DecidableEq

def FileError.message (e : FileError) (p : Path) : String :=
  let (number, text) := match e with
    | .notFound => ("2", "No such file or directory")
    | .notDirectory => ("20", "Not a directory")
    | .isDirectory => ("21", "Is a directory")
    | .nameTooLong => ("36", "File name too long")
  "[Errno " ++ number ++ "] " ++ text ++ ": " ++ Text.quoted p.toString

structure FileStore where
  entries : List (List String × Content) := []

namespace FileStore

/-- The place of the root directory. -/
def rootPlace : List String := ["/"]

/-- The directories that are there in any case: the root, the working directory and those above it. -/
def isStanding (place : List String) : Bool := place == rootPlace || place.all (· == "..")

def at? (s : FileStore) (place : List String) : Option Content :=
  if isStanding place then some .directory
  else match s.entries.find? (·.1 == place) with
    | some e => some e.2
    | none =>
      if s.entries.any (fun e => place.isPrefixOf e.1) then some .directory else none

/-- The directory above a place, both given last part first. Nothing is above the root. -/
def above (place : List String) : List String :=
  if place == rootPlace then place
  else if isStanding place then ".." :: place
  else place.tail

/-- The bytes of the longest name. -/
def longestName : Nat := 255

/-- The bytes of the longest path. -/
def longestPath : Nat := 4095

/-- Follows the parts of a path from a place, given last part first. -/
def walk (s : FileStore) (place : List String) : List String → Except FileError (List String × Option Content)
  | [] => .ok (place.reverse, s.at? place.reverse)
  | part :: rest =>
    match s.at? place.reverse with
    | none => .error .notFound
    | some (.file _) => .error .notDirectory
    | some .directory =>
      if longestName < part.utf8ByteSize then .error .nameTooLong
      else walk s (if part == ".." then above place else part :: place) rest

def start (p : Path) : List String := if p.root == "" then [] else rootPlace

/-- The place a path leads to and what stands there. -/
def locate (s : FileStore) (p : Path) : Except FileError (List String × Option Content) :=
  if longestPath < p.toString.utf8ByteSize then .error .nameTooLong else s.walk (start p) p.parts

/-- Whether there is something at the path. A name that is too long cannot even be asked for. -/
def exists? (s : FileStore) (p : Path) : Except FileError Bool :=
  if p.holdsNul then .ok false
  else match s.locate p with
  | .ok (_, found) => .ok found.isSome
  | .error .nameTooLong => .error .nameTooLong
  | .error _ => .ok false

def read (s : FileStore) (p : Path) : Except FileError (List UInt8) :=
  match s.locate p with
  | .error e => .error e
  | .ok (_, none) => .error .notFound
  | .ok (_, some .directory) => .error .isDirectory
  | .ok (_, some (.file bytes)) => .ok bytes

def write (s : FileStore) (p : Path) (bytes : List UInt8) : Except FileError FileStore :=
  match s.locate p with
  | .error e => .error e
  | .ok (_, some .directory) => .error .isDirectory
  | .ok (place, _) =>
    .ok { entries := s.entries.filter (fun e => !(e.1 == place)) ++ [(place, .file bytes)] }

end FileStore

end SchemaForge

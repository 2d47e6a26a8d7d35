import SchemaForge.CommandLine.Run

/-
The command. It collects what a run may look at (the files its arguments and settings name, with the
directories above them, and the standard input), lets the run work on it, and writes what the run leaves.
-/

namespace SchemaForge.CommandLine

/-- There is no network. -/
def offline : Loader.Network := fun _ => .failed "no network"

def entryAt (place : List String) (name : String) : IO FileStore := do
  match ← (IO.FS.readBinFile name).toBaseIO with
  | .ok bytes => return { entries := [(place, .file bytes.toList)] }
  | .error (.inappropriateType ..) => return { entries := [(place, .directory)] }
  | .error _ => return {}

/-- What the file system holds at a path and at the directories above it. -/
def entriesAt (s : String) : IO FileStore := do
  let p := Path.ofString s
  let mut store : FileStore := {}
  for n in List.range p.parts.length do
    let part := { p with parts := p.parts.take (n + 1) }
    let found ← entryAt (FileStore.start p ++ part.parts) part.toString
    store := { entries := store.entries ++ found.entries }
  return store

def collect (paths : List (Option String)) : IO FileStore := do
  let mut store : FileStore := {}
  for path in paths do
    if let some path := path then
      store := { entries := store.entries ++ (← entriesAt path).entries }
  return store

/-- The output file that the settings name. -/
def outputName (i : Invocation) (a : Arguments) : Option String :=
  match readSettings i a (a.language.getD "") with
  | .ok { outputFile := .str s, .. } => some s
  | _ => none

def invocation (argv : List String) (a : Arguments) : IO Invocation := do
  let stdin ← if a.stdin then (← IO.getStdin).readToEnd else pure ""
  let files ← collect [a.file, a.config]
  let i : Invocation := { argv := argv, files := files, stdin := stdin, network := offline }
  let target ← collect [outputName i a]
  return { i with files := { entries := files.entries ++ target.entries } }

/-- Writes the files that the run changed. -/
def store (before after : FileStore) : IO Unit := do
  for (place, content) in after.entries do
    if let .file bytes := content then
      if before.at? place != some content then
        IO.FS.writeBinFile (String.intercalate "/" place) ⟨bytes.toArray⟩

/-- A whole run on the file system; the answer is the exit code. -/
def start (argv : List String) : IO UInt32 := do
  let i ← match Arguments.ofWords argv with
    | .ok a => invocation argv a
    | .error _ => pure { argv := argv, network := offline }
  let finish := run i
  store i.files finish.files
  IO.print finish.output
  if let some e := finish.usage then IO.eprintln (usageLine e)
  return finish.code.toUInt32

end SchemaForge.CommandLine

def main (argv : List String) : IO UInt32 := SchemaForge.CommandLine.start argv

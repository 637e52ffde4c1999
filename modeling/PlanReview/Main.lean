import PlanReview.CommandLine.Execute
import Std.Time.DateTime.Timestamp

/-!
# The program

Runs a command line on the files of the working directory : everything below it, and everything
below the paths among the words of the command line, is read into a `FileTree`; the command works
on that; then the changes that it has noted are made on the disk in their order. The decisions are
those of `CommandLine.execute`. There is no network, so only the offline models answer.
-/

namespace PlanReview

open CommandLine

/-- The directory under which the recipes that come with the program are found. -/
def installation : Path := ⟨true, ["plan-forge"]⟩

/-- The names that lead to the recipes that come with the program, with their directories. -/
def installed : List (List String × FileEntry) :=
  [installation.parts, installation.parts ++ ["recipes"]].map (·, ⟨.directory, 0⟩) ++
    Recipe.builtin.map fun (name, text) => ((installation.child name).parts, ⟨.file (.text text), 0⟩)

/-- The content that some bytes stand for. -/
def contentOfBytes (bytes : ByteArray) : Content :=
  match String.fromUTF8? bytes with
  | some text => .text text
  | none => .binary bytes

/-- The directories that lead to something, as entries. -/
def directoriesTo (names : List String) : List (List String × FileEntry) :=
  (FileTree.ancestors names).map (·, ⟨.directory, 0⟩)

/-- What stands under a place on the disk and below it, as entries. -/
partial def gather (place : IO.FS.DirEntry) : IO (List (List String × FileEntry)) := do
  unless ← place.path.pathExists do return []
  let names := (Path.ofString place.path.toString).resolve []
  let data ← place.path.metadata
  let micros := data.modified.sec * 1000000 + data.modified.nsec.toNat / 1000
  if ← place.path.isDir then
    let inside ← (← place.path.readDir).toList.mapM gather
    return (names, ⟨.directory, micros⟩) :: inside.flatten
  else
    return [(names, ⟨.file (contentOfBytes (← IO.FS.readBinFile place.path)), micros⟩)]

/-- The workspace that a command finds. -/
def workspaceFor (words : List String) : IO Workspace := do
  let here ← IO.currentDir
  let places := "." :: words.filter fun word => !word.isEmpty && !word.startsWith "-"
  let found ← places.mapM fun word => gather ⟨here, word⟩
  let cwd := (Path.ofString here.toString).resolve []
  let time ← Std.Time.Timestamp.now
  let now : Instant := ⟨time.toNanosecondsSinceUnixEpoch.val / 1000⟩
  let entries := found.flatten
  let leading := entries.flatMap fun e => directoriesTo e.1
  return {
    files := { cwd := cwd, entries := installed ++ entries ++ leading, clock := now.micros }
    now := now
    started := now }

/-- The text of a path from the root. -/
def onDisk (names : List String) : String :=
  (Path.ofParts names).text

/-- Make a change on the disk. -/
def carryOutOnDisk : Change → IO Unit
  | .makeDirectory path => IO.FS.createDirAll (onDisk path)
  | .write path (.text s) => IO.FS.writeFile (onDisk path) s
  | .write path (.binary bytes) => IO.FS.writeBinFile (onDisk path) bytes
  | .rename source target => IO.FS.rename (onDisk source) (onDisk target)
  | .remove path => IO.FS.removeFile (onDisk path)
  | .setTime _ _ => pure ()

/-- The variables of the environment that settings can come from. -/
def environmentVars : IO (List (String × String)) := do
  let found ← Environment.names.mapM fun (name, _) => do
    return (← IO.getEnv name).map (name, ·)
  return found.reduceOption

/-- What a failure without an outcome leaves behind for the shell. -/
def unexpected : Failure → Outcome
  | .crash (.usage text) => { code := 2, err := lines [text] }
  | f => { code := Outcome.failed, err := lines ["Error: " ++ f.message] }

end PlanReview

open PlanReview in
/-- Run the command line. -/
def main (words : List String) : IO UInt32 := do
  let before ← workspaceFor words
  let around : CommandLine.Surroundings := {
    programDir := installation
    transport := fun _ _ => .error "there is no network"
    vars := ← environmentVars }
  let (result, after) := (CommandLine.execute around words).run.run before
  after.history.forM carryOutOnDisk
  let outcome := match result with
    | .ok outcome => outcome
    | .error f => unexpected f
  IO.print outcome.out
  IO.eprint outcome.err
  return outcome.code.toUInt32

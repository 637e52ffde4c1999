import PlanReview.Workspace.Basic
import PlanReview.Json.Writer

/-!
# Stored states

The state of a session is a file in its directory. `save` writes the whole text to a file beside
it and then renames that file, so that under the final name there is always a complete text, the
old one or the new one. `load` refuses a file that is not a complete state of the present version.

A save goes step by step, and each step may fail, because of what is there already or because the
disk refuses it. What a disk does is a parameter (`Disk`), and so is which texts have no bytes
(`Encoder`), which shows before the first step. A session is saved where nothing is refused.
-/

namespace PlanReview

/-- A step of a save. -/
inductive SaveStep where
  | makeDirectory
  | openFile
  | writeText
  | sync
  | rename
  deriving Repr, DecidableEq

/-- The steps of a save, in their order. -/
def SaveStep.all : List SaveStep :=
  [makeDirectory, openFile, writeText, sync, rename]

/-- Why a disk refuses a step, and how many of the changes of the step it has made by then. -/
structure Refusal where
  reason : String
  changes : Nat := 0

/-- What a disk does to a save. -/
structure Disk where
  refuses : SaveStep → Option Refusal := fun _ => none
  /-- What the temporary file holds, one after the other, until the whole text is in it. -/
  drafts : List Content := []
  /-- Why the temporary file cannot be taken away. -/
  keeps : Option FileFault := none
  /-- A file is renamed at once or not at all. -/
  atomic : ∀ r ∈ refuses .rename, r.changes = 0 := by simp

/-- What makes bytes of texts. Half a pair of UTF-16 units has none. It stands in a text as the
replacement character (`Json.unitChar`), which may as well stand for itself, so a text with that
character may be refused, and no other text. -/
structure Encoder where
  /-- Why a text has no bytes. -/
  refuses : String → Option String := fun _ => none
  encodes : ∀ text, '\uFFFD' ∉ text.toList → refuses text = none := by simp

end PlanReview

namespace PlanReview.SessionState

/-- The name of the file with the state. -/
def fileName : String := "orchestration-state.json"

/-- The name of the file that a new state is first written to. -/
def temporaryName : String := ".orchestration-state.json.tmp"

/-- The path of the stored state of a session. -/
def filePath (dir : Path) : Path := dir.child fileName

/-- The path that a new state is first written to. -/
def temporaryPath (dir : Path) : Path := dir.child temporaryName

/-- The state marked as one of the present version. -/
def versioned (s : SessionState) : SessionState :=
  { s with schemaVersion := PlanReview.schemaVersion }

/-- The text that is stored. -/
def storedText (s : SessionState) : String :=
  Json.write Json.stored s.versioned.toJson

/-! ## Saving -/

/-- The changes of a step of a save, if what is there already allows them. -/
def stepChanges (disk : Disk) (dir : Path) (text : String) (files : FileTree) :
    SaveStep → Except FileError (List Change)
  | .makeDirectory => files.makeDirectories dir
  | .openFile => do
    files.openForWriting (temporaryPath dir)
    return [.write ((temporaryPath dir).resolve files.cwd) (.text "")]
  | .writeText =>
    .ok ((disk.drafts ++ [Content.text text]).map
      (.write ((temporaryPath dir).resolve files.cwd)))
  | .sync => .ok []
  | .rename =>
    if files.isDirectory (filePath dir) then
      .error ⟨.isDirectory, (temporaryPath dir).text, some (filePath dir).text⟩
    else
      .ok [.rename ((temporaryPath dir).resolve files.cwd) ((filePath dir).resolve files.cwd)]

/-- Take a step of a save. -/
def takeStep (disk : Disk) (dir : Path) (text : String) (step : SaveStep) :
    Act (Except PersistenceFault Unit) := do
  match stepChanges disk dir text (← get).files step with
  | .error e => return .error (.unwritable (filePath dir).text e)
  | .ok changes =>
    match disk.refuses step with
    | some refusal =>
      Act.performAll (changes.take refusal.changes)
      return .error (.reported
        ("Failed to write " ++ (filePath dir).text ++ ": " ++ refusal.reason))
    | none =>
      Act.performAll changes
      return .ok ()

/-- Take steps of a save until one fails. -/
def takeSteps (disk : Disk) (dir : Path) (text : String) :
    List SaveStep → Act (Except PersistenceFault Unit)
  | [] => return .ok ()
  | step :: steps => do
    match ← takeStep disk dir text step with
    | .error fault => return .error fault
    | .ok () => takeSteps disk dir text steps

/-- Take the temporary file away; a directory under its name cannot be. -/
def discard (disk : Disk) (dir : Path) : Act Unit := do
  let w ← get
  let file := temporaryPath dir
  let names := file.resolve w.files.cwd
  match w.files.obstacle? names with
  | some .missing => pure ()
  | some fault => throw (.crash (.file ⟨fault, file.text, none⟩))
  | none =>
    if w.files.isDirectory file then
      throw (.crash (.file ⟨.isDirectory, file.text, none⟩))
    if w.files.has file then
      match disk.keeps with
      | some fault => throw (.crash (.file ⟨fault, file.text, none⟩))
      | none => Act.perform (.remove names)

/-- Store a state on a disk. -/
def saveOn (disk : Disk) (dir : Path) (s : SessionState) : Act Unit := do
  match ← takeSteps disk dir s.storedText SaveStep.all with
  | .ok () => pure ()
  | .error fault =>
    discard disk dir
    throw (.persistence fault)

/-- Encode a state and store it on a disk. -/
def saveWith (encoder : Encoder) (disk : Disk) (dir : Path) (s : SessionState) : Act Unit :=
  match encoder.refuses s.storedText with
  | some reason => throw (.value reason)
  | none => s.saveOn disk dir

/-- Store a state. -/
def save (dir : Path) (s : SessionState) : Act Unit :=
  s.saveWith {} {} dir

/-! ## Loading -/

/-- Read a text as a state; `file` is where it was found. -/
def ofText (now : String) (file : Path) (text : String) : Except PersistenceFault SessionState :=
  match Json.parse text with
  | .error e => .error (.unreadable file.text e.message)
  | .ok document =>
    if !document.isObject then .error (.notObject file.text)
    else
      let version := (document.get? "schema_version").getD .null
      if !version.same (.int PlanReview.schemaVersion) then
        .error (.wrongVersion file.text version)
      else
        match ofJson now document with
        | .error e => .error (.invalidState file.text e)
        | .ok s => .ok s

/-- The stored state of a session; nothing if there is none yet. -/
def load (files : FileTree) (now : String) (dir : Path) : Except Failure (Option SessionState) :=
  let file := filePath dir
  if !files.has file then .ok none
  else
    match files.read file with
    | .error e => .error (.persistence (.unreadable file.text e.message))
    | .ok content =>
      match content.readText? with
      | none => .error (.crash (.undecodable content))
      | some text =>
        match ofText now file text with
        | .error fault => .error (.persistence fault)
        | .ok s => .ok (some s)

end PlanReview.SessionState

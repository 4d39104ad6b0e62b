import BucketCare.Command.Invocation
import BucketCare.Paging
import BucketCare.Settings.Storage
import BucketCare.Store.Client
import BucketCare.Table

/-!
# The world of a command

What a command reads and changes: files, what it prints, and the state of the link to the store;
and what it finds around it: the environment, the clock, a source of randomness, and an editor.

A command that fails keeps what it has done so far.

## Main definitions

* `World` — what a command changes
* `Machine` — what a command finds around it
* `Failure` — how a command fails, and `Failure.display`, `Failure.exitCode`
* `Run` — what a command is
-/

namespace BucketCare.Command

/-- What a command changes. -/
structure World (σ : Type) where
  files : FileTree
  /-- What was printed. -/
  out : String
  /-- What was printed beside the output. -/
  notes : String
  /-- The state of the link. -/
  link : σ

/-- How the editor of a settings file ends. -/
inductive EditorEnd where
  /-- The editor ended well. -/
  | done
  /-- The editor ended with a failure. -/
  | failed
  /-- The editor was not started. -/
  | missing (error : IoError)
  deriving DecidableEq, Repr

/-- What a command finds around it. -/
structure Machine (σ : Type) where
  around : Surroundings
  link : Link σ
  now : Instant
  /-- The name of a session that is given none. -/
  freshName : String
  /-- The seed of the order of uploads when none is given. -/
  seed : UInt64
  /-- When uploads are interrupted, in milliseconds, if they are. -/
  interrupt : Option Nat
  /-- Runs an editor, given by its command, on a file. -/
  edit : (editor path : String) → FileTree → EditorEnd × FileTree

/-- Why a command fails. -/
inductive Cause where
  /-- A failure of the library. -/
  | ofError (error : Error)
  /-- A failure outside of the library, told in texts from the outermost on. -/
  | outside (texts : List String)
  deriving DecidableEq, Repr

/-- How a command fails: why, and what it was doing, from the outermost on. -/
structure Failure where
  contexts : List String
  cause : Cause
  deriving DecidableEq, Repr

namespace Failure

/-- A failure of the library. -/
def ofError (error : Error) : Failure := ⟨[], .ofError error⟩

/-- The texts of a failure, from the outermost on. -/
def texts (failure : Failure) : List String :=
  failure.contexts ++ match failure.cause with
    | .ofError error => error.message :: error.causes
    | .outside texts => texts

/-- A failure in words. -/
def display (failure : Failure) : String := "Error: " ++ ": ".intercalate failure.texts

/-- The exit code of a command that fails in this way. -/
def exitCode (failure : Failure) : Nat :=
  match failure.cause with
  | .ofError error => error.kind.exitCode
  | .outside _ => ErrorKind.exceptionThrown.exitCode

end Failure

/-- What a command is: it changes a world, and may fail. -/
abbrev Run (σ α : Type) := ExceptT Failure (StateM (World σ)) α

namespace Run

variable {σ α β τ : Type}

/-- Print a text and a line end. -/
def printLine (text : String) : Run σ Unit :=
  modify fun world => { world with out := world.out ++ text ++ "\n" }

/-- Print a text that holds its own line ends. -/
def print (text : String) : Run σ Unit :=
  modify fun world => { world with out := world.out ++ text }

/-- Print a line beside the output. -/
def note (text : String) : Run σ Unit :=
  modify fun world => { world with notes := world.notes ++ text ++ "\n" }

/-- Fail. -/
def fail (error : Error) : Run σ α := throw (.ofError error)

/-- A result of the library. -/
def ofExcept (result : Except Error α) : Run σ α :=
  match result with
  | .ok a => return a
  | .error e => fail e

/-- A computation on the state of the link. -/
def onLink (action : StateM σ α) : Run σ α := do
  let world ← get
  let (a, link) := action.run world.link
  set { world with link }
  return a

/-- A computation that sends requests. -/
def exchange (action : Exchange σ α) : Run σ α := do
  ofExcept (← onLink action.run)

/-- A number of pages that no listing reaches. -/
def allPages : Nat := Nat.pow 2 62

/-- What a visitor has come to when a listing ends or fails, and how many pages it was handed. -/
structure Visited (β : Type) where
  failure : Option Error
  state : β
  pages : Nat

/-- Hand the pages of a listing to a visitor. -/
def visitPages (source : Source σ α τ) (visit : α → β → StateM σ (Option Error × Visit β))
    (start : β) : Run σ (Visited β) :=
  onLink do
    match ← Cursor.start source with
    | .error e => return ⟨some e, start, 0⟩
    | .ok cursor =>
      let (failure, state, cursor) ← cursor.walk source visit allPages start
      return ⟨failure, state, cursor.returned⟩

/-- Fail with a failure, if there is one. -/
def failIf (failure : Option Error) : Run σ Unit :=
  match failure with
  | some e => fail e
  | none => return ()

/-- A failure gets the text of what was being done. -/
def doing (context : String) (run : Run σ α) : Run σ α :=
  tryCatch run fun failure => throw { failure with contexts := context :: failure.contexts }

/-- The settings that hold. -/
def settings (machine : Machine σ) (path : Option String) : Run σ Settings := do
  ofExcept (Settings.load (← get).files machine.around.home path)

/-- The client for some settings. -/
def client (machine : Machine σ) (settings : Settings) : Run σ (Client σ) := do
  return Client.connect machine.link machine.around (← get).files settings

/-- The settings that hold, and the client for them. -/
def connect (machine : Machine σ) (path : Option String) : Run σ (Settings × Client σ) := do
  let settings ← settings machine path
  return (settings, ← client machine settings)

/-- Empty a file, or make it. -/
def createFile (path : String) : Run σ Unit := do
  let world ← get
  match world.files.write path ByteArray.empty with
  | .ok files => set { world with files }
  | .error e => fail (.io e)

/-- Put a text into a file from its start on; what lies behind stays. -/
def fillFile (path text : String) : Run σ Unit := do
  let world ← get
  match world.files.readBytes path with
  | .ok old =>
    let bytes := text.toUTF8
    match world.files.write path (bytes ++ old.extract bytes.size old.size) with
    | .ok files => set { world with files }
    | .error e => fail (.io e)
  | .error e => fail (.io e)

/-- Print a table of names and values. -/
def printTable (headings : List String) (rows : List (List String)) : Run σ Unit :=
  printLine (Table.render headings rows)

/-- Print totals as a table below an empty line. -/
def printSummary (rows : List (String × String)) : Run σ Unit := do
  printLine ""
  printTable ["metric", "value"] (rows.map fun (metric, value) => [metric, value])

end Run

/-- A point in time for listings; a hyphen when there is none. -/
def displayTime (time : Option Instant) : String :=
  match time with
  | some t => t.display
  | none => "-"

/-- A bound on ages, given in seconds. -/
def ageBound (seconds : Option Nat) : Option Span := seconds.map Span.ofSeconds

end BucketCare.Command

import BucketCare.Command.Buckets
import BucketCare.Command.Completion
import BucketCare.Command.Configuration
import BucketCare.Command.Diagnosis
import BucketCare.Command.Pending
import BucketCare.Command.Recovery
import BucketCare.Command.UploadTree

/-!
# The program

A command line is read, its command is run in a world, and the exit code follows from how it ends.
No more of a machine is handed to a command than it needs: the files that it reads or writes, the
directory that it reads as a whole, and the variables it looks at.

## Main definitions

* `Invocation.files` — the files that a command reads or writes
* `Action.directory?` — the directory that a command reads as a whole
* `knownVariables` — the variables that commands look at
* `Action.run` — what a command does
* `Exit` — how the program ends
* `runProgram` — the program
-/

namespace BucketCare.Command

/-! ## What a command touches -/

/-- The files that are named in the options of a command. -/
def Action.files : Action → List String
  | .list options => options.out.toList
  | .versions options => options.out.toList ++ options.csv.toList
  | .bulkDelete options => [options.file]
  | _ => []

/-- The directory that a command reads as a whole. -/
def Action.directory? : Action → Option String
  | .upload options => some options.source
  | _ => none

/-- The files that a command reads or writes: the settings file, the shared files of profiles, and
those that are named in its options. -/
def Invocation.files (around : Surroundings) (invocation : Invocation) : List String :=
  Settings.path around.home invocation.settingsPath :: around.credentialsPath ::
    around.configPath :: invocation.action.files

/-- The variables that commands look at. -/
def knownVariables : List String :=
  "HOME" :: "EDITOR" :: "SECRET_ACCESS_KEY" :: variableNames

/-! ## Running a command -/

variable {σ : Type}

/-- What a command does. -/
def Action.run (machine : Machine σ) (settingsPath : Option String) : Action → Run σ Unit
  | .list options => Command.list machine settingsPath options
  | .versions options => listVersions machine settingsPath options
  | .undelete options => Command.undelete machine settingsPath options
  | .restore options => Command.restore .atOnce machine settingsPath options
  | .pending options => Command.pending machine settingsPath options
  | .makeBucket bucket place => Command.makeBucket machine settingsPath bucket place
  | .region bucket => Command.region machine settingsPath bucket
  | .bulkDelete options => Command.bulkDelete machine settingsPath options
  | .policy path readOnly noMultipart => Command.policy path readOnly noMultipart
  | .session options => Command.session machine settingsPath options
  | .diagnose path => Command.diagnose machine settingsPath path
  | .capability name path => checkCapability machine settingsPath name path
  | .upload options => Command.upload .atOnce machine settingsPath options
  | .init => setUp machine settingsPath
  | .showSettings => Command.showSettings machine settingsPath
  | .editSettings => Command.editSettings machine settingsPath
  | .validateSettings => Command.validateSettings machine settingsPath
  | .completion shell => Command.completion shell

/-- How the program ends. -/
structure Exit where
  code : Nat
  /-- What is said about a failure. -/
  complaint : Option String
  deriving DecidableEq, Repr

/-- The exit code of a command that succeeds. -/
def successCode : Nat := 0

/-- A short guide to the commands. -/
def usageText : String :=
  "Usage: " ++ programName ++ " [OPTIONS] <COMMAND>\n\nCommands:\n" ++
    String.join (Shell.commandNames.map fun name => "  " ++ name ++ "\n")

/-- The end of a program that runs no command. -/
def stopWith (stop : Stop) (world : World σ) : Exit × World σ :=
  match stop with
  | .help => (⟨successCode, none⟩, { world with out := world.out ++ usageText })
  | .version =>
    (⟨successCode, none⟩, { world with out := s!"{world.out}{programName} {programVersion}\n" })
  | .refused text => (⟨ErrorKind.usage.exitCode, none⟩, { world with
      notes := world.notes ++ "error: " ++ text ++ "\n" })

/-- The program: run the command of a command line. The settings file may be named by the
environment. -/
def runProgram (machine : Machine σ) (line : List String) (world : World σ) : Exit × World σ :=
  match Invocation.parse (machine.around.get? "CLOUDSTORE_CONFIG") line with
  | .error stop => stopWith stop world
  | .ok invocation =>
    match (invocation.action.run machine invocation.settingsPath).run.run world with
    | (.ok _, world) => (⟨successCode, none⟩, world)
    | (.error failure, world) => (⟨failure.exitCode, some failure.display⟩, world)

end BucketCare.Command

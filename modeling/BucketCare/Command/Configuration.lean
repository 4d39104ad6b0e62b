import BucketCare.Command.Diagnosis

/-!
# Settings and setup

The commands that show, check and edit the settings, and the one that sets them up by asking
questions at a terminal. A machine that runs a command has no terminal, so the setup ends at its
first question.

## Main definitions

* `showSettings`, `validateSettings`, `editSettings` — the commands on the settings
* `setUp` — the command that asks for the settings
-/

namespace BucketCare.Command

variable {σ : Type}

/-- Show the settings. -/
def showSettings (machine : Machine σ) (settingsPath : Option String) : Run σ Unit := do
  let path := Settings.path machine.around.home settingsPath
  let settings ← Run.settings machine settingsPath
  Run.printLine ("Current configuration: " ++ path)
  if !(← get).files.exists_ path then
    Run.printLine s!"  ⚠️  File not found, showing defaults (run '{programName} init')"
  Run.printLine ""
  printSettings settings

/-- Check the settings, and look for the credentials they lead to. -/
def validateSettings (machine : Machine σ) (settingsPath : Option String) : Run σ Unit := do
  Run.printLine "Validating configuration..."
  let settings ← Run.settings machine settingsPath
  Run.ofExcept settings.validate
  Run.printLine "  ✅ Valid configuration format"
  Run.printLine ("  Resolving credentials (" ++ credentialSource settings.store ++ ")...")
  let client ← Run.client machine settings
  let credentials ← Run.ofExcept client.credentials
  Run.printLine ("  ✅ Credentials resolved: access key " ++ Masking.mask credentials.accessKey)

/-- The editor that is used when none is named. -/
def usualEditor : String := "vi"

/-- Open the settings file in an editor, and check it afterwards. -/
def editSettings (machine : Machine σ) (settingsPath : Option String) : Run σ Unit := do
  let path := Settings.path machine.around.home settingsPath
  Run.printLine "Opening editor..."
  Run.printLine ("  File: " ++ path)
  Run.printLine ""
  let editor := (machine.around.get? "EDITOR").getD usualEditor
  let world ← get
  let (ending, files) := machine.edit editor path world.files
  set { world with files }
  match ending with
  | .missing error => throw ⟨[], .outside [error.text]⟩
  | .failed => Run.printLine "  ⚠️  Editor exited with error"
  | .done =>
    Run.printLine "  ✅ Configuration edited"
    let settings ← Run.settings machine settingsPath
    Run.ofExcept settings.validate
    Run.printLine "  ✅ Configuration valid"

/-- What the setup tells before its first question. -/
def setupGuide : List String :=
  ["This wizard will guide you through the configuration process.", "You will need:",
    "  1. The endpoint of your store (leave empty for AWS S3)", "  2. Its region",
    "  3. A profile name or an Access Key ID + Secret Access Key", ""]

/-- Why a question cannot be asked. -/
def noTerminal : String := "not a terminal"

/-- Set up the settings file. Whether an existing file is to be replaced is the first question. -/
def setUp (machine : Machine σ) (settingsPath : Option String) : Run σ Unit := do
  Run.printLine s!"🚀 Welcome to {programName} setup!"
  Run.printLine ""
  if (← get).files.exists_ (Settings.path machine.around.home settingsPath) then
    throw ⟨[], .outside ["IO error: " ++ noTerminal, noTerminal]⟩
  for line in setupGuide do
    Run.printLine line
  throw ⟨[], .outside ["Failed to get endpoint: IO error: " ++ noTerminal]⟩

end BucketCare.Command

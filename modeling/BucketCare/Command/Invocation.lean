import BucketCare.Command.Arguments
import BucketCare.Session

/-!
# The commands

The commands with their options, and the command that a command line asks for.

## Main definitions

* `Action` — the commands, each with its options
* `Invocation` — a command and the settings file that was named
* `Invocation.parse` — the invocation of a command line
-/

namespace BucketCare.Command

/-- What is asked of a listing of objects. -/
structure ListOptions where
  path : String
  limit : Option Nat
  recursive : Bool
  out : Option String
  deriving DecidableEq, Repr

/-- What is asked of a listing of versions. -/
structure VersionOptions where
  path : String
  limit : Option Nat
  /-- Only entries at least this many seconds old. -/
  age : Option Nat
  /-- Only entries at most this many seconds old. -/
  since : Option Nat
  /-- Keep the entries that stand in for directories. -/
  dirs : Bool
  quiet : Bool
  out : Option String
  csv : Option String
  separator : Option String
  /-- Delete what can be pruned. -/
  delete : Bool
  dryRun : Bool
  pageSize : Option Nat
  deriving DecidableEq, Repr

/-- What is asked when delete markers are removed. -/
structure UndeleteOptions where
  path : String
  since : Option Nat
  dryRun : Bool
  pageSize : Option Nat
  deriving DecidableEq, Repr

/-- What is asked when deleted objects are restored. -/
structure RestoreOptions where
  path : String
  since : Option Nat
  dryRun : Bool
  deriving DecidableEq, Repr

/-- What is asked of a listing of pending uploads. -/
structure PendingOptions where
  path : String
  age : Option Nat
  /-- Abort what is listed. -/
  purge : Bool
  /-- Show the parts of each upload. -/
  parts : Bool
  deriving DecidableEq, Repr

/-- What is asked when keys of a file are deleted. -/
structure BulkDeleteOptions where
  path : String
  file : String
  pageSize : Option Nat
  dryRun : Bool
  deriving DecidableEq, Repr

/-- What is asked when credentials are issued. -/
structure SessionOptions where
  request : SessionRequest
  json : Bool
  deriving DecidableEq, Repr

/-- What is asked when a directory is uploaded. -/
structure UploadOptions where
  source : String
  dest : String
  threads : Option Nat
  largest : Option Nat
  ignoreFailures : Bool
  overwrite : Bool
  seed : Option Nat
  deriving DecidableEq, Repr

/-- The commands, each with its options. -/
inductive Action where
  | list (options : ListOptions)
  | versions (options : VersionOptions)
  | undelete (options : UndeleteOptions)
  | restore (options : RestoreOptions)
  | pending (options : PendingOptions)
  | makeBucket (bucket : String) (region : Option String)
  | region (bucket : String)
  | bulkDelete (options : BulkDeleteOptions)
  | policy (path : String) (readOnly noMultipart : Bool)
  | session (options : SessionOptions)
  | diagnose (path : String)
  | capability (name path : String)
  | upload (options : UploadOptions)
  | init
  | showSettings
  | editSettings
  | validateSettings
  | completion (shell : String)
  deriving Repr

/-- A command and the settings file that was named. -/
structure Invocation where
  settingsPath : Option String
  action : Action
  deriving Repr

/-! ## Forms -/

/-- The name of the program. -/
def programName : String := "cloudstore"

/-- The version of the program. -/
def programVersion : String := "0.1.0"

/-- The numbers below this bound have 64 bits. -/
def word64 : Nat := Nat.pow 2 64

/-- An option without a value. -/
def flag (long : String) : OptionForm := ⟨long, none, .flag⟩

/-- An option that takes a number. -/
def number (long : String) : OptionForm := ⟨long, none, .natural word64⟩

/-- An option that takes a path. -/
def file (long : String) : OptionForm := ⟨long, none, .path⟩

/-- An option that takes a text. -/
def text (long : String) : OptionForm := ⟨long, none, .text⟩

/-- The options of every level. -/
def commonOptions : List OptionForm := [file "config", ⟨"verbose", some 'v', .flag⟩]

/-- A command: its name, what it allows besides the common options, and what it stands for. -/
structure Form where
  name : String
  options : List OptionForm
  arguments : List OptionKind
  build : Words → Action

/-- The commands on one path. -/
def pathForms : List Form :=
  [{ name := "ls"
     options := [number "limit", ⟨"recursive", some 'r', .flag⟩, file "out"]
     arguments := [.text]
     build := fun w =>
      .list ⟨w.argument 0, w.natural? "limit", w.has "recursive", w.value? "out"⟩ },
    { name := "listversions"
      options := [number "limit", number "age", number "since", flag "dirs",
        ⟨"quiet", some 'q', .flag⟩, file "out", file "csv", text "separator", flag "delete",
        flag "dry-run", number "page-size"]
      arguments := [.text]
      build := fun w => .versions
        { path := w.argument 0, limit := w.natural? "limit", age := w.natural? "age"
          since := w.natural? "since", dirs := w.has "dirs", quiet := w.has "quiet"
          out := w.value? "out", csv := w.value? "csv", separator := w.value? "separator"
          delete := w.has "delete", dryRun := w.has "dry-run"
          pageSize := w.natural? "page-size" } },
    { name := "undelete"
      options := [number "since", flag "dry-run", number "page-size"]
      arguments := [.text]
      build := fun w => .undelete
        ⟨w.argument 0, w.natural? "since", w.has "dry-run", w.natural? "page-size"⟩ },
    { name := "restore"
      options := [number "since", flag "dry-run"]
      arguments := [.text]
      build := fun w => .restore ⟨w.argument 0, w.natural? "since", w.has "dry-run"⟩ },
    { name := "listmultiparts"
      options := [number "age", flag "purge", flag "parts"]
      arguments := [.text]
      build := fun w => .pending ⟨w.argument 0, w.natural? "age", w.has "purge", w.has "parts"⟩ },
    { name := "bulkdelete"
      options := [number "page-size", flag "dry-run"]
      arguments := [.text, .path]
      build := fun w => .bulkDelete
        ⟨w.argument 0, w.argument 1, w.natural? "page-size", w.has "dry-run"⟩ },
    { name := "iampolicy"
      options := [flag "read-only", flag "no-multipart"]
      arguments := [.text]
      build := fun w => .policy (w.argument 0) (w.has "read-only") (w.has "no-multipart") },
    { name := "storediag", options := [], arguments := [.text]
      build := fun w => .diagnose (w.argument 0) },
    { name := "pathcapability", options := [], arguments := [.text, .text]
      build := fun w => .capability (w.argument 0) (w.argument 1) }]

/-- The commands on buckets, sessions, directories and the program itself. -/
def otherForms : List Form :=
  [{ name := "mkbucket"
     options := [text "region"]
     arguments := [.text]
     build := fun w => .makeBucket (w.argument 0) (w.value? "region") },
    { name := "region", options := [], arguments := [.text]
      build := fun w => .region (w.argument 0) },
    { name := "sessionkeys"
      options := [text "role", text "session-name", ⟨"duration", none, .integer⟩, flag "json"]
      arguments := []
      build := fun w => .session
        ⟨⟨w.value? "role", w.value? "session-name",
          ((w.value? "duration").bind readInteger32).getD SessionRequest.defaultSeconds⟩,
          w.has "json"⟩ },
    { name := "cloudup"
      options := [number "threads", number "largest", flag "ignore-failures", flag "overwrite",
        number "seed"]
      arguments := [.path, .text]
      build := fun w => .upload
        ⟨w.argument 0, w.argument 1, w.natural? "threads", w.natural? "largest",
          w.has "ignore-failures", w.has "overwrite", w.natural? "seed"⟩ },
    { name := "init", options := [], arguments := [], build := fun _ => .init },
    { name := "completion", options := [], arguments := [.text]
      build := fun w => .completion (w.argument 0) }]

/-- The commands that have no commands below them. -/
def forms : List Form := pathForms ++ otherForms

/-- The name of the command that has commands below it. -/
def settingsCommand : String := "config"

/-- The commands on the settings. -/
def settingsForms : List Form :=
  [⟨"show", [], [], fun _ => .showSettings⟩, ⟨"edit", [], [], fun _ => .editSettings⟩,
    ⟨"validate", [], [], fun _ => .validateSettings⟩]

/-! ## Reading -/

/-- What a command allows. -/
def Form.level (form : Form) : Words.Level :=
  ⟨commonOptions ++ form.options, form.arguments, false, false⟩

/-- What stands before the name of a command. -/
def nameLevel (hasVersion : Bool) : Words.Level := ⟨commonOptions, [], true, hasVersion⟩

/-- Help on the commands that some names lead to; unknown names are refused. -/
def helpOn : List String → Stop
  | [] => .help
  | ["help"] => .help
  | [name] =>
    if name = settingsCommand ∨ forms.any (·.name == name) then .help
    else .refused ("unrecognized subcommand '" ++ name ++ "'")
  | [name, below] =>
    if name = settingsCommand ∧ (below = "help" ∨ settingsForms.any (·.name == below)) then .help
    else .refused ("unrecognized subcommand '" ++ below ++ "'")
  | _ => .refused "unrecognized subcommand"

/-- Help on the commands on the settings that some names lead to. -/
def helpOnSettings (names : List String) : Stop := helpOn (settingsCommand :: names)

/-- The settings file that is named on the levels of a command line, the lowest level first, or in
the environment; an empty name there is refused, unless every level names a file. -/
def settingsPath (usual : Option String) (levels : List Words) : Except Stop (Option String) :=
  let named := levels.map (·.value? "config")
  if usual = some "" ∧ named.any (·.isNone) then
    .error (.refused "a value is required for '--config <CONFIG>' but none was supplied")
  else .ok (named.findSome? id <|> usual)

/-- The invocation of a command, once all words are read. -/
def invoke (usual : Option String) (form : Form) (words : Words) (above : List Words) :
    Except Stop Invocation :=
  if words.arguments.length < form.arguments.length then
    .error (.refused "the following required arguments were not provided")
  else do
    let path ← settingsPath usual (words :: (← above.mapM Words.settle))
    return ⟨path, form.build words⟩

/-- The invocation of one of some commands by its name and the words behind it. -/
def invokeOne (usual : Option String) (choices : List Form) (above : List Words) (name : String)
    (rest : List String) : Except Stop Invocation :=
  match choices.find? (·.name == name) with
  | none => .error (.refused ("unrecognized subcommand '" ++ name ++ "'"))
  | some form =>
    match Words.read form.level .none_ rest with
    | .error stop => .error stop
    | .ok (words, _) => invoke usual form words above

/-- The refusal of a command line that names no command. -/
def noCommand : Stop := .refused "a subcommand is required but one was not provided"

/-- The invocation of a command on the settings. -/
def invokeSettings (usual : Option String) (above : List Words) (rest : List String) :
    Except Stop Invocation :=
  match Words.read (nameLevel false) .none_ rest with
  | .error stop => .error stop
  | .ok (_, none) => .error noCommand
  | .ok (words, some (name, rest)) =>
    if name = "help" then .error (helpOnSettings rest)
    else invokeOne usual settingsForms (words :: above) name rest

/-- The invocation of a command line; `usual` is the settings file that the environment names. -/
def Invocation.parse (usual : Option String) (line : List String) : Except Stop Invocation :=
  match Words.read (nameLevel true) .none_ line with
  | .error stop => .error stop
  | .ok (_, none) => .error noCommand
  | .ok (words, some (name, rest)) =>
    if name = "help" then .error (helpOn rest)
    else if name = settingsCommand then invokeSettings usual [words] rest
    else invokeOne usual forms [words] name rest

end BucketCare.Command

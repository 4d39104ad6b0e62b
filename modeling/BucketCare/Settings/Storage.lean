import BucketCare.Files.Tree
import BucketCare.Settings.Document

/-!
# The settings file

Where the settings file lies, and how it is loaded and saved. A file that is named must exist; the
file at the usual place may be missing, and then the defaults hold. Loaded settings are checked;
saved ones are not.

A saved file is readable by its owner alone. The document is made before the file is touched, so
that settings which cannot be written leave an existing file as it is. Every step of saving that
fails says with the failure how it leaves the tree.

## Main definitions

* `Settings.usualPath`, `Settings.path` — where the file lies
* `Settings.load`, `Settings.loadFile` — the settings of a file
* `Settings.save` — settings put into a file
-/

namespace BucketCare.Settings

/-- The usual place of the settings file below a home directory. -/
def usualPath (home : String) : String :=
  Route.join (Route.join (Route.join home ".config") "cloudstore") "config.toml"

/-- The path of the settings file: the one that is named, or else the usual place. -/
def path (home : String) (named : Option String) : String := named.getD (usualPath home)

/-- The settings of a file, which must be accepted. -/
def loadFile (tree : FileTree) (path : String) : Except Error Settings :=
  match tree.readText path with
  | .error e =>
    .error (.invalidConfig ("Failed to read config file " ++ path ++ ": " ++ e.text))
  | .ok text =>
    match read? text with
    | none => .error (.invalidConfig ("Failed to parse config file " ++ path ++ ": not understood"))
    | some settings => settings.validate.map fun _ => settings

/-- The settings that hold: those of the file that is named, or else of the file at the usual place,
or else the defaults. -/
def load (tree : FileTree) (home : String) (named : Option String) : Except Error Settings :=
  let path := path home named
  if tree.exists_ path then loadFile tree path
  else match named with
    | some path => .error (.configNotFound path)
    | none => .ok default

/-- The access mode of a settings file. -/
def fileMode : Nat := 0o600

/-- The tree with the directory that a settings file is to lie in. -/
def makeParent (tree : FileTree) (path : String) : Except (Error × FileTree) FileTree :=
  match Route.parent? path with
  | none => .ok tree
  | some parent =>
    if parent.isEmpty || tree.exists_ parent then .ok tree
    else match tree.makeDirs parent with
      | .ok made => .ok made
      | .error (e, left) =>
        .error (.config ("Failed to create config directory: " ++ e.text), left)

/-- The tree with a document in the settings file. -/
def writeDocument (tree : FileTree) (path document : String) :
    Except (Error × FileTree) FileTree :=
  match tree.write path document.toUTF8 with
  | .error e => .error (.config ("Failed to write config file: " ++ e.text), tree)
  | .ok written =>
    match written.setMode path fileMode with
    | .ok saved => .ok saved
    | .error e => .error (.io e, written)

/-- Put settings into the file that is named, or else into the file at the usual place. The answer
holds the outcome, which is the path of the file or a failure, and the tree as it is then. -/
def save (settings : Settings) (tree : FileTree) (home : String) (named : Option String) :
    Except Error String × FileTree :=
  let path := path home named
  match makeParent tree path with
  | .error (e, left) => (.error e, left)
  | .ok made =>
    match settings.write with
    | .error e => (.error e, made)
    | .ok document =>
      match writeDocument made path document with
      | .error (e, left) => (.error e, left)
      | .ok saved => (.ok path, saved)

end BucketCare.Settings

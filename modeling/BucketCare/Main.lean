import BucketCare.Command.Program
import Std.Time.DateTime.Timestamp

/-!
# The command line

The program on a machine: what a command touches is read into a tree of files, the command is run,
and what it printed and changed is handed back. No transport to a store and no editor is connected,
so requests fail, and the settings cannot be edited.
-/

namespace BucketCare.Program

/-- A tree with a directory, if there is one at a path. -/
def loadDirectory (tree : FileTree) (path : String) : IO FileTree := do
  if ← ((← IO.currentDir) / path).isDir then
    return (tree.makeDirs path).toOption.getD tree
  else return tree

/-- A tree with the file that a path leads to, if there is one, and the directory it lies in. -/
def loadFile (tree : FileTree) (path : String) : IO FileTree := do
  let place := (← IO.currentDir) / path
  let tree ← match place.parent with
    | some parent => loadDirectory tree parent.toString
    | none => pure tree
  if ← place.isDir then loadDirectory tree path
  else if ← place.pathExists then
    return (tree.write path (← IO.FS.readBinFile place)).toOption.getD tree
  else return tree

/-- A tree with all that lies below a directory. Symbolic links are passed over. -/
partial def loadAll (tree : FileTree) (path : String) : IO FileTree := do
  let place := (← IO.currentDir) / path
  if !(← place.isDir) then loadFile tree path
  else
    let mut tree ← loadDirectory tree path
    for entry in ← place.readDir do
      let inner := Route.join path entry.fileName
      match (← entry.path.symlinkMetadata).type with
      | .dir => tree ← loadAll tree inner
      | .file => tree ← loadFile tree inner
      | _ => pure ()
    return tree

/-- Write a file that a command has changed. -/
def saveFile (before after : FileTree) (path : String) : IO Unit := do
  match after.readBytes path with
  | .error _ => return ()
  | .ok content =>
    let same := match before.readBytes path with
      | .ok old => old == content
      | .error _ => false
    if !same then IO.FS.writeBinFile ((← IO.currentDir) / path) content

/-- What the environment says. -/
def surroundings : IO Surroundings := do
  let mut environment := []
  for name in Command.knownVariables ++ ["CLOUDSTORE_CONFIG"] do
    match ← IO.getEnv name with
    | some value => environment := (name, value) :: environment
    | none => pure ()
  return ⟨(environment.lookup "HOME").getD "/", environment⟩

/-- Two hexadecimal digits for each byte. -/
def hexadecimal (bytes : ByteArray) : String :=
  String.ofList (bytes.toList.flatMap fun b => Json.hexPair b.toNat)

/-- What a command finds around it on this machine. -/
def machine (around : Surroundings) : IO (Command.Machine Unit) := do
  let now ← Std.Time.Timestamp.now
  let random ← IO.getRandomBytes 24
  let name := hexadecimal (random.extract 0 16)
  let seed := (random.extract 16 24).toUInt64LE!
  return {
    around
    link := .down "no transport to a store is connected"
    now := ⟨now.toNanosecondsSinceUnixEpoch.toInt⟩
    freshName := Command.programName ++ "-" ++ name
    seed
    interrupt := none
    edit := fun _ _ tree => (.missing ⟨.other, "no editor is connected"⟩, tree) }

/-- Run a command line, and give its exit code. -/
def run (line : List String) : IO Nat := do
  let around ← surroundings
  let here := Route.names (← IO.currentDir).toString
  let empty : FileTree := ⟨Node.emptyDir.put here .emptyDir, here⟩
  let usual := around.get? "CLOUDSTORE_CONFIG"
  let (files, directory) := match Command.Invocation.parse usual line with
    | .ok invocation => (invocation.files around, invocation.action.directory?)
    | .error _ => ([], none)
  let tree ← files.foldlM loadFile empty
  let tree ← directory.elim (pure tree) (loadAll tree)
  let (exit, world) := Command.runProgram (← machine around) line ⟨tree, "", "", ()⟩
  IO.print world.out
  IO.eprint world.notes
  files.forM (saveFile tree world.files)
  match exit.complaint with
  | some text => IO.eprintln text
  | none => pure ()
  return exit.code

end BucketCare.Program

/-- The program. -/
def main (line : List String) : IO UInt32 := do
  return UInt32.ofNat (← BucketCare.Program.run line)

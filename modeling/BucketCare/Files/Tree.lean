import BucketCare.Files.Route

/-!
# Reading and writing files

The operations on a tree of files, seen from a working directory. Each gives its answer or the
failure of the file system. A failed operation changes nothing, except that directories which were
made on the way to one that cannot be made stay: such a failure comes with the tree as it is then.

## Main definitions

* `FileTree` — a tree and a working directory
* `FileTree.exists_`, `FileTree.isDirectory` — what a path leads to
* `FileTree.readBytes`, `FileTree.readText` — the content of a file
* `FileTree.write`, `FileTree.setMode`, `FileTree.makeDirs` — changes
-/

namespace BucketCare

/-- A tree of files and a working directory, given by the names on the way to it. -/
structure FileTree where
  root : Node
  cwd : List String
  deriving Inhabited

namespace FileTree

/-- A tree that holds only its root. -/
def empty : FileTree := ⟨.emptyDir, []⟩

/-- The place that a path leads to. -/
def locate (tree : FileTree) (path : String) : Except IoError Place :=
  Route.locate tree.root tree.cwd path

/-- What a path leads to. -/
def find (tree : FileTree) (path : String) : Except IoError Node :=
  match tree.locate path with
  | .ok (.found _ node) => .ok node
  | .ok (.free _) => .error .noEntry
  | .error e => .error e

/-- A path leads to something. -/
def exists_ (tree : FileTree) (path : String) : Bool :=
  match tree.find path with
  | .ok _ => true
  | .error _ => false

/-- A path leads to a directory. -/
def isDirectory (tree : FileTree) (path : String) : Bool :=
  match tree.find path with
  | .ok node => node.isDir
  | .error _ => false

/-- The bytes of a file. -/
def readBytes (tree : FileTree) (path : String) : Except IoError ByteArray :=
  match tree.find path with
  | .ok (.file content _) => .ok content
  | .ok _ => .error .isDirectory
  | .error e => .error e

/-- The text of a file. -/
def readText (tree : FileTree) (path : String) : Except IoError String :=
  match tree.readBytes path with
  | .ok content =>
    match String.fromUTF8? content with
    | some text => .ok text
    | none => .error .notText
  | .error e => .error e

/-- A path with a slash at its end can only lead to a directory. -/
def endsInSlash (path : String) : Bool := path.toList.getLast? == some '/'

/-- The tree with new content for a file, which is made if its name is free. A file that exists
keeps its mode. -/
def write (tree : FileTree) (path : String) (content : ByteArray) : Except IoError FileTree :=
  if endsInSlash path && !(path.toList.all (· == '/')) then
    match tree.locate (String.ofList (Route.dropSlashes path.toList)) with
    | .ok _ => .error .isDirectory
    | .error e => .error e
  else match tree.locate path with
    | .ok (.found at_ (.file _ mode)) =>
      .ok { tree with root := tree.root.put at_ (.file content mode) }
    | .ok (.found _ _) => .error .isDirectory
    | .ok (.free at_) => .ok { tree with root := tree.root.put at_ (.file content Node.newMode) }
    | .error e => .error e

/-- The tree with another mode for a file. -/
def setMode (tree : FileTree) (path : String) (mode : Nat) : Except IoError FileTree :=
  match tree.locate path with
  | .ok (.found at_ (.file content _)) =>
    .ok { tree with root := tree.root.put at_ (.file content mode) }
  | .ok (.found _ _) => .ok tree
  | .ok (.free _) => .error .noEntry
  | .error e => .error e

/-- The tree with one more directory. -/
def makeDir (tree : FileTree) (path : String) : Except IoError FileTree :=
  match Route.vacancy tree.root tree.cwd path with
  | .ok at_ => .ok { tree with root := tree.root.put at_ .emptyDir }
  | .error e => .error e

/-- The tree with a directory, unless it is there already. -/
def ensureDir (tree : FileTree) (path : String) : Except IoError FileTree :=
  match tree.makeDir path with
  | .ok tree => .ok tree
  | .error e => if tree.isDirectory path then .ok tree else .error e

/-- The tree with a directory and all directories above it. The number bounds the names of the
path. -/
def makeDirsWithin : Nat → FileTree → String → Except (IoError × FileTree) FileTree
  | 0, tree, _ => .ok tree
  | fuel + 1, tree, path =>
    if path.isEmpty then .ok tree
    else match tree.makeDir path with
      | .ok made => .ok made
      | .error e =>
        if e = .noEntry then
          match Route.parent? path with
          | some parent =>
            match makeDirsWithin fuel tree parent with
            | .ok above =>
              match above.ensureDir path with
              | .ok made => .ok made
              | .error e => .error (e, above)
            | .error failure => .error failure
          | none => .error (.mk .other "failed to create whole tree", tree)
        else if tree.isDirectory path then .ok tree
        else .error (e, tree)

/-- The tree with a directory and all directories above it. -/
def makeDirs (tree : FileTree) (path : String) : Except (IoError × FileTree) FileTree :=
  makeDirsWithin (path.length + 1) tree path

end FileTree

end BucketCare

/-!
# A tree of files

Files, symbolic links and directories, and the change of a tree at a place.

## Main definitions

* `Node` — a file, a link or a directory with its entries
* `Node.get?` — what stands at a place below a node
* `Node.put` — a node with something else at a place below it
* `Node.files` — the files below a node
-/

namespace BucketCare

/-- A file, a symbolic link or a directory. -/
inductive Node where
  /-- A file with its bytes and its access mode. -/
  | file (content : ByteArray) (mode : Nat)
  /-- A symbolic link to a path. -/
  | link (target : String)
  /-- A directory with its entries, by name. -/
  | dir (entries : List (String × Node))
  deriving Inhabited

namespace Node

/-- The access mode of a new file. -/
def newMode : Nat := 0o644

/-- A directory without entries. -/
def emptyDir : Node := .dir []

/-- The node is a directory. -/
def isDir : Node → Bool
  | dir _ => true
  | _ => false

/-- What stands at a place below a node. No link is followed. -/
def get? : List String → Node → Option Node
  | [], node => some node
  | name :: rest, dir entries => (entries.lookup name).bind (get? rest)
  | _ :: _, _ => none

/-- The entries of a directory with another node under a name. -/
def putEntry (name : String) (node : Node) : List (String × Node) → List (String × Node)
  | [] => [(name, node)]
  | (n, old) :: rest => if n = name then (n, node) :: rest else (n, old) :: putEntry name node rest

/-- A node with something else at a place below it. Directories that are missing on the way are
made; nothing can be put below a file or a link. -/
def put : Node → List String → Node → Node
  | _, [], new => new
  | dir entries, name :: rest, new =>
    dir (putEntry name (put ((entries.lookup name).getD emptyDir) rest new) entries)
  | other, _ :: _, _ => other

mutual

/-- The files that are reached from a node through directories alone, each with the names on the
way to it and its size. -/
def files : Node → List (List String × Nat)
  | file content _ => [([], content.size)]
  | link _ => []
  | dir entries => filesOf entries

/-- The files that are reached from some entries. -/
def filesOf : List (String × Node) → List (List String × Nat)
  | [] => []
  | (name, node) :: rest =>
    (files node).map (fun (path, size) => (name :: path, size)) ++ filesOf rest

end

end Node

end BucketCare

import BucketCare.Error
import BucketCare.Files.Node
import BucketCare.Text.Blank

/-!
# Paths in a tree of files

How a written path leads to a place in a tree: name by name from the root or from the working
directory, up by two dots, and on along symbolic links, of which only so many are followed.

## Main definitions

* `Place` — where a path leads
* `Route.locate` — the place that a path leads to
* `Route.vacancy` — the place of a new entry that a path names
* `Route.join`, `Route.parent?` — paths put together and taken apart as texts
-/

namespace BucketCare

/-- Where a path leads: to something, or to a name that is still free in a directory. -/
inductive Place where
  | found (path : List String) (node : Node)
  | free (path : List String)

namespace Route

/-- The most symbolic links that are followed. -/
def maxLinks : Nat := 40

/-- The most bytes of one name. -/
def maxName : Nat := 255

/-- A path must have fewer bytes than this. -/
def maxPath : Nat := 4096

/-- The path begins at the root. -/
def isAbsolute (path : String) : Bool := path.toList.head? == some '/'

/-- The names of a path. A slash at its end stands for the directory itself. -/
def names (path : String) : List String :=
  let names := (Text.pieces '/' path).filter (· != "")
  if path.toList.getLast? == some '/' then names ++ ["."] else names

/-- Walk along the names of a path from a directory. `follow` walks on behind a link. -/
def step (follow : List String → List String → Except IoError Place) (root : Node) :
    (at_ : List String) → (names : List String) → Except IoError Place
  | at_, [] =>
    match root.get? at_ with
    | some node => .ok (.found at_ node)
    | none => .error .noEntry
  | at_, name :: rest =>
    match root.get? at_ with
    | some (.dir entries) =>
      if name = "." then step follow root at_ rest
      else if name = ".." then step follow root at_.dropLast rest
      else if maxName < name.utf8ByteSize then .error .nameTooLong
      else match entries.lookup name with
        | some (.link target) =>
          if target.isEmpty then .error .noEntry
          else follow (if isAbsolute target then [] else at_) (names target ++ rest)
        | some _ => step follow root (at_ ++ [name]) rest
        | none => if rest.isEmpty then .ok (.free (at_ ++ [name])) else .error .noEntry
    | some _ => .error .notDirectory
    | none => .error .noEntry

/-- Walk along the names of a path and the links on the way; one link fewer than the number is
followed. -/
def walk (root : Node) : Nat → List String → List String → Except IoError Place
  | 0 => fun _ _ => .error .linkLoop
  | links + 1 => step (walk root links) root

/-- What is wrong with a path, whatever the tree. -/
def fault? (path : String) : Option IoError :=
  if path.isEmpty then some .noEntry
  else if path.toList.contains '\x00' then some .zeroByte
  else if maxPath ≤ path.utf8ByteSize then some .nameTooLong
  else none

/-- The place that a path leads to from a working directory. -/
def locate (root : Node) (cwd : List String) (path : String) : Except IoError Place :=
  match fault? path with
  | some e => .error e
  | none => walk root (maxLinks + 1) (if isAbsolute path then [] else cwd) (names path)

/-- The place of a new entry that a path names: its directory is there, and its name is free. A
link that has the name is not followed, and slashes at the end of the path do not count. -/
def vacancy (root : Node) (cwd : List String) (path : String) : Except IoError (List String) :=
  match fault? path with
  | some e => .error e
  | none =>
    let names := (Text.pieces '/' path).filter (· != "")
    match names.getLast? with
    | none => .error .exists_
    | some name =>
      match walk root (maxLinks + 1) (if isAbsolute path then [] else cwd) names.dropLast with
      | .ok (.found at_ (.dir entries)) =>
        if name = "." || name = ".." then .error .exists_
        else if maxName < name.utf8ByteSize then .error .nameTooLong
        else if (entries.lookup name).isSome then .error .exists_
        else .ok (at_ ++ [name])
      | .ok (.found _ _) => .error .notDirectory
      | .ok (.free _) => .error .noEntry
      | .error e => .error e

/-- A path below another. -/
def join (base path : String) : String :=
  if isAbsolute path || base.isEmpty then path
  else if base.toList.getLast? == some '/' then base ++ path
  else base ++ "/" ++ path

/-- A text without the slashes at its end. -/
def dropSlashes (cs : List Char) : List Char := (cs.reverse.dropWhile (· == '/')).reverse

/-- Names without those at their end that lead nowhere: empty ones, and single dots. -/
def dropIdle (names : List String) : List String :=
  (names.reverse.dropWhile fun n => n == "" || n == ".").reverse

/-- The path of the directory that holds what a path leads to; the root and the empty path have
none. Slashes and single dots at the end of a path do not count. -/
def parent? (path : String) : Option String :=
  match Text.pieces '/' path with
  | [] => none
  | first :: names =>
    match dropIdle names with
    | [] => if first = "" then none else some ""
    | names =>
      match dropIdle names.dropLast with
      | [] => some (if first = "" then "/" else first)
      | above => some ("/".intercalate (first :: above))

end Route

end BucketCare

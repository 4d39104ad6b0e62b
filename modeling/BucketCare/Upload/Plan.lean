import BucketCare.Files.Tree
import BucketCare.Path
import BucketCare.Random.Source

/-!
# Which files are uploaded, and in which order

Every file that is reached from a directory through directories alone is uploaded below a path,
under the names on the way to it. Symbolic links are not followed, except when the directory itself
is named by one.

The biggest files come first, so that none of them finishes long after all others; the rest follow
in random order, to spread the requests over the keys of the store.

## Main definitions

* `UploadFile` — a local file and the key it is uploaded to
* `scan` — the files below a directory, by the keys they are uploaded to
* `Plan.sort` — files by size, the biggest first, and then by key
* `Plan.order?` — the order of uploads
-/

namespace BucketCare

/-- A local file and the key it is uploaded to. -/
structure UploadFile where
  /-- The path of the file. -/
  source : String
  key : String
  size : Nat
  deriving DecidableEq, Repr, Inhabited

/-! ## Finding files -/

namespace Scan

/-- The upload of a file that is found below a directory. -/
def upload (directory : String) (dest : StorePath) (names : List String) (size : Nat) :
    UploadFile :=
  let relative := "/".intercalate names
  ⟨Route.join directory relative, (dest.child relative).key, size⟩

/-- Files by their keys. -/
def sort (files : List UploadFile) : List UploadFile :=
  files.mergeSort fun a b => decide (a.key ≤ b.key)

end Scan

/-- The files below a directory, with the keys they are uploaded to, in the order of the keys. The
limit on the length of a path is left out: a directory so deep that its path is longer than
`Route.maxPath` is read here like any other. -/
def scan (tree : FileTree) (directory : String) (dest : StorePath) :
    Except Error (List UploadFile) :=
  match tree.find directory with
  | .ok (.dir entries) =>
    .ok (Scan.sort ((Node.files (.dir entries)).map fun (names, size) =>
      Scan.upload directory dest names size))
  | _ => .error (.notFound ("source directory " ++ directory))

/-! ## Ordering files -/

namespace Plan

/-- One file comes before another: it is bigger, or as big and its key comes first. -/
def compare (a b : UploadFile) : Ordering :=
  (compareOfLessAndEq b.size a.size).then (compareOfLessAndEq a.key b.key)

/-- Files by size, the biggest first, and then by key. -/
def sort (files : List UploadFile) : List UploadFile :=
  files.mergeSort fun a b => (compare a b).isLE

/-- The order of uploads: the biggest files, as many as are asked for, and then the rest in random
order. -/
def order? {ρ : Type} (source : RandomSource ρ) (largest : Nat) (files : List UploadFile)
    (state : ρ) : Option (List UploadFile × ρ) :=
  let sorted := sort files
  (source.shuffle? (sorted.drop largest) state).map fun (rest, state) =>
    (sorted.take largest ++ rest, state)

end Plan

end BucketCare

import BucketCare.Files.Tree

/-!
# A file that is read piece by piece

A file as its reader meets it: first its size is asked for, then it is opened, and then its bytes
are asked for piece by piece. Others may change or remove it in between, so each question has an
answer of its own and may fail when those before it did not.

## Main definitions

* `LocalFile` — a file by the answers to these questions
* `LocalFile.ofBytes`, `FileTree.localFile` — a file that nobody changes
-/

namespace BucketCare

/-- A file by the answers to the questions of its reader. -/
structure LocalFile where
  /-- The number of its bytes. -/
  size : Except IoError Nat
  /-- All its bytes as the body of one request, or the failure of the request's sender. -/
  whole : Except Error ByteArray
  /-- It can be opened. -/
  opened : Except IoError Unit
  /-- Some bytes from a place on. -/
  read : (start length : Nat) → Except IoError ByteArray
  /-- As many bytes are read as were asked for. -/
  size_read : ∀ start length bytes, read start length = .ok bytes → bytes.size = length

namespace LocalFile

/-- Some bytes from a place on, where all of them must be there. -/
def piece (content : ByteArray) (start length : Nat) : Except IoError ByteArray :=
  if start + length ≤ content.size then .ok (content.extract start (start + length))
  else .error .endOfFile

theorem size_piece {content bytes : ByteArray} {start length : Nat}
    (h : piece content start length = .ok bytes) : bytes.size = length := by
  unfold piece at h
  split at h
  next hfits =>
    obtain rfl := Except.ok.inj h
    rw [ByteArray.size_extract]
    omega
  next => cases h

/-- A file that holds some bytes and is not changed. -/
def ofBytes (content : ByteArray) : LocalFile where
  size := .ok content.size
  whole := .ok content
  opened := .ok ()
  read := piece content
  size_read _ _ _ := size_piece

/-- A path that leads to no file. -/
def missing (error : IoError) : LocalFile where
  size := .error error
  whole := .error (.io error)
  opened := .error error
  read _ _ := .error error
  size_read _ _ _ := nofun

end LocalFile

/-- What a path leads to, as a file that is not changed while it is read. -/
def FileTree.localFile (tree : FileTree) (path : String) : LocalFile :=
  match tree.readBytes path with
  | .ok content => .ofBytes content
  | .error error => .missing error

end BucketCare

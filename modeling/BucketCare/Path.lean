import BucketCare.Error
import BucketCare.Text.Blank

/-!
# Places in a store

A bucket together with an object key or a key prefix, written as a URI with the scheme `s3` or
`s3a`.

## Main definitions

* `StorePath` — a bucket and a key
* `StorePath.parse` — the place that a URI names
* `StorePath.folder` — the key as the common start of everything below it
* `StorePath.child` — a relative key resolved below a place
* `isDirectoryMarker` — the keys that stand in for directories
-/

namespace BucketCare

open Text (beginsWith)

/-- A bucket plus an object key or key prefix. -/
structure StorePath where
  bucket : String
  key : String
  deriving DecidableEq, Repr, Inhabited

/-- A key that ends in a slash stands in for a directory. -/
def isDirectoryMarker (key : String) : Bool := key.toList.getLast? == some '/'

namespace StorePath

/-- The schemes a URI may begin with. -/
def schemes : List String := ["s3://", "s3a://"]

/-- What follows the scheme of a URI, if it has one of the known schemes. -/
def stripScheme (uri : List Char) : Option (List Char) :=
  (schemes.map String.toList).findSome? fun scheme =>
    if beginsWith scheme uri then some (uri.drop scheme.length) else none

/-- The place that a URI names: after the scheme a bucket that is not empty up to the first
slash, and behind that slash the key. -/
def parse (uri : String) : Except Error StorePath :=
  match stripScheme uri.toList with
  | none =>
    .error (.invalidPath (uri ++ " (expected s3://bucket/path or s3a://bucket/path)"))
  | some rest =>
    let bucket := rest.takeWhile (· != '/')
    let key := (rest.dropWhile (· != '/')).drop 1
    if bucket.isEmpty then .error (.invalidPath (uri ++ " has no bucket"))
    else .ok ⟨String.ofList bucket, String.ofList key⟩

/-- The written form of a place. -/
def display (path : StorePath) : String := "s3://" ++ path.bucket ++ "/" ++ path.key

instance : ToString StorePath := ⟨display⟩

/-- The place is the whole bucket. -/
def isRoot (path : StorePath) : Bool := path.key.isEmpty

/-- The key as the common start of all keys below it: empty at the root, otherwise ending in a
slash. -/
def folder (path : StorePath) : String :=
  if path.isRoot || isDirectoryMarker path.key then path.key else path.key ++ "/"

/-- A relative key, less the slashes it begins with, resolved below a place. -/
def child (path : StorePath) (relative : String) : StorePath :=
  ⟨path.bucket, path.folder ++ String.ofList (relative.toList.dropWhile (· == '/'))⟩

end StorePath

end BucketCare

import BucketCare.Instant
import BucketCare.Path

/-!
# Versions of objects

A version listing holds the versions of objects and the delete markers over them. This file says
what is counted, what is pruned and what is undeleted.

## Main definitions

* `VersionEntry` — a version or a delete marker
* `VersionStats` — running totals over a listing
* `VersionEntry.isPrunable`, `VersionEntry.isUndeletable` — what pruning and undeleting remove
* `VersionEntry.sort` — the order of a page: by key, the latest entry first, then the newest
-/

namespace BucketCare

/-- A version or a delete marker of an object. -/
structure VersionEntry where
  key : String
  /-- Absent for an entry that the store gave no version. -/
  version : Option String
  size : Int
  time : Option Instant
  isLatest : Bool
  isMarker : Bool
  deriving DecidableEq, Repr, Inhabited

/-- An object, or one version of it, to delete. -/
structure Candidate where
  key : String
  /-- Absent to delete the key itself. -/
  version : Option String
  deriving DecidableEq, Repr, Inhabited

namespace VersionEntry

/-- The entry's key stands in for a directory. -/
def isDirectory (entry : VersionEntry) : Bool := isDirectoryMarker entry.key

/-- What pruning removes: superseded versions and every delete marker. -/
def isPrunable (entry : VersionEntry) : Bool := entry.isMarker || !entry.isLatest

/-- What undeleting removes: the latest delete marker of a file. Markers over directories stay. -/
def isUndeletable (entry : VersionEntry) : Bool :=
  entry.isMarker && entry.isLatest && !entry.isDirectory

/-- The request to delete this entry. -/
def candidate (entry : VersionEntry) : Candidate := ⟨entry.key, entry.version⟩

/-- The order of a page: by key, the latest entry of a key first, then the newest; an absent time
counts as the oldest. -/
def compare (a b : VersionEntry) : Ordering :=
  (compareOfLessAndEq a.key b.key).then <|
    (Ord.compare b.isLatest a.isLatest).then <| Instant.compareAbsentFirst b.time a.time

/-- The entries of a page in order; entries that tie keep their places. -/
def sort (entries : List VersionEntry) : List VersionEntry :=
  entries.mergeSort fun a b => (compare a b).isLE

end VersionEntry

/-- Running totals over a version listing. -/
structure VersionStats where
  versions : Nat
  tombstones : Nat
  directoryMarkers : Nat
  /-- The bytes of the versions. They are counted in 64 bits with a sign, and the count begins anew
  past the greatest number. -/
  bytes : Int64
  deriving DecidableEq, Repr, Inhabited

namespace VersionStats

/-- No entries yet. -/
def zero : VersionStats := ⟨0, 0, 0, 0⟩

/-- The totals with one more entry. The size of a delete marker does not count. -/
def add (stats : VersionStats) (entry : VersionEntry) : VersionStats :=
  { versions := stats.versions + if entry.isMarker then 0 else 1
    tombstones := stats.tombstones + if entry.isMarker then 1 else 0
    directoryMarkers := stats.directoryMarkers + if entry.isDirectory then 1 else 0
    bytes := stats.bytes + if entry.isMarker then 0 else Int64.ofInt entry.size }

end VersionStats

end BucketCare

import BucketCare.Version

/-!
# Restoring deleted objects

A deleted object is hidden behind a latest delete marker; restoring it copies its newest real
version back. The planner reads a version listing in order, key by key and each key newest first,
and remembers only the key it is at, so a key may span pages.

## Main definitions

* `RestoreTarget` — a version to copy back
* `RestorePlanner` — the planner, with `observe` and `drain`
* `RestorePlanner.reference` — the targets of a whole listing, stated group by group
-/

namespace BucketCare

/-- A version to copy back over a deleted object. -/
structure RestoreTarget where
  key : String
  version : String
  deriving DecidableEq, Repr, Inhabited

/-- What the planner remembers of a listing. -/
structure RestorePlanner where
  /-- The key of the last entry. -/
  currentKey : Option String
  /-- That key is hidden behind a delete marker that was accepted. -/
  hidden : Bool
  /-- A target for that key was found. -/
  resolved : Bool
  /-- The targets found and not yet taken. -/
  targets : List RestoreTarget
  deriving DecidableEq, Repr, Inhabited

namespace RestorePlanner

/-- Nothing read yet. -/
def new : RestorePlanner := ⟨none, false, false, []⟩

/-- The filter of delete markers is asked about this entry: it is the first of its key and a
delete marker that undeleting would remove. -/
def asks (planner : RestorePlanner) (entry : VersionEntry) : Bool :=
  planner.currentKey != some entry.key && entry.isUndeletable

/-- One more entry of the listing; `accept` says which delete markers count. -/
def observe (accept : VersionEntry → Bool) (planner : RestorePlanner) (entry : VersionEntry) :
    RestorePlanner :=
  if planner.currentKey ≠ some entry.key then
    { planner with
      currentKey := some entry.key
      hidden := entry.isUndeletable && accept entry
      resolved := false }
  else if planner.hidden && !planner.resolved && !entry.isMarker then
    match entry.version with
    | some version =>
      { planner with targets := planner.targets ++ [⟨entry.key, version⟩], resolved := true }
    | none => planner
  else planner

/-- Take the targets found so far. -/
def drain (planner : RestorePlanner) : List RestoreTarget × RestorePlanner :=
  (planner.targets, { planner with targets := [] })

/-- The target of the entries of one key: if the first is an accepted latest delete marker of a
file, the first later real version that has an identifier. -/
def groupTarget (accept : VersionEntry → Bool) : List VersionEntry → Option RestoreTarget
  | [] => none
  | first :: later =>
    if first.isUndeletable && accept first then
      later.findSome? fun entry =>
        if entry.isMarker then none else entry.version.map fun v => ⟨entry.key, v⟩
    else none

/-- The targets of a listing, one group of entries with the same key after the other. -/
def reference (accept : VersionEntry → Bool) (entries : List VersionEntry) :
    List RestoreTarget :=
  (entries.splitBy fun a b => a.key == b.key).filterMap (groupTarget accept)

end RestorePlanner

end BucketCare

import BucketCare.Command.World
import BucketCare.Csv
import BucketCare.Decimal
import BucketCare.Listing.Objects
import BucketCare.Listing.Versions
import BucketCare.Store.Operations

/-!
# Listing objects and versions

The commands that list what lies below a path, to the screen or to a file, and that prune versions.

## Main definitions

* `ListState.visit` — what a page of objects adds to a listing
* `VersionState.visit` — what a page of versions adds to a listing
* `list`, `listVersions` — the commands
-/

namespace BucketCare.Command

variable {σ : Type}

/-- A limit on the number of entries is reached. -/
def limitReached (limit : Option Nat) (entries : Nat) : Bool :=
  match limit with
  | some limit => limit ≤ entries
  | none => false

/-! ## Objects -/

/-- A listing of objects so far. -/
structure ListState where
  objects : Nat
  folders : Nat
  /-- The bytes of the objects. They are counted in 64 bits with a sign, and the count begins anew
  past the greatest number. -/
  bytes : Int64
  /-- The lines written, the last of them first. -/
  lines : List String
  deriving DecidableEq, Repr

namespace ListState

/-- Nothing is listed yet. -/
def start : ListState := ⟨0, 0, 0, []⟩

/-- The number of entries. -/
def entries (state : ListState) : Nat := state.objects + state.folders

/-- The line of a folder. -/
def folderLine (bucket separator folder : String) : String :=
  (StorePath.mk bucket folder).display ++ separator ++ "DIR"

/-- The line of an object. -/
def objectLine (bucket separator : String) (entry : ObjectEntry) : String :=
  separator.intercalate
    [(StorePath.mk bucket entry.key).display, toString entry.size, displayTime entry.time]

/-- One more folder. -/
def addFolder (bucket separator : String) (state : ListState) (folder : String) : ListState :=
  { state with
    folders := state.folders + 1
    lines := folderLine bucket separator folder :: state.lines }

/-- One more object. -/
def addObject (bucket separator : String) (state : ListState) (entry : ObjectEntry) : ListState :=
  { state with
    objects := state.objects + 1
    bytes := state.bytes + Int64.ofInt entry.size
    lines := objectLine bucket separator entry :: state.lines }

/-- Entries one after the other, until the limit is reached before one of them. -/
def addAll {α : Type} (limit : Option Nat) (add : ListState → α → ListState) :
    ListState → List α → Visit ListState
  | state, [] => .more state
  | state, entry :: rest =>
    if limitReached limit state.entries then .stop state
    else addAll limit add (add state entry) rest

/-- The folders of a page and then its objects, until the limit is reached before one of them. -/
def visit (limit : Option Nat) (bucket separator : String) (page : ObjectPage)
    (state : ListState) : Visit ListState :=
  match addAll limit (addFolder bucket separator) state page.folders with
  | .stop state => .stop state
  | .more state => addAll limit (addObject bucket separator) state page.objects

/-- The text of the listing. -/
def text (state : ListState) : String := String.join (state.lines.reverse.map (· ++ "\n"))

end ListState

/-- Put a listing where it belongs: into a file, which was made before, or on the screen. -/
def deliver (out : Option String) (text : String) : Run σ Unit :=
  match out with
  | some path => Run.fillFile path text
  | none => Run.print text

/-- Make the file that a listing goes to. -/
def openOut (out : Option String) : Run σ Unit :=
  match out with
  | some path => Run.createFile path
  | none => return ()

/-- List the objects below a path. -/
def list (machine : Machine σ) (settingsPath : Option String) (options : ListOptions) :
    Run σ Unit := do
  let path ← Run.ofExcept (StorePath.parse options.path)
  let (settings, client) ← Run.connect machine settingsPath
  openOut options.out
  let listing := ObjectListing.new path options.recursive
  let visit := fun page state =>
    return (none, ListState.visit options.limit path.bucket settings.output.separator page state)
  let visited ← Run.visitPages (listing.source client) visit .start
  let state := visited.state
  deliver options.out state.text
  Run.failIf visited.failure
  Run.printLine ""
  let size := Decimal.ByteSize.display state.bytes.toInt
  Run.printLine (s!"Found {state.objects} objects ({size}) and " ++
    s!"{state.folders} directories in {visited.pages} pages")
  match options.out with
  | some file =>
    Run.printLine s!"  ✅ Listing written to {file} ({state.entries} lines)"
  | none => return ()

/-! ## Versions -/

/-- The headings of a report on versions. -/
def versionHeadings : List String := ["path", "version", "latest", "type", "size", "last_modified"]

/-- The kind of an entry in words. -/
def entryType (entry : VersionEntry) : String :=
  if entry.isMarker then "tombstone" else if entry.isDirectory then "dir" else "file"

/-- The fields of an entry's line. -/
def versionFields (bucket : String) (entry : VersionEntry) : List String :=
  [(StorePath.mk bucket entry.key).display, entry.version.getD "null", toString entry.isLatest,
    entryType entry, toString entry.size, displayTime entry.time]

/-- What is asked of a listing of versions. -/
structure VersionQuery where
  bucket : String
  separator : String
  limit : Option Nat
  now : Instant
  olderThan : Option Span
  newerThan : Option Span
  dirs : Bool
  quiet : Bool

/-- A listing of versions so far. -/
structure VersionState where
  listed : Nat
  stats : VersionStats
  /-- The lines written, the last of them first. -/
  lines : List String
  /-- The report, if one is written. -/
  csv : Option Csv.Report
  /-- What gathers the entries to delete, if any are deleted. -/
  batcher : Option Batcher
  deriving Repr

namespace VersionState

/-- Nothing is listed yet. -/
def start (csv : Option Csv.Report) (batcher : Option Batcher) : VersionState :=
  ⟨0, .zero, [], csv, batcher⟩

/-- The entry is listed, apart from the limit. -/
def selects (query : VersionQuery) (entry : VersionEntry) : Bool :=
  (query.dirs || !entry.isDirectory) &&
    withinAge entry.time query.now query.olderThan query.newerThan

/-- One more entry, apart from the report and from deleting. -/
def add (query : VersionQuery) (state : VersionState) (entry : VersionEntry) : VersionState :=
  { state with
    listed := state.listed + 1
    stats := state.stats.add entry
    lines := if query.quiet then state.lines
      else query.separator.intercalate (versionFields query.bucket entry) :: state.lines }

/-- One more row of the report, if one is written. -/
def report (query : VersionQuery) (state : VersionState) (entry : VersionEntry) :
    Option Error × VersionState :=
  match state.csv with
  | none => (none, state)
  | some csv =>
    match csv.row (versionFields query.bucket entry) with
    | (.ok _, csv) => (none, { state with csv := some csv })
    | (.error e, csv) => (some e, { state with csv := some csv })

/-- Gather an entry that can be pruned, if entries are deleted. -/
def prune (deleter : Deleter σ) (state : VersionState) (entry : VersionEntry) :
    StateM σ (Option Error × VersionState) :=
  match state.batcher with
  | none => return (none, state)
  | some batcher =>
    if entry.isPrunable then do
      match ← batcher.push deleter entry.candidate with
      | (.ok _, batcher) => return (none, { state with batcher := some batcher })
      | (.error e, batcher) => return (some e, { state with batcher := some batcher })
    else return (none, state)

/-- The entries of a page, until the limit is reached before one of them or a deletion fails. -/
def visit (query : VersionQuery) (deleter : Deleter σ) :
    List VersionEntry → VersionState → StateM σ (Option Error × Visit VersionState)
  | [], state => return (none, .more state)
  | entry :: rest, state =>
    if limitReached query.limit state.listed then return (none, .stop state)
    else if !selects query entry then visit query deleter rest state
    else
      match (state.add query entry).report query entry with
      | (some e, state) => return (some e, .stop state)
      | (none, state) => do
        match ← state.prune deleter entry with
        | (some e, state) => return (some e, .stop state)
        | (none, state) => visit query deleter rest state

/-- The text of the listing. -/
def text (state : VersionState) : String := String.join (state.lines.reverse.map (· ++ "\n"))

end VersionState

/-- What deletes in a bucket: the store, or on trial nothing. -/
def chooseDeleter (client : Client σ) (bucket : String) (dryRun : Bool) : Deleter σ :=
  if dryRun then Deleter.dryRun else client.deleter bucket

/-- Put a report into its file, which was made before. -/
def deliverReport (path : Option String) (csv : Option Csv.Report) : Run σ Unit :=
  match path, csv with
  | some path, some csv => Run.fillFile path csv.text
  | _, _ => return ()

/-- Make the file that a report goes to, and begin the report with its headings. -/
def openReport (path : Option String) (separator : UInt8) : Run σ (Option Csv.Report) := do
  match path with
  | none => return none
  | some path =>
    Run.createFile path
    return some (← Run.ofExcept (Csv.Report.new separator versionHeadings))

/-- Delete what the batcher still holds, if there is one. -/
def finishBatcher (deleter : Deleter σ) (batcher : Option Batcher) :
    Run σ (Except Error (Option DeleteSummary)) :=
  match batcher with
  | none => return .ok none
  | some batcher => do return (← Run.onLink (batcher.finish deleter)).map some

/-- The totals of a listing of versions. -/
def versionSummary (options : VersionOptions) (state : VersionState) (pages : Nat)
    (deleted : Option DeleteSummary) : List (String × String) :=
  [("versions", toString state.stats.versions), ("tombstones", toString state.stats.tombstones),
    ("directory markers", toString state.stats.directoryMarkers),
    ("bytes", Decimal.ByteSize.display state.stats.bytes.toInt), ("pages", toString pages)] ++
  (state.csv.map fun csv => ("csv rows", toString csv.rows)).toList ++
  match deleted with
  | none => []
  | some deleted =>
    [(if options.dryRun then "would delete" else "deleted", toString deleted.deleted),
      ("delete requests", toString deleted.flushes)]

/-- List the versions and delete markers below a path, and prune them if that is asked for. -/
def listVersions (machine : Machine σ) (settingsPath : Option String) (options : VersionOptions) :
    Run σ Unit := do
  let path ← Run.ofExcept (StorePath.parse options.path)
  let (settings, client) ← Run.connect machine settingsPath
  let separator ←
    Run.ofExcept (parseSeparator (options.separator.getD settings.output.separator))
  let pageSize := options.pageSize.getD settings.transfer.deletePageSize.toNat
  let query : VersionQuery :=
    { bucket := path.bucket, separator := (Char.ofNat separator.toNat).toString
      limit := options.limit, now := machine.now, olderThan := ageBound options.age
      newerThan := ageBound options.since, dirs := options.dirs, quiet := options.quiet }
  openOut options.out
  let csv ← openReport options.csv separator
  let deleter := chooseDeleter client path.bucket options.dryRun
  let start ← match options.delete, Batcher.new pageSize with
    | false, _ => pure (VersionState.start csv none)
    | true, .ok batcher => pure (VersionState.start csv (some batcher))
    | true, .error e => do
      deliverReport options.csv csv
      Run.fail e
  let visited ← Run.visitPages ((VersionListing.new path).source client)
    (VersionState.visit query deleter) start
  let state := visited.state
  let deleted ← match visited.failure with
    | some e => pure (.error e)
    | none => finishBatcher deleter state.batcher
  match deleted with
  | .error e =>
    deliverReport options.csv state.csv
    deliver options.out state.text
    Run.fail e
  | .ok deleted =>
    deliver options.out state.text
    deliverReport options.csv state.csv
    Run.printSummary (versionSummary options state visited.pages deleted)

end BucketCare.Command

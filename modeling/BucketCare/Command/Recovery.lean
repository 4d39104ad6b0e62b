import BucketCare.Command.Listing
import BucketCare.Version.Copying

/-!
# Bringing objects back

The commands that remove delete markers, and that copy versions back over deleted objects.

## Main definitions

* `UndeleteState.visit`, `undelete` — delete markers are removed
* `RestoreTally` — the copies that succeeded and failed
* `RestoreState.visit`, `restore` — versions are copied back
-/

namespace BucketCare.Command

variable {σ : Type}

/-! ## Removing delete markers -/

/-- The removal of delete markers so far. -/
structure UndeleteState where
  /-- The objects that were printed, the last of them first. -/
  lines : List String
  batcher : Batcher
  deriving Repr

namespace UndeleteState

/-- The markers of a page, until a deletion fails. -/
def visit (bucket : String) (accept : VersionEntry → Bool) (deleter : Deleter σ) :
    List VersionEntry → UndeleteState → StateM σ (Option Error × Visit UndeleteState)
  | [], state => return (none, .more state)
  | entry :: rest, state =>
    if entry.isUndeletable && accept entry then do
      let lines := ("  " ++ (StorePath.mk bucket entry.key).display) :: state.lines
      match ← state.batcher.push deleter entry.candidate with
      | (.error e, batcher) => return (some e, .stop ⟨lines, batcher⟩)
      | (.ok _, batcher) => visit bucket accept deleter rest ⟨lines, batcher⟩
    else visit bucket accept deleter rest state

/-- The printed text. -/
def text (state : UndeleteState) : String := String.join (state.lines.reverse.map (· ++ "\n"))

end UndeleteState

/-- Remove the delete markers below a path that hide an object. -/
def undelete (machine : Machine σ) (settingsPath : Option String) (options : UndeleteOptions) :
    Run σ Unit := do
  let path ← Run.ofExcept (StorePath.parse options.path)
  let (settings, client) ← Run.connect machine settingsPath
  let pageSize := options.pageSize.getD settings.transfer.deletePageSize.toNat
  let accept := fun (entry : VersionEntry) =>
    withinAge entry.time machine.now none (ageBound options.since)
  let deleter := chooseDeleter client path.bucket options.dryRun
  let batcher ← Run.ofExcept (Batcher.new pageSize)
  Run.printLine s!"Removing delete markers under {path}..."
  let visited ← Run.visitPages ((VersionListing.new path).source client)
    (UndeleteState.visit path.bucket accept deleter) ⟨[], batcher⟩
  Run.print visited.state.text
  Run.failIf visited.failure
  let summary ← Run.ofExcept (← Run.onLink (visited.state.batcher.finish deleter))
  if options.dryRun then
    Run.printLine s!"  ⚠️  Dry run: {summary.candidates} delete markers would be removed"
  else
    Run.printLine s!"  ✅ Removed {summary.deleted} delete markers in {summary.flushes} requests"

/-! ## Copying versions back -/

/-- The copies that succeeded and failed. -/
structure RestoreTally where
  restored : Nat
  failed : Nat
  firstError : Option Error
  deriving DecidableEq, Repr

namespace RestoreTally

/-- No copy has ended yet. -/
def start : RestoreTally := ⟨0, 0, none⟩

/-- One more copy has ended. -/
def add (tally : RestoreTally) (result : Except Error Unit) : RestoreTally :=
  match result with
  | .ok _ => { tally with restored := tally.restored + 1 }
  | .error e =>
    { tally with failed := tally.failed + 1, firstError := tally.firstError <|> some e }

/-- The tally of copies in the order in which they end. -/
def ofResults (results : List (Except Error Unit)) : RestoreTally := results.foldl add start

end RestoreTally

/-- One copy: the version of a target is copied over the object. -/
def copyBack (client : Client σ) (bucket : String) (target : RestoreTarget) :
    StateM σ (Except Error Unit) :=
  (client.copyVersion bucket target.key target.version).run

/-- The restoring of objects so far. -/
structure RestoreState where
  planner : RestorePlanner
  /-- The targets found. -/
  found : Nat
  /-- The pages read. -/
  pages : Nat
  copies : CopyPool
  /-- The lines printed, the last of them first. -/
  lines : List String

namespace RestoreState

/-- Nothing is read yet. -/
def start : RestoreState := ⟨.new, 0, 0, .empty, []⟩

/-- One more target: it is to be copied back, or on trial only printed. -/
def add (bucket : String) (dryRun : Bool) (state : RestoreState) (target : RestoreTarget) :
    RestoreState :=
  let state := { state with found := state.found + 1 }
  if dryRun then
    let line := "  would restore " ++ (StorePath.mk bucket target.key).display ++ " (version " ++
      target.version ++ ")"
    { state with lines := line :: state.lines }
  else { state with copies := state.copies.add target }

/-- The entries of a page and the targets found in them, and then some steps of the copies. -/
def visit (copy : RestoreTarget → StateM σ (Except Error Unit)) (schedule : CopySchedule)
    (bucket : String) (dryRun : Bool) (accept : VersionEntry → Bool)
    (entries : List VersionEntry) (state : RestoreState) :
    StateM σ (Option Error × Visit RestoreState) := do
  let planner := entries.foldl (RestorePlanner.observe accept) state.planner
  let (targets, planner) := planner.drain
  let state := targets.foldl (add bucket dryRun) { state with planner, pages := state.pages + 1 }
  let copies ← state.copies.run copy (schedule state.pages state.copies.waiting.length)
  return (none, .more { state with copies })

/-- The printed text. -/
def text (state : RestoreState) : String := String.join (state.lines.reverse.map (· ++ "\n"))

end RestoreState

/-- Copy the newest real version back over each deleted object below a path. The schedule says how
the copies run beside the listing and each other. -/
def restore (schedule : CopySchedule) (machine : Machine σ) (settingsPath : Option String)
    (options : RestoreOptions) : Run σ Unit := do
  let path ← Run.ofExcept (StorePath.parse options.path)
  let (_, client) ← Run.connect machine settingsPath
  let accept := fun (entry : VersionEntry) =>
    withinAge entry.time machine.now none (ageBound options.since)
  let copy := copyBack client path.bucket
  Run.printLine s!"Restoring deleted objects under {path}..."
  let visited ← Run.visitPages ((VersionListing.new path).source client)
    (RestoreState.visit copy schedule path.bucket options.dryRun accept) .start
  let state := visited.state
  Run.print state.text
  Run.failIf visited.failure
  let copies ← Run.onLink (state.copies.join copy)
  if options.dryRun then
    Run.printLine s!"  ⚠️  Dry run: {state.found} objects would be restored"
  else
    let tally := RestoreTally.ofResults (copies.ended.map Prod.snd)
    Run.printLine s!"  ✅ Restored {tally.restored} of {state.found} objects"
    match tally.firstError with
    | none => return ()
    | some e =>
      Run.printLine s!"  ❌ {tally.failed} restores failed"
      Run.fail e

end BucketCare.Command

import BucketCare.Command.World
import BucketCare.Decimal
import BucketCare.Listing.Uploads

/-!
# Pending uploads

The command that lists the uploads which were begun and not ended, shows their parts, and aborts
them.

## Main definitions

* `PendingState.visit` — what a page of uploads adds to a listing
* `AbortTally` — the uploads that were aborted, and the first failure
* `pending` — the command
-/

namespace BucketCare.Command

variable {σ : Type}

/-- A listing of pending uploads so far. -/
structure PendingState where
  /-- The uploads listed, the last of them first. -/
  matched : List UploadEntry
  /-- The bytes of the parts that were shown, counted in 64 bits with a sign. -/
  partBytes : Int64
  /-- The lines printed, the last of them first. -/
  lines : List String
  deriving Repr

namespace PendingState

/-- Nothing is listed yet. -/
def start : PendingState := ⟨[], 0, []⟩

/-- The line of an upload. -/
def uploadLine (bucket : String) (upload : UploadEntry) : String :=
  (StorePath.mk bucket upload.key).display ++ "\t" ++ upload.uploadId ++ "\t" ++
    displayTime upload.time

/-- The line of a part. -/
def partLine (part : PartEntry) : String :=
  "    part " ++ Text.padLeft 5 (toString part.number) ++ "  " ++
    Text.padLeft 12 (Decimal.ByteSize.display part.size) ++ "  " ++ part.etag.getD "-"

/-- The parts of a page. -/
def addParts (parts : List PartEntry) (state : PendingState) : PendingState :=
  parts.foldl (fun state part =>
    { state with
      partBytes := state.partBytes + Int64.ofInt part.size
      lines := partLine part :: state.lines }) state

/-- The parts of an upload. -/
def listParts (client : Client σ) (bucket : String) (upload : UploadEntry) (state : PendingState) :
    StateM σ (Option Error × PendingState) := do
  let source := PartListing.source client ⟨bucket, upload.key, upload.uploadId⟩
  match ← Cursor.start source with
  | .error e => return (some e, state)
  | .ok cursor =>
    let visit := fun parts state => return (none, Visit.more (addParts parts state))
    let (failure, state, _) ← cursor.walk source visit Run.allPages state
    return (failure, state)

/-- The uploads of a page, until the listing of parts fails. -/
def visit (client : Client σ) (bucket : String) (accept : UploadEntry → Bool) (parts : Bool) :
    List UploadEntry → PendingState → StateM σ (Option Error × Visit PendingState)
  | [], state => return (none, .more state)
  | upload :: rest, state =>
    if !accept upload then visit client bucket accept parts rest state
    else do
      let state := { state with lines := uploadLine bucket upload :: state.lines }
      let (failure, state) ←
        if parts then listParts client bucket upload state else pure (none, state)
      match failure with
      | some e => return (some e, .stop state)
      | none =>
        visit client bucket accept parts rest { state with matched := upload :: state.matched }

/-- The printed text. -/
def text (state : PendingState) : String := String.join (state.lines.reverse.map (· ++ "\n"))

end PendingState

/-- The uploads that were aborted, and the first failure. -/
structure AbortTally where
  aborted : Nat
  firstError : Option Error
  deriving DecidableEq, Repr

namespace AbortTally

/-- Nothing is aborted yet. -/
def start : AbortTally := ⟨0, none⟩

/-- One more answer. An upload that is gone already is no failure. -/
def add (tally : AbortTally) (result : Except Error Unit) : AbortTally :=
  match result with
  | .ok _ => { tally with aborted := tally.aborted + 1 }
  | .error (.notFound _) => tally
  | .error e => { tally with firstError := tally.firstError <|> some e }

end AbortTally

/-- Abort uploads one after the other, whatever the answers. -/
def abortAll (client : Client σ) (bucket : String) :
    AbortTally → List UploadEntry → StateM σ AbortTally
  | tally, [] => return tally
  | tally, upload :: rest => do
    let result ← (client.abortUpload bucket upload.key upload.uploadId).run
    abortAll client bucket (tally.add result) rest

/-- Abort the uploads that were listed. -/
def purge (client : Client σ) (bucket : String) (uploads : List UploadEntry) : Run σ Unit := do
  Run.printLine s!"Aborting {uploads.length} uploads..."
  let tally ← Run.onLink (abortAll client bucket .start uploads)
  Run.printLine s!"  ✅ Aborted {tally.aborted} uploads"
  Run.failIf tally.firstError

/-- List the pending uploads below a path, and abort them if that is asked for. -/
def pending (machine : Machine σ) (settingsPath : Option String) (options : PendingOptions) :
    Run σ Unit := do
  let path ← Run.ofExcept (StorePath.parse options.path)
  let (_, client) ← Run.connect machine settingsPath
  let accept := fun (upload : UploadEntry) =>
    withinAge upload.time machine.now (ageBound options.age) none
  let visited ← Run.visitPages ((UploadListing.new path).source client)
    (PendingState.visit client path.bucket accept options.parts) .start
  let state := visited.state
  Run.print state.text
  Run.failIf visited.failure
  Run.printLine ""
  Run.printLine s!"Found {state.matched.length} pending uploads"
  if options.parts then
    Run.printLine ("  Parts uploaded: " ++ Decimal.ByteSize.display state.partBytes.toInt)
  if options.purge && !state.matched.isEmpty then
    purge client path.bucket state.matched.reverse

end BucketCare.Command

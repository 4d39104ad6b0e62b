import BucketCare.Files.LocalFile
import BucketCare.Store.Client
import BucketCare.Upload.MediaType
import BucketCare.Upload.Pool

/-!
# Uploading files

A small file is one request. A big one is uploaded in parts, each of them a request of its own
between one that begins the upload and one that ends it; if a part cannot be read or sent the upload
is aborted.

The uploads of a plan run side by side, and their requests reach the store in any order. Which of
them sends its next request, and which of them is the next to end, is left to a schedule.

## Main definitions

* `partSpans` — how a file is cut into parts
* `Talk.upload`, `Talk.transfer` — the requests of an upload, of which the second sends none if the
  object exists already
* `Client.upload`, `Client.uploadFile`, `Client.transfer` — one upload by itself
* `UploadSchedule`, `UploadTasks.crew` — when uploads go on, and what they do side by side
* `Client.uploadAll` — the uploads of a plan
-/

namespace BucketCare

/-- How many bytes that begin at some place make up one part, cut into parts of a length, where
`left` bytes are left. The number bounds the parts. -/
def partSpansFrom (chunk : Nat) : Nat → Nat → Nat → List (Nat × Nat)
  | 0, _, _ => []
  | fuel + 1, start, left =>
    if left = 0 then []
    else (start, min left chunk) ::
      partSpansFrom chunk fuel (start + min left chunk) (left - min left chunk)

/-- How a file of some size is cut into parts of a length that is not zero: the place and the length
of each part. -/
def partSpans (chunk size : Nat) : List (Nat × Nat) := partSpansFrom chunk size 0 size

namespace Talk

/-! ## The requests of one upload -/

/-- Upload the parts of a file one after the other, the first with some number. The answer holds the
number and the tag of each part. Numbers have 32 bits with a sign, and behind the greatest of them
comes the least. -/
def uploadParts (bucket key uploadId : String) (file : LocalFile) :
    (number : Int32) → List (Nat × Nat) → Talk (List (Int32 × Option String))
  | _, [] => return []
  | number, (start, length) :: spans => do
    let body ← Talk.ofIo (file.read start length)
    let tag ← Talk.request (.uploadPart bucket key uploadId number body)
    return (number, tag) :: (← uploadParts bucket key uploadId file (number + 1) spans)

/-- Open a file of some size and upload its parts, each of some length. -/
def sendParts (chunk : Nat) (bucket key uploadId : String) (file : LocalFile) (size : Nat) :
    Talk (List (Int32 × Option String)) := do
  Talk.ofIo file.opened
  Talk.uploadParts bucket key uploadId file 1 (partSpans chunk size)

/-- Complete an upload whose parts were sent. If they were not it is aborted, whether or not that
succeeds. -/
def closeUpload (bucket key uploadId : String) :
    Except Error (List (Int32 × Option String)) → Talk Unit
  | .ok parts => Talk.request (.completeUpload bucket key uploadId parts)
  | .error e => do
    let _ ← (Talk.request (.abortUpload bucket key uploadId)).outcome
    Talk.fail e

/-- Upload a file of some size in parts. If a part cannot be read or sent the upload is aborted. -/
def uploadInParts (chunk : Nat) (bucket key contentType : String) (file : LocalFile)
    (size : Nat) : Talk Unit := do
  let uploadId ← Talk.request (.createUpload bucket key contentType)
  match uploadId with
  | none => Talk.fail (.storeOperation ("no upload id returned for " ++ key))
  | some uploadId =>
    let outcome ← (Talk.sendParts chunk bucket key uploadId file size).outcome
    Talk.closeUpload bucket key uploadId outcome

/-- Upload a file, in parts if it is big. The answer is its size. -/
def upload (multipart : MultipartSettings) (bucket key contentType : String) (file : LocalFile) :
    Talk Nat := do
  let size ← Talk.ofIo file.size
  if multipart.required size then
    Talk.uploadInParts multipart.chunk bucket key contentType file size
  else
    let body ← Talk.ofExcept file.whole
    Talk.request (.putObject bucket key contentType body)
  return size

/-- Upload a file, unless its object exists and may not be replaced. The answer is the number of
bytes written. -/
def transfer (multipart : MultipartSettings) (tree : FileTree) (bucket : String)
    (overwrite : Bool) (file : UploadFile) : Talk Nat := do
  let skip ← if overwrite then pure false else Talk.objectExists bucket file.key
  if skip then return 0
  else
    Talk.upload multipart bucket file.key (MediaType.ofPath file.source)
      (tree.localFile file.source)

end Talk

namespace Client

variable {σ : Type}

/-- Open a file of some size and upload its parts. -/
def sendParts (client : Client σ) (bucket key uploadId : String) (file : LocalFile) (size : Nat) :
    Exchange σ (List (Int32 × Option String)) :=
  (Talk.sendParts client.multipart.chunk bucket key uploadId file size).run client.link

/-- Upload a file, in parts if it is big. The answer is its size. -/
def upload (client : Client σ) (bucket key contentType : String) (file : LocalFile) :
    Exchange σ Nat :=
  (Talk.upload client.multipart bucket key contentType file).run client.link

/-- Upload what a path leads to. -/
def uploadFile (client : Client σ) (tree : FileTree) (bucket key path contentType : String) :
    Exchange σ Nat :=
  client.upload bucket key contentType (tree.localFile path)

/-- Upload a file, unless its object exists and may not be replaced. The answer is the number of
bytes written. -/
def transfer (client : Client σ) (tree : FileTree) (bucket : String) (overwrite : Bool)
    (file : UploadFile) : Exchange σ Nat :=
  (Talk.transfer client.multipart tree bucket overwrite file).run client.link

end Client

/-! ## Uploads side by side -/

/-- When uploads go on that run side by side. -/
structure UploadSchedule where
  /-- How long the upload at a place of the plan takes, in milliseconds. -/
  pace : Nat → Nat
  /-- The places of the uploads that send one request each before the next upload ends, by the
  number of uploads that have ended. A place with nothing to send means none. -/
  turns : Nat → List Nat

/-- All uploads take no time, and each of them sends its requests when it is the next to end. -/
def UploadSchedule.atOnce : UploadSchedule := ⟨fun _ => 0, fun _ => []⟩

/-- How an upload ends that has come to its outcome. -/
def TransferEnd.ofOutcome : Except Error Nat → TransferEnd
  | .ok bytes => .written (UInt64.ofNat bytes)
  | .error e => .failed e

/-- The uploads that were started, and how far they are. -/
structure UploadTasks where
  /-- How many uploads have ended. -/
  ended : Nat
  /-- What is left of each upload, by its place in the plan. -/
  talks : List (Talk Nat)

namespace UploadTasks

variable {σ : Type}

/-- Nothing is started. -/
def empty : UploadTasks := ⟨0, []⟩

/-- The upload at a place sends its next request, if there is one. -/
def step (link : Link σ) (talks : List (Talk Nat)) (place : Nat) : StateM σ (List (Talk Nat)) :=
  match talks[place]? with
  | some (.ask request next) => do
    let reply ← link.send request
    return talks.set place (next reply)
  | _ => return talks

/-- The uploads at some places send a request each, one after the other. -/
def goOn (link : Link σ) : List (Talk Nat) → List Nat → StateM σ (List (Talk Nat))
  | talks, [] => return talks
  | talks, place :: turns => do
    let talks ← step link talks place
    goOn link talks turns

/-- The upload at a place sends all its requests, and comes to its outcome. -/
def conclude (link : Link σ) (talks : List (Talk Nat)) (place : Nat) :
    StateM σ (TransferEnd × List (Talk Nat)) :=
  match talks[place]? with
  | none => return (.failed .cancelled, talks)
  | some talk => do
    let outcome ← (talk.run link).run
    return (.ofOutcome outcome, talks.set place (.done outcome))

/-- The uploads of files to a bucket, side by side. -/
def crew (client : Client σ) (tree : FileTree) (bucket : String) (overwrite : Bool)
    (schedule : UploadSchedule) : Crew (UploadTasks × σ) Unit where
  start file := fun (tasks, state) =>
    let talk := Talk.transfer client.multipart tree bucket overwrite file
    ((schedule.pace tasks.talks.length, ()), ({ tasks with talks := tasks.talks ++ [talk] }, state))
  settle flight := fun (tasks, state) =>
    let (talks, state) := (goOn client.link tasks.talks (schedule.turns tasks.ended)).run state
    let ((outcome, talks), state) := (conclude client.link talks flight.place).run state
    (outcome, (⟨tasks.ended + 1, talks⟩, state))
  linger := fun (tasks, state) =>
    let (talks, state) := (goOn client.link tasks.talks (schedule.turns tasks.ended)).run state
    ((), ({ tasks with talks }, state))

end UploadTasks

/-- Upload the files of a plan to a bucket, side by side. -/
def Client.uploadAll {σ : Type} (client : Client σ) (tree : FileTree) (bucket : String)
    (overwrite : Bool) (schedule : UploadSchedule) (options : PoolOptions)
    (interrupt : Option Nat) (plan : List UploadFile) : StateM σ UploadRun := fun state =>
  let crew := UploadTasks.crew client tree bucket overwrite schedule
  let (run, _, state) := (crew.run options interrupt plan).run (.empty, state)
  (run, state)

end BucketCare

import BucketCare.Command.Listing
import BucketCare.Deletion.Batcher
import BucketCare.Policy
import BucketCare.Store.Operations

/-!
# Buckets, keys and access

The commands that make a bucket, tell where a bucket lives, delete the keys of a file, print an
access policy, and issue session credentials.

## Main definitions

* `bucketName` — the bucket that is named by itself or by a URI
* `readKeys`, `deleteKeys` — the keys of a file, and the deletion of some keys
* `makeBucket`, `region`, `bulkDelete`, `policy`, `session` — the commands
-/

namespace BucketCare.Command

variable {σ : Type}

/-- The bucket that is named, by itself or by a URI. -/
def bucketName (value : String) : Except Error String :=
  if Text.hasPiece "://".toList value.toList then (StorePath.parse value).map (·.bucket)
  else
    let name := Route.dropSlashes (value.toList.dropWhile (· == '/'))
    if name.isEmpty || name.contains '/' then
      .error (.usage ("invalid bucket name '" ++ value ++ "'"))
    else .ok (String.ofList name)

/-- Make a bucket. -/
def makeBucket (machine : Machine σ) (settingsPath : Option String) (bucket : String)
    (region : Option String) : Run σ Unit := do
  let bucket ← Run.ofExcept (bucketName bucket)
  let (_, client) ← Run.connect machine settingsPath
  let region := region.getD client.region
  Run.printLine s!"Creating bucket '{bucket}'..."
  Run.exchange (client.createBucket bucket (some region))
  Run.printLine s!"  ✅ Bucket created: {bucket}"
  Run.printLine s!"  Region: {region}"

/-- Where the region of the client comes from. -/
def regionRows (machine : Machine σ) (settings : Settings) (client : Client σ) :
    List (List String) :=
  let around := machine.around
  let unset := "(unset)"
  [["config [store] region", settings.store.region.getD unset],
    ["AWS_REGION", (around.get? "AWS_REGION").getD unset],
    ["AWS_DEFAULT_REGION", (around.get? "AWS_DEFAULT_REGION").getD unset],
    ["profile", around.profileName settings.store],
    ["client region", client.region]]

/-- Tell where a bucket lives, and where the region of the client comes from. -/
def region (machine : Machine σ) (settingsPath : Option String) (bucket : String) :
    Run σ Unit := do
  let bucket ← Run.ofExcept (bucketName bucket)
  let (settings, client) ← Run.connect machine settingsPath
  Run.printLine "Region resolution:"
  Run.printTable ["source", "region"] (regionRows machine settings client)
  Run.printLine ""
  let actual ← Run.exchange (client.bucketRegion bucket)
  Run.printLine s!"  ✅ Bucket '{bucket}' is in {actual}"
  if actual != client.region then
    Run.printLine s!"  ⚠️  Client region {client.region} differs from the bucket region"

/-- The candidates that the keys of a file stand for, below a path. -/
def keyCandidates (path : StorePath) (keys : List String) : List Candidate :=
  keys.map fun key => ⟨(path.child key).key, none⟩

/-- The keys of a file. -/
def readKeys (file : String) : Run σ (List String) :=
  Run.doing s!"reading keys file {file}" do
    match (← get).files.readText file with
    | .ok content => return KeyList.parse content
    | .error e => Run.fail (.io e)

/-- Delete some keys below a path, and tell how many were deleted. -/
def deleteKeys (machine : Machine σ) (settingsPath : Option String) (options : BulkDeleteOptions)
    (path : StorePath) (keys : List String) : Run σ Unit := do
  let (settings, client) ← Run.connect machine settingsPath
  let deleter := chooseDeleter client path.bucket options.dryRun
  let batcher ← Run.ofExcept (Batcher.new
    (options.pageSize.getD settings.transfer.deletePageSize.toNat))
  Run.printLine s!"Deleting {keys.length} keys under {path}..."
  let (result, batcher) ← Run.onLink (batcher.pushAll deleter (keyCandidates path keys))
  Run.ofExcept result
  let summary ← Run.ofExcept (← Run.onLink (batcher.finish deleter))
  if options.dryRun then
    Run.printLine s!"  ⚠️  Dry run: {summary.candidates} keys would be deleted"
  else Run.printLine s!"  ✅ Deleted {summary.deleted} keys in {summary.flushes} requests"

/-- Delete the keys of a file. -/
def bulkDelete (machine : Machine σ) (settingsPath : Option String) (options : BulkDeleteOptions) :
    Run σ Unit := do
  let path ← Run.ofExcept (StorePath.parse options.path)
  let keys ← readKeys options.file
  if keys.isEmpty then Run.printLine s!"  No keys to delete in {options.file}"
  else deleteKeys machine settingsPath options path keys

/-- Print the policy that grants the access these commands need. -/
def policy (path : String) (readOnly noMultipart : Bool) : Run σ Unit := do
  let path ← Run.ofExcept (StorePath.parse path)
  Run.printLine (Policy.forPath path ⟨readOnly, noMultipart⟩).toJson.pretty

/-- Issue session credentials, and print them for a shell or as a document. -/
def session (machine : Machine σ) (settingsPath : Option String) (options : SessionOptions) :
    Run σ Unit := do
  Run.ofExcept options.request.validate
  let (_, client) ← Run.connect machine settingsPath
  let credentials ←
    Run.exchange (client.sessionCredentials options.request machine.freshName)
  if options.json then Run.printLine credentials.toJson.pretty
  else
    for line in credentials.exportLines do
      Run.printLine line
    match credentials.expiration with
    | some t => Run.printLine ("# expires " ++ t.iso ++ "+00:00")
    | none => return ()

end BucketCare.Command

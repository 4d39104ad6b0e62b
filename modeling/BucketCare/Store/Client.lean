import BucketCare.Store.Credentials
import BucketCare.Store.Link
import BucketCare.Text.Percent

/-!
# The client of a store

A link to a store together with the settings that requests depend on, and the operations on buckets
and objects that take one or two requests.

## Main definitions

* `Client` — a link and its settings, made by `Client.connect`
* `Client.request` — one request
* `Client.bucketRegion` — where a bucket lives
* `copySource` — the written form of an object's version as the source of a copy
-/

namespace BucketCare

/-- When and how files are uploaded in parts. -/
structure MultipartSettings where
  /-- The bytes from which on a file is uploaded in parts. -/
  threshold : Nat
  /-- The bytes of one part. -/
  chunk : Nat
  deriving DecidableEq, Repr

namespace MultipartSettings

/-- The bytes of a megabyte. -/
def megabyte : Nat := 1024 * 1024

/-- What holds without settings. -/
def default : MultipartSettings := ⟨64 * megabyte, 16 * megabyte⟩

/-- A file of some size is uploaded in parts. -/
def required (settings : MultipartSettings) (size : Nat) : Bool := settings.threshold ≤ size

/-- What the settings of transfers say. The products are not cut to 64 bits: settings so big that
they do not fit are left out. -/
def ofSettings (transfer : TransferSettings) : MultipartSettings :=
  ⟨transfer.multipartThreshold.toNat * megabyte, transfer.multipartChunk.toNat * megabyte⟩

end MultipartSettings

/-- The written form of an object, or of one version of it, as the source of a copy. -/
def copySource (bucket key : String) (version : Option String) : String :=
  let object := bucket ++ "/" ++ Text.Percent.encode key
  match version with
  | some version => object ++ "?versionId=" ++ Text.Percent.encode version
  | none => object

/-- Ask whether an object exists. -/
def Talk.objectExists (bucket key : String) : Talk Bool := do
  match ← (Talk.request (.headObject bucket key)).outcome with
  | .ok _ => return true
  | .error (.notFound _) => return false
  | .error e => Talk.fail e

/-- A link to a store and the settings that requests depend on. -/
structure Client (σ : Type) where
  link : Link σ
  endpoint : Option String
  region : String
  listVersion : Nat
  /-- The most entries of a page, in 32 bits with a sign. -/
  pageSize : Int
  multipart : MultipartSettings
  credentials : Except Error CredentialSummary

namespace Client

variable {σ : Type}

/-- A number cut to 32 bits and read with a sign. -/
def signed32 (n : Nat) : Int := Int.bmod n (Nat.pow 2 32)

/-- The client for some settings. -/
def connect (link : Link σ) (around : Surroundings) (tree : FileTree) (settings : Settings) :
    Client σ where
  link
  endpoint := settings.store.endpoint
  region := around.region tree settings.store
  listVersion := settings.store.listVersion.toNat
  pageSize := signed32 settings.transfer.listPageSize.toNat
  multipart := .ofSettings settings.transfer
  credentials := around.credentials tree settings.store

/-- One request, with the fault it may end in. -/
def attempt (client : Client σ) (request : Request) :
    Exchange σ (Except Fault request.Reply) :=
  ExceptT.mk (do return .ok (← client.link.send request))

/-- One request. -/
def request (client : Client σ) (request : Request) : Exchange σ request.Reply :=
  ExceptT.mk (do
    match ← client.link.send request with
    | .ok reply => return .ok reply
    | .error fault => return .error fault.toError)

/-- The region that the store names when it is asked for a bucket. -/
def headBucket (client : Client σ) (bucket : String) : Exchange σ (Option String) :=
  client.request (.headBucket bucket)

/-- The region that a bucket was made in. -/
def bucketLocation (client : Client σ) (bucket : String) : Exchange σ String := do
  let location ← client.request (.bucketLocation bucket)
  return (location.filter fun region => !region.isEmpty).getD Surroundings.usualRegion

/-- Where a bucket lives: the region that the store names when it is asked for the bucket, be it in
a refusal, or else the region that the bucket was made in. -/
def bucketRegion (client : Client σ) (bucket : String) : Exchange σ String := do
  let named := match ← client.attempt (.headBucket bucket) with
    | .ok region => region
    | .error fault => fault.region?
  match named with
  | some region => return region
  | none => client.bucketLocation bucket

/-- Make a bucket in a region. The usual region must not be mentioned. -/
def createBucket (client : Client σ) (bucket : String) (region : Option String) :
    Exchange σ Unit :=
  let region := region.getD client.region
  client.request (.createBucket bucket
    (if region = Surroundings.usualRegion then none else some region))

/-- Whether a bucket keeps versions; nothing if that was never set. -/
def bucketVersioning (client : Client σ) (bucket : String) : Exchange σ (Option String) :=
  client.request (.bucketVersioning bucket)

/-- An object exists. -/
def objectExists (client : Client σ) (bucket key : String) : Exchange σ Bool :=
  (Talk.objectExists bucket key).run client.link

/-- Copy a version of an object over the object. -/
def copyVersion (client : Client σ) (bucket key version : String) : Exchange σ Unit :=
  client.request (.copyObject bucket key (copySource bucket key (some version)))

/-- Abort a pending upload. -/
def abortUpload (client : Client σ) (bucket key uploadId : String) : Exchange σ Unit :=
  client.request (.abortUpload bucket key uploadId)

end Client

end BucketCare

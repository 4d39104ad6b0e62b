import BucketCare.Paging
import BucketCare.Path
import BucketCare.Store.Client

/-!
# Listing pending uploads

The uploads in parts that were begun below a path and not ended, and the parts of one of them.

## Main definitions

* `UploadEntry`, `PartEntry` — a pending upload, and a part of it
* `UploadListing.source`, `PartListing.source` — the pages of the two listings
-/

namespace BucketCare

/-- A pending upload. -/
structure UploadEntry where
  key : String
  uploadId : String
  /-- When the upload was begun. -/
  time : Option Instant
  deriving DecidableEq, Repr

/-- A part of a pending upload. -/
structure PartEntry where
  number : Int
  size : Int
  etag : Option String
  deriving DecidableEq, Repr

/-- Where a listing of uploads goes on. -/
structure UploadMarker where
  key : String
  uploadId : Option String
  deriving DecidableEq, Repr

/-- What is listed: a bucket and the common start of the keys. -/
structure UploadListing where
  bucket : String
  start : String
  deriving DecidableEq, Repr

namespace UploadListing

/-- The listing of what lies below a path. -/
def new (path : StorePath) : UploadListing := ⟨path.bucket, path.key⟩

/-- What is listed, in words. -/
def describe (listing : UploadListing) : String :=
  "uploads s3://" ++ listing.bucket ++ "/" ++ listing.start

/-- An upload of a reply. -/
def entry (listed : ListedUpload) : UploadEntry :=
  ⟨listed.key.getD "", listed.uploadId.getD "", Timestamp.instant? listed.time⟩

/-- The page of a reply. -/
def pageOf (reply : UploadsReply) : Page (List UploadEntry) UploadMarker :=
  ⟨reply.uploads.map entry, reply.truncated.getD false,
    reply.nextKey.map fun key => ⟨key, reply.nextUpload⟩⟩

variable {σ : Type}

/-- The pages of a listing. -/
def source (client : Client σ) (listing : UploadListing) :
    Source σ (List UploadEntry) UploadMarker :=
  fun token => do
    let reply ← (client.request (.listUploads listing.bucket listing.start client.pageSize
      (token.map (·.key)) (token.bind (·.uploadId)))).run
    return reply.map pageOf

end UploadListing

/-- What is listed: the upload whose parts are asked for. -/
structure PartListing where
  bucket : String
  key : String
  uploadId : String
  deriving DecidableEq, Repr

namespace PartListing

/-- What is listed, in words. -/
def describe (listing : PartListing) : String :=
  "parts of " ++ listing.uploadId ++ " in s3://" ++ listing.bucket ++ "/" ++ listing.key

/-- A part of a reply. -/
def entry (listed : ListedPart) : PartEntry :=
  ⟨listed.number.getD 0, listed.size.getD 0, listed.etag⟩

/-- The page of a reply. -/
def pageOf (reply : PartsReply) : Page (List PartEntry) String :=
  ⟨reply.parts.map entry, reply.truncated.getD false, reply.next⟩

variable {σ : Type}

/-- The pages of a listing. -/
def source (client : Client σ) (listing : PartListing) : Source σ (List PartEntry) String :=
  fun token => do
    let reply ← (client.request (.listParts listing.bucket listing.key listing.uploadId
      client.pageSize token)).run
    return reply.map pageOf

end PartListing

end BucketCare

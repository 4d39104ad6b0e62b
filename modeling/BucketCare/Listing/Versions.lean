import BucketCare.Paging
import BucketCare.Path
import BucketCare.Store.Client

/-!
# Listing versions

The versions and delete markers of the objects below a path.

## Main definitions

* `VersionMarker` — where a listing goes on
* `VersionListing.page` — a page, its versions and delete markers in one order
* `VersionListing.source` — the pages of a listing
-/

namespace BucketCare

/-- Where a listing of versions goes on. -/
structure VersionMarker where
  key : String
  version : Option String
  deriving DecidableEq, Repr

/-- What is listed: a bucket and the common start of the keys. -/
structure VersionListing where
  bucket : String
  start : String
  deriving DecidableEq, Repr

namespace VersionListing

/-- The listing of what lies below a path. -/
def new (path : StorePath) : VersionListing := ⟨path.bucket, path.key⟩

/-- What is listed, in words. -/
def describe (listing : VersionListing) : String :=
  "versions s3://" ++ listing.bucket ++ "/" ++ listing.start

/-- A page of entries, which are put in order. -/
def page (entries : List VersionEntry) (truncated : Bool) (next : Option VersionMarker) :
    Page (List VersionEntry) VersionMarker :=
  ⟨VersionEntry.sort entries, truncated, next⟩

/-- A version of a reply. -/
def versionEntry (listed : ListedVersion) : VersionEntry :=
  ⟨listed.key.getD "", listed.version, listed.size.getD 0, Timestamp.instant? listed.time,
    listed.isLatest.getD false, false⟩

/-- A delete marker of a reply. -/
def markerEntry (listed : ListedVersion) : VersionEntry :=
  ⟨listed.key.getD "", listed.version, 0, Timestamp.instant? listed.time,
    listed.isLatest.getD false, true⟩

/-- The page of a reply. -/
def pageOf (reply : VersionsReply) : Page (List VersionEntry) VersionMarker :=
  page (reply.versions.map versionEntry ++ reply.markers.map markerEntry)
    (reply.truncated.getD false)
    (reply.nextKey.map fun key => ⟨key, reply.nextVersion⟩)

variable {σ : Type}

/-- The pages of a listing. -/
def source (client : Client σ) (listing : VersionListing) :
    Source σ (List VersionEntry) VersionMarker :=
  fun token => do
    let reply ← (client.request (.listVersions listing.bucket listing.start client.pageSize
      (token.map (·.key)) (token.bind (·.version)))).run
    return reply.map pageOf

end VersionListing

end BucketCare

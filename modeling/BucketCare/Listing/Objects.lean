import BucketCare.Paging
import BucketCare.Path
import BucketCare.Store.Client

/-!
# Listing objects

The objects below a path, level by level or all at once, through either version of the interface.

## Main definitions

* `ObjectEntry`, `ObjectPage` — an object, and the objects and folders of a page
* `nextMarker` — where a listing by the first version goes on
* `ObjectListing.source` — the pages of a listing
-/

namespace BucketCare

/-- An object of a listing. -/
structure ObjectEntry where
  key : String
  size : Int
  time : Option Instant
  etag : Option String
  storageClass : Option String
  deriving DecidableEq, Repr

/-- The objects and the folders of a page. -/
structure ObjectPage where
  objects : List ObjectEntry
  folders : List String
  deriving DecidableEq, Repr

namespace ObjectPage

/-- The entries of a page. -/
def size (page : ObjectPage) : Nat := page.objects.length + page.folders.length

end ObjectPage

/-- The greater of two texts, where an absent one counts as the least. -/
def laterText : Option String → Option String → Option String
  | some a, some b => if a < b then some b else some a
  | some a, none => some a
  | none, b => b

/-- Where a listing by the first version goes on: at the marker that the store names, or else behind
the greater of the last key and the last folder. -/
def nextMarker (named : Option String) (keys folders : List String) : Option String :=
  named <|> laterText keys.getLast? folders.getLast?

/-- What is listed: a bucket, the common start of the keys, and where folders end. -/
structure ObjectListing where
  bucket : String
  folder : String
  delimiter : Option String
  deriving DecidableEq, Repr

namespace ObjectListing

/-- The listing of what lies below a path, at one level or at all levels. -/
def new (path : StorePath) (recursive : Bool) : ObjectListing :=
  ⟨path.bucket, path.folder, if recursive then none else some "/"⟩

/-- What is listed, in words. -/
def describe (listing : ObjectListing) : String :=
  "objects s3://" ++ listing.bucket ++ "/" ++ listing.folder

/-- An object of a reply. -/
def entry (listed : ListedObject) : ObjectEntry :=
  ⟨listed.key.getD "", listed.size.getD 0, Timestamp.instant? listed.time, listed.etag,
    listed.storageClass⟩

/-- The content of a reply. -/
def content (reply : ObjectsReply) : ObjectPage :=
  ⟨reply.objects.map entry, reply.folders.filterMap id⟩

/-- The page of a reply by the first version. -/
def pageV1 (reply : ObjectsReply) : Page ObjectPage String :=
  let page := content reply
  ⟨page, reply.truncated.getD false, nextMarker reply.next (page.objects.map (·.key)) page.folders⟩

/-- The page of a reply by the second version. -/
def pageV2 (reply : ObjectsReply) : Page ObjectPage String :=
  ⟨content reply, reply.truncated.getD false, reply.next⟩

variable {σ : Type}

/-- The pages of a listing, through the version that the client speaks. -/
def source (client : Client σ) (listing : ObjectListing) : Source σ ObjectPage String :=
  fun token =>
    match client.listVersion with
    | 1 => do
      let reply ← (client.request (.listObjects listing.bucket listing.folder listing.delimiter
        client.pageSize token)).run
      return reply.map pageV1
    | 2 => do
      let reply ← (client.request (.listObjectsV2 listing.bucket listing.folder listing.delimiter
        client.pageSize token)).run
      return reply.map pageV2
    | other => return .error (.unsupportedVersion s!"list version {other}")

end ObjectListing

end BucketCare

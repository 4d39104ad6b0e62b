import BucketCare.Version

/-!
# Requests to a store

The requests that are sent to a store and to the token service, and what each of them is answered
with. Anything a service may leave out of an answer is optional.

## Main definitions

* `Timestamp` — a time as a service states it
* `Request` — the requests
* `Request.Reply` — the answer to a request
-/

namespace BucketCare

/-- A time as a service states it. -/
structure Timestamp where
  seconds : Int
  nanoseconds : Nat
  deriving DecidableEq, Repr

namespace Timestamp

/-- The point in time of an optional timestamp, if it can be represented. -/
def instant? (t : Option Timestamp) : Option Instant :=
  t.bind fun t => Instant.ofParts? t.seconds t.nanoseconds

end Timestamp

/-- A request to a store or to the token service. -/
inductive Request where
  /-- A page of objects, by the first interface version. -/
  | listObjects (bucket folder : String) (delimiter : Option String) (limit : Int)
      (marker : Option String)
  /-- A page of objects, by the second interface version. -/
  | listObjectsV2 (bucket folder : String) (delimiter : Option String) (limit : Int)
      (token : Option String)
  /-- A page of versions and delete markers. -/
  | listVersions (bucket start : String) (limit : Int) (keyMarker versionMarker : Option String)
  /-- A page of pending uploads. -/
  | listUploads (bucket start : String) (limit : Int) (keyMarker uploadMarker : Option String)
  /-- A page of the parts of a pending upload. -/
  | listParts (bucket key uploadId : String) (limit : Int) (marker : Option String)
  | headBucket (bucket : String)
  | bucketLocation (bucket : String)
  | bucketVersioning (bucket : String)
  /-- A new bucket, in a region other than the one that needs no mention. -/
  | createBucket (bucket : String) (region : Option String)
  | headObject (bucket key : String)
  /-- A copy of an object's version over the object. -/
  | copyObject (bucket key source : String)
  | putObject (bucket key contentType : String) (body : ByteArray)
  | createUpload (bucket key contentType : String)
  /-- A part of an upload, by its number of 32 bits with a sign. -/
  | uploadPart (bucket key uploadId : String) (number : Int32) (body : ByteArray)
  /-- The end of an upload: the numbers of its parts with their tags. -/
  | completeUpload (bucket key uploadId : String) (parts : List (Int32 × Option String))
  | abortUpload (bucket key uploadId : String)
  /-- Many objects or versions deleted at once; only refusals are reported. -/
  | deleteObjects (bucket : String) (objects : List Candidate)
  | sessionToken (seconds : Int)
  | assumeRole (role name : String) (seconds : Int)

/-- An object of a listing. -/
structure ListedObject where
  key : Option String
  size : Option Int
  time : Option Timestamp
  etag : Option String
  storageClass : Option String
  deriving DecidableEq, Repr

/-- A page of objects; `next` is the token or marker of the next page. -/
structure ObjectsReply where
  objects : List ListedObject
  folders : List (Option String)
  truncated : Option Bool
  next : Option String
  deriving DecidableEq, Repr

/-- A version or a delete marker of a listing; a marker has no size. -/
structure ListedVersion where
  key : Option String
  version : Option String
  size : Option Int
  time : Option Timestamp
  isLatest : Option Bool
  deriving DecidableEq, Repr

/-- A page of versions and delete markers. -/
structure VersionsReply where
  versions : List ListedVersion
  markers : List ListedVersion
  truncated : Option Bool
  nextKey : Option String
  nextVersion : Option String
  deriving DecidableEq, Repr

/-- A pending upload of a listing. -/
structure ListedUpload where
  key : Option String
  uploadId : Option String
  time : Option Timestamp
  deriving DecidableEq, Repr

/-- A page of pending uploads. -/
structure UploadsReply where
  uploads : List ListedUpload
  truncated : Option Bool
  nextKey : Option String
  nextUpload : Option String
  deriving DecidableEq, Repr

/-- A part of a listing. -/
structure ListedPart where
  number : Option Int
  size : Option Int
  etag : Option String
  deriving DecidableEq, Repr

/-- A page of parts. -/
structure PartsReply where
  parts : List ListedPart
  truncated : Option Bool
  next : Option String
  deriving DecidableEq, Repr

/-- An entry that a bulk deletion could not delete. -/
structure DeleteFault where
  key : Option String
  version : Option String
  code : Option String
  message : Option String
  deriving DecidableEq, Repr

/-- Credentials of the token service. -/
structure IssuedCredentials where
  accessKey : String
  secretKey : String
  token : String
  expiration : Timestamp
  deriving DecidableEq, Repr

/-- The answer to a request. -/
@[reducible] def Request.Reply : Request → Type
  | .listObjects .. | .listObjectsV2 .. => ObjectsReply
  | .listVersions .. => VersionsReply
  | .listUploads .. => UploadsReply
  | .listParts .. => PartsReply
  | .headBucket .. => Option String
  | .bucketLocation .. => Option String
  | .bucketVersioning .. => Option String
  | .createBucket .. | .headObject .. | .copyObject .. | .putObject .. => Unit
  | .createUpload .. => Option String
  | .uploadPart .. => Option String
  | .completeUpload .. | .abortUpload .. => Unit
  | .deleteObjects .. => List DeleteFault
  | .sessionToken .. | .assumeRole .. => Option IssuedCredentials

end BucketCare

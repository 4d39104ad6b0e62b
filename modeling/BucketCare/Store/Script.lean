import BucketCare.Store.Link

/-!
# Scripted stores

A store that replays a script. A request is answered by the first entry that is left for its
operation and, if the entry names a key, for its key; an entry answers once. A request that no
entry fits is refused.

## Main definitions

* `Request.operation`, `Request.bucket?`, `Request.key?` — what a request asks for, and of what
* `Request.query` — the parameters of a request
* `ScriptEntry` — an answer and the requests it fits
* `Link.scripted` — the link to a scripted store
-/

namespace BucketCare

namespace Request

/-- The name of the operation that is asked for. -/
def operation : Request → String
  | listObjects .. => "ListObjects"
  | listObjectsV2 .. => "ListObjectsV2"
  | listVersions .. => "ListObjectVersions"
  | listUploads .. => "ListMultipartUploads"
  | listParts .. => "ListParts"
  | headBucket .. => "HeadBucket"
  | bucketLocation .. => "GetBucketLocation"
  | bucketVersioning .. => "GetBucketVersioning"
  | createBucket .. => "CreateBucket"
  | headObject .. => "HeadObject"
  | copyObject .. => "CopyObject"
  | putObject .. => "PutObject"
  | createUpload .. => "CreateMultipartUpload"
  | uploadPart .. => "UploadPart"
  | completeUpload .. => "CompleteMultipartUpload"
  | abortUpload .. => "AbortMultipartUpload"
  | deleteObjects .. => "DeleteObjects"
  | sessionToken .. => "GetSessionToken"
  | assumeRole .. => "AssumeRole"

/-- The bucket that is asked, unless the token service is. -/
def bucket? : Request → Option String
  | listObjects bucket .. | listObjectsV2 bucket .. | listVersions bucket .. | listUploads bucket ..
  | listParts bucket .. | headBucket bucket | bucketLocation bucket | bucketVersioning bucket
  | createBucket bucket _ | headObject bucket _ | copyObject bucket .. | putObject bucket ..
  | createUpload bucket .. | uploadPart bucket .. | completeUpload bucket ..
  | abortUpload bucket .. | deleteObjects bucket _ => some bucket
  | sessionToken _ | assumeRole .. => none

/-- The key of the object that a request is about. -/
def key? : Request → Option String
  | listParts _ key .. | headObject _ key | copyObject _ key _ | putObject _ key .. => some key
  | createUpload _ key _ | uploadPart _ key .. | completeUpload _ key .. => some key
  | abortUpload _ key _ => some key
  | _ => none

/-- A parameter of a query that may be absent. -/
def parameter (name : String) (value : Option String) : List (String × String) :=
  (value.map fun v => (name, v)).toList

/-- The parameters that are sent with a request, by name. -/
def query : Request → List (String × String)
  | listObjects _ folder delimiter limit marker =>
    [("prefix", folder), ("max", toString limit)] ++ parameter "delimiter" delimiter ++
      parameter "marker" marker
  | listObjectsV2 _ folder delimiter limit token =>
    [("prefix", folder), ("max", toString limit)] ++ parameter "delimiter" delimiter ++
      parameter "token" token
  | listVersions _ start limit key version =>
    [("prefix", start), ("max", toString limit)] ++ parameter "key_marker" key ++
      parameter "version_marker" version
  | listUploads _ start limit key upload =>
    [("prefix", start), ("max", toString limit)] ++ parameter "key_marker" key ++
      parameter "upload_marker" upload
  | listParts _ _ upload limit marker =>
    [("upload_id", upload), ("max", toString limit)] ++ parameter "part_marker" marker
  | uploadPart _ _ upload number _ => [("upload_id", upload), ("part_number", toString number)]
  | completeUpload _ _ upload _ | abortUpload _ _ upload => [("upload_id", upload)]
  | sessionToken seconds => [("duration", toString seconds)]
  | assumeRole role name seconds =>
    [("role_arn", role), ("session_name", name), ("duration", toString seconds)]
  | _ => []

/-- The answer to a request has no body, and neither does a refusal. -/
def isBodiless : Request → Bool
  | headBucket _ | headObject .. => true
  | _ => false

end Request

/-- A fault without what the body of an answer tells. -/
def Fault.withoutBody : Fault → Fault
  | .answered status _ _ region description => .answered status none none region description
  | fault => fault

/-- An answer and the requests it fits. -/
structure ScriptEntry where
  /-- The operation that is answered. -/
  operation : String
  /-- The only key that is answered for, if there is one. -/
  key : Option String
  answer : (request : Request) → Except Fault request.Reply

namespace ScriptEntry

/-- The entry fits a request. -/
def fits (entry : ScriptEntry) (request : Request) : Bool :=
  entry.operation == request.operation && (entry.key.isNone || entry.key == request.key?)

/-- The first entry that fits a request, and the script without it. -/
def take? (request : Request) : List ScriptEntry → Option (ScriptEntry × List ScriptEntry)
  | [] => none
  | entry :: rest =>
    if entry.fits request then some (entry, rest)
    else (take? request rest).map fun (found, rest) => (found, entry :: rest)

/-- The refusal of a request that no entry fits, with a description. -/
def unfit (description : String) (request : Request) : Fault :=
  .answered 501 (some "NotImplemented") (some ("no reply scripted for " ++ request.operation)) none
    description

/-- The answer to a request, which tells no more than its kind of answer can. -/
def answerTo (request : Request) (answer : Except Fault request.Reply) :
    Except Fault request.Reply :=
  if request.isBodiless then answer.mapError Fault.withoutBody else answer

end ScriptEntry

/-- The link to a scripted store; its state is what is left of the script. A refusal of a request
that no entry fits is described in the words that are given. -/
def Link.scripted (description : String) : Link (List ScriptEntry) where
  send request := fun script =>
    match ScriptEntry.take? request script with
    | some (entry, script) => (ScriptEntry.answerTo request (entry.answer request), script)
    | none =>
      (ScriptEntry.answerTo request (.error (ScriptEntry.unfit description request)), script)
  clock _ := ⟨0⟩

end BucketCare

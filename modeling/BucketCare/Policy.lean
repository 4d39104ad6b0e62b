import BucketCare.Json
import BucketCare.Path

/-!
# Access policies

The policy that grants the access these tools need below a path: to the bucket itself, and to the
objects whose keys begin with the path's folder.

## Main definitions

* `Policy` — a policy document of statements
* `Policy.forPath` — the policy for a path
* `Policy.toJson` — its document
-/

namespace BucketCare

/-- A statement that allows some actions on some resources. -/
structure Statement where
  name : String
  effect : String
  actions : List String
  resources : List String
  deriving DecidableEq, Repr

/-- A policy document. -/
structure Policy where
  version : String
  statements : List Statement
  deriving DecidableEq, Repr

/-- Which permissions a policy grants. -/
structure PolicyOptions where
  /-- Grant read access only. -/
  readOnly : Bool
  /-- Leave out the permissions for uploads in parts. -/
  noMultipart : Bool
  deriving DecidableEq, Repr

namespace Policy

/-- The version of the policy language. -/
def languageVersion : String := "2012-10-17"

/-- The resource name of a bucket. -/
def bucketResource (path : StorePath) : String := "arn:aws:s3:::" ++ path.bucket

/-- The resource pattern of the objects below a path. -/
def objectResource (path : StorePath) : String :=
  bucketResource path ++ "/" ++ path.folder ++ "*"

/-- A statement that allows some actions. -/
def allow (name : String) (actions resources : List String) : Statement :=
  ⟨name, "Allow", actions, resources⟩

/-- Access to the bucket itself. -/
def bucketAccess (path : StorePath) : Statement :=
  allow "BucketAccess"
    ["s3:ListBucket", "s3:ListBucketVersions", "s3:ListBucketMultipartUploads",
      "s3:GetBucketLocation"]
    [bucketResource path]

/-- Reading objects and their versions. -/
def objectRead (path : StorePath) : Statement :=
  allow "ObjectRead" ["s3:GetObject", "s3:GetObjectVersion"] [objectResource path]

/-- Writing and deleting objects and their versions. -/
def objectWrite (path : StorePath) : Statement :=
  allow "ObjectWrite" ["s3:PutObject", "s3:DeleteObject", "s3:DeleteObjectVersion"]
    [objectResource path]

/-- Handling uploads in parts. -/
def multipartUploads (path : StorePath) : Statement :=
  allow "MultipartUploads" ["s3:AbortMultipartUpload", "s3:ListMultipartUploadParts"]
    [objectResource path]

/-- The statements about objects: reading, and unless that is all, writing and uploads in parts. -/
def objectStatements (path : StorePath) (options : PolicyOptions) : List Statement :=
  if options.readOnly then [objectRead path]
  else if options.noMultipart then [objectRead path, objectWrite path]
  else [objectRead path, objectWrite path, multipartUploads path]

/-- The policy for a path. -/
def forPath (path : StorePath) (options : PolicyOptions) : Policy :=
  ⟨languageVersion, bucketAccess path :: objectStatements path options⟩

/-- A list of texts as a document. -/
def textList (texts : List String) : Json := .list (texts.map .text)

/-- A statement as a document. -/
def statementJson (statement : Statement) : Json :=
  .record
    [("Sid", .text statement.name), ("Effect", .text statement.effect),
      ("Action", textList statement.actions), ("Resource", textList statement.resources)]

/-- A policy as a document. -/
def toJson (policy : Policy) : Json :=
  .record
    [("Version", .text policy.version),
      ("Statement", .list (policy.statements.map statementJson))]

end Policy

end BucketCare

import BucketCare.Error
import BucketCare.Instant
import BucketCare.Json
import BucketCare.Masking

/-!
# Session credentials

Temporary credentials: how long they may be asked for, and how they are printed.

## Main definitions

* `SessionRequest` — what is asked of the token service, with `SessionRequest.validate`
* `SessionCredentials` — what it answers, and its printed forms
-/

namespace BucketCare

/-- What is asked of the token service. -/
structure SessionRequest where
  /-- The role to take on; without one a plain session is asked for. -/
  role : Option String
  /-- The name of a session that takes on a role. -/
  name : Option String
  /-- The lifetime in seconds. -/
  seconds : Int
  deriving DecidableEq, Repr

namespace SessionRequest

/-- The lifetime that is asked for unless another is given. -/
def defaultSeconds : Int := 3600

/-- The shortest lifetime. -/
def shortest : Int := 900

/-- The longest lifetime, which is shorter for a session that takes on a role. -/
def longest (request : SessionRequest) : Int :=
  if request.role.isSome then 43200 else 129600

/-- The lifetime lies within its bounds. -/
def validate (request : SessionRequest) : Except Error Unit :=
  if shortest ≤ request.seconds ∧ request.seconds ≤ request.longest then .ok ()
  else
    let bounds := toString shortest ++ " and " ++ toString request.longest
    .error (.usage
      ("session duration must be between " ++ bounds ++ " seconds, got " ++
        toString request.seconds))

end SessionRequest

/-- Temporary credentials. -/
structure SessionCredentials where
  accessKey : String
  secretKey : String
  token : String
  expiration : Option Instant
  deriving DecidableEq, Repr

namespace SessionCredentials

/-- Lines for a shell that put the credentials into the environment. -/
def exportLines (credentials : SessionCredentials) : List String :=
  ["export AWS_ACCESS_KEY_ID=" ++ credentials.accessKey,
    "export AWS_SECRET_ACCESS_KEY=" ++ credentials.secretKey,
    "export AWS_SESSION_TOKEN=" ++ credentials.token]

/-- The credentials as a document. -/
def toJson (credentials : SessionCredentials) : Json :=
  .record
    [("access_key_id", .text credentials.accessKey),
      ("secret_access_key", .text credentials.secretKey),
      ("session_token", .text credentials.token),
      ("expiration", match credentials.expiration with
        | some t => .text t.isoUtc
        | none => .null)]

/-- The credentials for diagnostics, where the secret parts are masked. -/
def describe (credentials : SessionCredentials) : String :=
  let expiration := match credentials.expiration with
    | some t => "Some(" ++ t.isoUtc ++ ")"
    | none => "None"
  "SessionCredentials \x7b access_key_id: " ++ Text.quote credentials.accessKey ++
    ", secret_access_key: " ++ Text.quote (Masking.mask credentials.secretKey) ++
    ", session_token: " ++ Text.quote (Masking.mask credentials.token) ++
    ", expiration: " ++ expiration ++ " \x7d"

end SessionCredentials

end BucketCare

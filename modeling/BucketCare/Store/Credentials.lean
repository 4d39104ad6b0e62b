import BucketCare.Files.Tree
import BucketCare.Settings.Basic
import BucketCare.Store.Profiles

/-!
# Credentials and region

Where the client finds its credentials and its region: in the settings, in the environment, or in
the shared files of a profile below the home directory.

## Main definitions

* `Surroundings` — the home directory, the environment and the files
* `Surroundings.profiles` — the profiles of the shared files
* `Surroundings.region` — the region of the client
* `Surroundings.credentials` — the credentials of the client
-/

namespace BucketCare

/-- What a command finds around it. -/
structure Surroundings where
  /-- The home directory. -/
  home : String
  /-- The environment. -/
  environment : List (String × String)
  deriving DecidableEq, Repr

namespace Surroundings

/-- The value of a variable. -/
def get? (around : Surroundings) (name : String) : Option String := around.environment.lookup name

/-- The value of a variable, unless it is blank. -/
def filled? (around : Surroundings) (name : String) : Option String :=
  (around.get? name).filter fun value => !(Text.trim value.toList).isEmpty

/-- A path, where a tilde for its first name stands for the home directory. -/
def expand (around : Surroundings) (path : String) : String :=
  match Text.pieces '/' path with
  | "~" :: names => (names.filter fun n => n != "" && n != ".").foldl Route.join around.home
  | _ => path

/-- The path of the shared file of credentials. -/
def credentialsPath (around : Surroundings) : String :=
  around.expand ((around.get? "AWS_SHARED_CREDENTIALS_FILE").getD "~/.aws/credentials")

/-- The path of the shared file of settings. -/
def configPath (around : Surroundings) : String :=
  around.expand ((around.get? "AWS_CONFIG_FILE").getD "~/.aws/config")

/-- The text of a shared file; empty if the file cannot be read. -/
def sharedText (tree : FileTree) (path : String) : String :=
  match tree.readText path with
  | .ok text => text
  | .error _ => ""

/-- The profiles of the two shared files, unless one of them has a line that cannot be read. The
values among the credentials count. -/
def profiles (around : Surroundings) (tree : FileTree) : Option Profiles := do
  let settings ← Profiles.read .settings (sharedText tree around.configPath)
  let credentials ← Profiles.read .credentials (sharedText tree around.credentialsPath)
  return Profiles.merge settings credentials

/-- The profile in use: that of the settings, that of the environment, or the usual one. -/
def profileName (around : Surroundings) (store : StoreSettings) : String :=
  (store.profile <|> around.get? "AWS_PROFILE").getD Profiles.usualName

/-- The region of the profile in use. -/
def profileRegion (around : Surroundings) (tree : FileTree) (store : StoreSettings) :
    Option String := do
  (← around.profiles tree).region? (around.profileName store)

/-- The region that is used when none is set anywhere. -/
def usualRegion : String := "us-east-1"

/-- The region of the client: that of the settings, of the environment, or of the profile. -/
def region (around : Surroundings) (tree : FileTree) (store : StoreSettings) : String :=
  (store.region <|> around.get? "AWS_REGION" <|> around.get? "AWS_DEFAULT_REGION" <|>
    around.profileRegion tree store).getD usualRegion

end Surroundings

/-- What is known about the client's credentials. -/
structure CredentialSummary where
  accessKey : String
  hasToken : Bool
  expires : Bool
  deriving DecidableEq, Repr

namespace Surroundings

/-- Why no credentials were found. -/
def noCredentials : String := "the credential provider was not enabled"

/-- The keys of the settings. -/
def settingsKeys (store : StoreSettings) : Option CredentialSummary := do
  let accessKey ← store.accessKey
  let _ ← store.secretKey
  return ⟨accessKey, store.sessionToken.isSome, false⟩

/-- The keys of the environment. -/
def variableKeys (around : Surroundings) : Option CredentialSummary := do
  let accessKey ← around.filled? "AWS_ACCESS_KEY_ID"
  let _ ← around.filled? "AWS_SECRET_ACCESS_KEY" <|> around.filled? "SECRET_ACCESS_KEY"
  return ⟨accessKey, (around.filled? "AWS_SESSION_TOKEN").isSome, false⟩

/-- The properties that make a profile ask a service or a program for its keys. -/
def serviceProperties : List String :=
  ["role_arn", "credential_source", "web_identity_token_file", "sso_account_id", "sso_region",
    "sso_role_name", "sso_start_url", "sso_session", "credential_process"]

/-- The keys of the profile in use. A profile that asks a service or a program has none. -/
def profileKeys (around : Surroundings) (tree : FileTree) (store : StoreSettings) :
    Option CredentialSummary := do
  let properties ← (← around.profiles tree).lookup (around.profileName store)
  if serviceProperties.any fun name => (properties.lookup name).isSome then none
  let accessKey ← properties.lookup "aws_access_key_id"
  let _ ← properties.lookup "aws_secret_access_key"
  return ⟨accessKey, (properties.lookup "aws_session_token").isSome, false⟩

/-- The credentials of the client: those of the settings, of the environment, or of the profile. -/
def credentials (around : Surroundings) (tree : FileTree) (store : StoreSettings) :
    Except Error CredentialSummary :=
  let found := settingsKeys store <|> around.variableKeys <|> around.profileKeys tree store
  match found with
  | some summary => .ok summary
  | none => .error (.permissionDenied ("failed to resolve credentials: " ++ noCredentials))

end Surroundings

end BucketCare

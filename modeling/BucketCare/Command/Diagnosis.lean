import BucketCare.Command.World
import BucketCare.Listing.Objects
import BucketCare.Masking
import BucketCare.Store.Operations

/-!
# Diagnosis

The commands that show the settings, the environment and the client, ask a store a few questions,
and report on its capabilities. Secrets are masked.

## Main definitions

* `settingRows`, `variableRows` — the settings and the environment as they are printed
* `Diagnosis` — how many questions failed, and the first failure
* `diagnose`, `checkCapability` — the commands
-/

namespace BucketCare.Command

variable {σ : Type}

/-! ## Settings and environment -/

/-- Every setting by its name, and its value. -/
def settingEntries (settings : Settings) : List (String × String) :=
  let store := settings.store
  let transfer := settings.transfer
  [("store.endpoint", store.endpoint.getD ""), ("store.region", store.region.getD ""),
    ("store.profile", store.profile.getD ""), ("store.access_key_id", store.accessKey.getD ""),
    ("store.secret_access_key", store.secretKey.getD ""),
    ("store.session_token", store.sessionToken.getD ""),
    ("store.path_style", toString store.pathStyle),
    ("store.list_version", toString store.listVersion.toNat),
    ("advanced.max_retries", toString transfer.maxRetries.toNat),
    ("advanced.timeout", toString transfer.timeout.toNat),
    ("advanced.list_page_size", toString transfer.listPageSize.toNat),
    ("advanced.delete_page_size", toString transfer.deletePageSize.toNat),
    ("advanced.upload_threads", toString transfer.uploadThreads.toNat),
    ("advanced.upload_largest", toString transfer.uploadLargest.toNat),
    ("advanced.multipart_threshold_mb", toString transfer.multipartThreshold.toNat),
    ("advanced.multipart_chunk_size_mb", toString transfer.multipartChunk.toNat),
    ("logging.level", settings.logging.level), ("logging.format", settings.logging.format),
    ("output.separator", Text.quote settings.output.separator)]

/-- Every setting by its name, and its value as it is printed. -/
def settingRows (settings : Settings) : List (List String) :=
  (settingEntries settings).map fun (name, value) => [name, Masking.sanitize name value]

/-- Print every setting. -/
def printSettings (settings : Settings) : Run σ Unit :=
  Run.printTable ["option", "value"] (settingRows settings)

/-- The variables that matter. -/
def variableNames : List String :=
  ["AWS_PROFILE", "AWS_REGION", "AWS_DEFAULT_REGION", "AWS_ENDPOINT_URL", "AWS_ENDPOINT_URL_S3",
    "AWS_ACCESS_KEY_ID", "AWS_SECRET_ACCESS_KEY", "AWS_SESSION_TOKEN", "AWS_CONFIG_FILE",
    "AWS_SHARED_CREDENTIALS_FILE", "CLOUDSTORE_CONFIG", "RUST_LOG"]

/-- The variables that matter and are set, and their values as they are printed. -/
def variableRows (around : Surroundings) : List (List String) :=
  variableNames.filterMap fun name =>
    (around.get? name).map fun value => [name, Masking.sanitize name value]

/-- Print the variables that matter. -/
def printVariables (around : Surroundings) : Run σ Unit :=
  match variableRows around with
  | [] => Run.printLine "  No AWS environment variables set"
  | rows => Run.printTable ["variable", "value"] rows

/-- Where the client finds its credentials, in words. -/
def credentialSource (store : StoreSettings) : String :=
  if store.hasKeys then "static keys from configuration"
  else match store.profile with
    | some profile => "profile '" ++ profile ++ "'"
    | none => "default provider chain"

/-! ## Questions to a store -/

/-- How many questions failed, and the first failure. -/
structure Diagnosis where
  failures : Nat
  firstError : Option Error
  deriving DecidableEq, Repr

namespace Diagnosis

/-- Nothing was asked yet. -/
def start : Diagnosis := ⟨0, none⟩

/-- One more failure. -/
def add (diagnosis : Diagnosis) (error : Error) : Diagnosis :=
  ⟨diagnosis.failures + 1, diagnosis.firstError <|> some error⟩

/-- Ask a question and print how it went: on success with what the answer adds. -/
def check {α : Type} (machine : Machine σ) (diagnosis : Diagnosis) (name : String)
    (question : Exchange σ α) (describe : α → String) : Run σ Diagnosis := do
  let begun := (machine.link.clock (← get).link).nanoseconds
  let result ← Run.onLink question.run
  let ended := (machine.link.clock (← get).link).nanoseconds
  let time := " (" ++ (Elapsed.mk (ended - begun)).display ++ ")"
  match result with
  | .ok answer =>
    Run.printLine ("  ✓ " ++ name ++ time)
    Run.printLine ("      " ++ describe answer)
    return diagnosis
  | .error e =>
    Run.printLine ("  ✗ " ++ name ++ ": " ++ e.message ++ time)
    return diagnosis.add e

end Diagnosis

/-- The credentials in words. -/
def describeCredentials (summary : CredentialSummary) : String :=
  "access key " ++ Masking.mask summary.accessKey ++ if summary.hasToken then " (session)" else ""

/-- The first page of a listing. -/
def firstPage (client : Client σ) (path : StorePath) : Exchange σ (Page ObjectPage String) := do
  let source := (ObjectListing.new path false).source client
  let cursor ← ExceptT.mk (Cursor.start source)
  ExceptT.mk (do return (← Cursor.next source cursor).1)

/-- A page in words. -/
def describePage (page : Page ObjectPage String) : String :=
  s!"{page.content.objects.length} objects, {page.content.folders.length} prefixes" ++
    if page.truncated then ", more pages" else ""

/-- Ask the store the questions of a diagnosis. -/
def askStore (machine : Machine σ) (client : Client σ) (path : StorePath) : Run σ Diagnosis := do
  let diagnosis ← Diagnosis.start.check machine "resolve credentials"
    (Exchange.ofExcept client.credentials) describeCredentials
  let diagnosis ← diagnosis.check machine "HeadBucket" (client.headBucket path.bucket)
    fun region => "bucket region: " ++ region.getD "(not reported)"
  let diagnosis ← diagnosis.check machine "first listing page" (firstPage client path) describePage
  diagnosis.check machine "bucket versioning" (client.bucketVersioning path.bucket)
    fun status => "versioning: " ++ status.getD "never enabled"

/-- A capability and what is known about it, as they are printed. -/
def capabilityRow (answer : Capability × Except Error CapabilityStatus) : List String :=
  [answer.1.name, match answer.2 with
    | .ok status => status.display
    | .error e => "error: " ++ e.message]

/-- Print the client. -/
def printClient (settings : Settings) (client : Client σ) : Run σ Unit := do
  Run.printLine "Client:"
  Run.printLine s!"  Region: {client.region}"
  Run.printLine ("  Endpoint: " ++ client.endpoint.getD "AWS default")
  Run.printLine s!"  Path style: {settings.store.pathStyle}"
  Run.printLine s!"  List API: v{client.listVersion}"
  Run.printLine ("  Credentials: " ++ credentialSource settings.store)

/-- Diagnose the settings and the connection for a path. -/
def diagnose (machine : Machine σ) (settingsPath : Option String) (path : String) :
    Run σ Unit := do
  let path ← Run.ofExcept (StorePath.parse path)
  let file := Settings.path machine.around.home settingsPath
  Run.printLine s!"Diagnosing {path}"
  Run.printLine ""
  if (← get).files.exists_ file then Run.printLine s!"Configuration file: {file}"
  else Run.printLine s!"Configuration file: {file} (not found, using defaults)"
  let settings ← Run.settings machine settingsPath
  printSettings settings
  Run.printLine ""
  Run.printLine "Environment:"
  printVariables machine.around
  let client ← Run.client machine settings
  Run.printLine ""
  printClient settings client
  Run.printLine ""
  Run.printLine "Probes:"
  let diagnosis ← askStore machine client path
  Run.printLine ""
  Run.printLine "Capabilities:"
  let probe ← Run.ofExcept (client.probe settings.store.pathStyle)
  let answers ← Run.onLink (probe.probeAll path.bucket)
  Run.printTable ["capability", "status"] (answers.map capabilityRow)
  match diagnosis.firstError with
  | some e => Run.doing s!"{diagnosis.failures} store probes failed" (Run.fail e)
  | none =>
    Run.printLine ""
    Run.printLine "✅ All probes passed"

/-- Tell whether a store supports a capability; it is a failure if it does not. -/
def checkCapability (machine : Machine σ) (settingsPath : Option String) (name path : String) :
    Run σ Unit := do
  let capability ← Run.ofExcept (Capability.ofName name)
  let path ← Run.ofExcept (StorePath.parse path)
  let (settings, client) ← Run.connect machine settingsPath
  let probe ← Run.ofExcept (client.probe settings.store.pathStyle)
  let status ← Run.exchange (ExceptT.mk (probe.probe path.bucket capability))
  Run.printLine (path.display ++ "\t" ++ capability.name ++ "\t" ++ status.display)
  if !status.isSupported then
    Run.fail (.notFound (capability.name ++ " is not supported at " ++ path.display))

end BucketCare.Command

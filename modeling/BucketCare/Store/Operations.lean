import BucketCare.Capability
import BucketCare.Deletion.Batcher
import BucketCare.Session
import BucketCare.Store.Client

/-!
# What a client asks of a store

Beside single requests a client is a deleter, a probe and a source of session credentials.

The deleter sends each batch to the store as one request. The store reports refusals only, so
whatever is not reported was deleted. The probe asks a live store; only the question about versions
takes a request, the others are answered by the settings of the client. Session credentials are
asked of the token service by the client's own credentials.

## Main definitions

* `Client.deleter` — the deleter for a bucket
* `Client.probe` — the probe of a client
* `Client.sessionCredentials` — the credentials that a request is answered with
-/

namespace BucketCare

namespace SessionCredentials

/-- The credentials that were issued. -/
def ofIssued (issued : IssuedCredentials) : SessionCredentials :=
  ⟨issued.accessKey, issued.secretKey, issued.token, Timestamp.instant? (some issued.expiration)⟩

end SessionCredentials

namespace Client

variable {σ : Type}

/-! ## Deleting -/

/-- An entry of a reply that was not deleted. -/
def refusal (fault : DeleteFault) : Refusal :=
  ⟨fault.key.getD "", fault.version, fault.code.getD "Unknown", fault.message.getD ""⟩

/-- What a reply says about a batch of some size. -/
def outcomeOf (size : Nat) (faults : List DeleteFault) : Outcome :=
  ⟨UInt64.ofNat (size - faults.length), faults.map refusal⟩

/-- The deleter for a bucket. -/
def deleter (client : Client σ) (bucket : String) : Deleter σ := fun batch =>
  if maxPageSize < batch.length then
    return .error (.usage
      s!"bulk delete of {batch.length} entries exceeds the limit of {maxPageSize}")
  else do
    let reply ← (client.request (.deleteObjects bucket batch)).run
    return reply.map (outcomeOf batch.length)

/-! ## Probing -/

/-- What the answer about versions says. Stores of other makers often refuse the question. -/
def versioningStatus : Except Error (Option String) → Except Error CapabilityStatus
  | .ok status => .ok (if status = some "Enabled" then .supported else .unsupported)
  | .error (.unimplemented _) => .ok .unsupported
  | .error (.permissionDenied text) => .ok (.unknown text)
  | .error e => .error e

/-- The probe of a client, which must speak a known level. -/
def probe (client : Client σ) (pathStyle : Bool) : Except Error (CapabilityProbe σ) :=
  (ApiLevel.ofListVersion client.listVersion).map fun level =>
    { level
      ask := fun bucket capability =>
        match capability with
        | .listV2 | .bulkDelete | .multipartUpload => return .ok .supported
        | .pathStyle => return .ok (if pathStyle then .supported else .unsupported)
        | .versioning => do return versioningStatus (← (client.bucketVersioning bucket).run)
        | .conditionalWrite =>
          return .ok (if client.endpoint.isNone then .supported
            else .unknown "third-party endpoint") }

/-! ## Session credentials -/

/-- The credentials that a request is answered with. A request out of bounds is not sent. -/
def sessionCredentials (client : Client σ) (request : SessionRequest) (fresh : String) :
    Exchange σ SessionCredentials := do
  Exchange.ofExcept request.validate
  let issued ← match request.role with
    | some role =>
      client.request (.assumeRole role (request.name.getD fresh) request.seconds)
    | none => client.request (.sessionToken request.seconds)
  match issued with
  | some issued => return .ofIssued issued
  | none => throw (.other "STS returned no credentials")

end Client

end BucketCare

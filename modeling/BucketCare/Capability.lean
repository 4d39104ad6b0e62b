import BucketCare.Error
import BucketCare.Text.Blank

/-!
# Capabilities of a store

A closed set of capabilities, each with the interface level that introduced it. A probe speaks one
level; what a newer level introduced is unsupported without asking the store.

## Main definitions

* `ApiLevel` — the interface levels, in order
* `Capability` — the capabilities, with `Capability.name` and `Capability.minLevel`
* `CapabilityStatus` — what is known about a capability
* `CapabilityProbe` — what answers questions about a bucket
* `CapabilityProbe.probeAll` — the answers about all capabilities
-/

namespace BucketCare

/-- The interface levels of a store. -/
inductive ApiLevel where
  | v1 | v2
  deriving DecidableEq, Repr

namespace ApiLevel

/-- The number of a level. -/
def number : ApiLevel → Nat
  | v1 => 1
  | v2 => 2

/-- The level that a list version implies. -/
def ofListVersion (version : Nat) : Except Error ApiLevel :=
  match version with
  | 1 => .ok v1
  | 2 => .ok v2
  | other => .error (.unsupportedVersion s!"list version {other}")

end ApiLevel

/-- The capabilities that are known. -/
inductive Capability where
  | listV2 | bulkDelete | versioning | multipartUpload | conditionalWrite | pathStyle
  deriving DecidableEq, Repr

namespace Capability

/-- All capabilities, in the order they are reported. -/
def all : List Capability :=
  [listV2, bulkDelete, versioning, multipartUpload, conditionalWrite, pathStyle]

/-- The name of a capability. -/
def name : Capability → String
  | listV2 => "list-v2"
  | bulkDelete => "bulk-delete"
  | versioning => "versioning"
  | multipartUpload => "multipart-upload"
  | conditionalWrite => "conditional-write"
  | pathStyle => "path-style"

/-- The lowest level that has the capability. -/
def minLevel : Capability → ApiLevel
  | listV2 | conditionalWrite => .v2
  | _ => .v1

/-- The capability of a name, where the case of letters does not matter. -/
def ofName (value : String) : Except Error Capability :=
  match all.find? fun c => Text.lowerAscii value == c.name with
  | some c => .ok c
  | none =>
    .error (.usage ("unknown capability '" ++ value ++ "'; known: " ++
      ", ".intercalate (all.map name)))

end Capability

/-- What is known about a capability of a bucket. -/
inductive CapabilityStatus where
  | supported
  | unsupported
  /-- The probe could not decide, for some reason. -/
  | unknown (reason : String)
  deriving DecidableEq, Repr

namespace CapabilityStatus

/-- The capability is there. -/
def isSupported (status : CapabilityStatus) : Bool := status = supported

/-- The status in words. -/
def display : CapabilityStatus → String
  | supported => "supported"
  | unsupported => "unsupported"
  | unknown reason => "unknown (" ++ reason ++ ")"

end CapabilityStatus

/-- What answers questions about the capabilities of a bucket: the level it speaks, and its answers
about capabilities of that level. -/
structure CapabilityProbe (σ : Type) where
  level : ApiLevel
  ask : String → Capability → StateM σ (Except Error CapabilityStatus)

namespace CapabilityProbe

variable {σ : Type}

/-- The answer about one capability: first by its level, then by asking. -/
def probe (probe : CapabilityProbe σ) (bucket : String) (capability : Capability) :
    StateM σ (Except Error CapabilityStatus) :=
  if probe.level.number < capability.minLevel.number then pure (.ok .unsupported)
  else probe.ask bucket capability

/-- The answers about all capabilities, in order. -/
def probeAll (probe : CapabilityProbe σ) (bucket : String) :
    StateM σ (List (Capability × Except Error CapabilityStatus)) :=
  Capability.all.mapM fun capability => do
    return (capability, ← probe.probe bucket capability)

end CapabilityProbe

end BucketCare

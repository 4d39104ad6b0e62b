import BucketCare.Deletion.Batcher

/-!
# Settings

What can be set in the settings file, the values that hold without it, and which settings are
accepted.

## Main definitions

* `Settings` — four sections: the store, the transfers, logging and output
* `Settings.default` — what holds unless a file says otherwise
* `Settings.validate` — the settings that are accepted
-/

namespace BucketCare

/-- How the store is reached. -/
structure StoreSettings where
  /-- The address of a store other than the service's own. -/
  endpoint : Option String
  region : Option String
  /-- A named profile of the shared credentials. -/
  profile : Option String
  accessKey : Option String
  secretKey : Option String
  sessionToken : Option String
  /-- The bucket stands in the path of an address rather than in its host. -/
  pathStyle : Bool
  /-- The version of the interface that lists objects. -/
  listVersion : UInt8
  deriving DecidableEq, Repr

/-- How requests and uploads are made. -/
structure TransferSettings where
  maxRetries : UInt32
  /-- The seconds to wait for a connection. -/
  timeout : UInt64
  listPageSize : UInt64
  deletePageSize : UInt64
  uploadThreads : UInt64
  /-- How many of the biggest files are uploaded first. -/
  uploadLargest : UInt64
  /-- The megabytes from which on a file is uploaded in parts. -/
  multipartThreshold : UInt64
  /-- The megabytes of one part. -/
  multipartChunk : UInt64
  deriving DecidableEq, Repr

/-- What is logged. -/
structure LogSettings where
  level : String
  format : String
  deriving DecidableEq, Repr

/-- How listings are written. -/
structure OutputSettings where
  separator : String
  deriving DecidableEq, Repr

/-- All settings. -/
structure Settings where
  store : StoreSettings
  transfer : TransferSettings
  logging : LogSettings
  output : OutputSettings
  deriving DecidableEq, Repr

namespace StoreSettings

/-- The settings of a store without a file. -/
def default : StoreSettings := ⟨none, none, none, none, none, none, false, 2⟩

/-- Both halves of a pair of keys are set. -/
def hasKeys (store : StoreSettings) : Bool := store.accessKey.isSome && store.secretKey.isSome

end StoreSettings

/-- The settings of transfers without a file. -/
def TransferSettings.default : TransferSettings := ⟨3, 30, 1000, 500, 8, 4, 64, 16⟩

/-- The settings of logging without a file. -/
def LogSettings.default : LogSettings := ⟨"info", "pretty"⟩

/-- The settings of output without a file. -/
def OutputSettings.default : OutputSettings := ⟨"\t"⟩

namespace Settings

/-- What holds unless a file says otherwise. -/
def default : Settings := ⟨.default, .default, .default, .default⟩

instance : Inhabited Settings := ⟨default⟩

/-- The fewest megabytes of one part that a store takes. -/
def minChunk : UInt64 := 5

/-- Why the settings of a store are refused, if they are. -/
def storeFault (store : StoreSettings) : Option Error :=
  if store.accessKey.isSome != store.secretKey.isSome then
    some (.invalidConfig "access_key_id and secret_access_key must be set together")
  else if store.sessionToken.isSome && !store.hasKeys then
    some (.invalidConfig "session_token requires access_key_id and secret_access_key")
  else if store.listVersion != 1 && store.listVersion != 2 then
    some (.unsupportedVersion
      ("list_version must be 1 or 2, got " ++ toString store.listVersion.toNat))
  else none

/-- Why a page size is refused, if it is. -/
def pageFault (name : String) (size : UInt64) : Option Error :=
  match checkPageSize name size.toNat with
  | .ok _ => none
  | .error e => some e

/-- Why the settings of transfers are refused, if they are. -/
def transferFault (transfer : TransferSettings) : Option Error :=
  (pageFault "list_page_size" transfer.listPageSize) <|>
    (pageFault "delete_page_size" transfer.deletePageSize) <|>
      if transfer.uploadThreads = 0 then
        some (.invalidConfig "upload_threads must be at least 1")
      else if transfer.multipartChunk < minChunk then
        some (.invalidConfig
          ("multipart_chunk_size_mb must be at least " ++ toString minChunk.toNat))
      else none

/-- Why the settings of output are refused, if they are. -/
def outputFault (output : OutputSettings) : Option Error :=
  if output.separator.utf8ByteSize = 1 then none
  else some (.invalidConfig "output separator must be a single byte character")

/-- The settings are accepted, or the first reason why not. -/
def validate (settings : Settings) : Except Error Unit :=
  match storeFault settings.store <|> transferFault settings.transfer <|>
      outputFault settings.output with
  | some e => .error e
  | none => .ok ()

end Settings

end BucketCare

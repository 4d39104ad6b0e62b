import BucketCare.Settings.Basic
import BucketCare.Toml.Reader

/-!
# Settings as a document

Settings are written as a TOML document with one table for each section, in a fixed order; absent
options are left out. A document may leave out anything that has a default, and may hold keys that
mean nothing here.

A section may also be a list, whose items are the settings in their order.

## Main definitions

* `Settings.write` — the document of some settings
* `Settings.ofTable?`, `Settings.read?` — the settings of a document
-/

namespace BucketCare.Settings

/-! ## Writing -/

/-- The value of one setting. -/
inductive Field where
  | text (value : String)
  | flag (value : Bool)
  | number (value : Nat)
  deriving DecidableEq, Repr

/-- A setting that may be absent. -/
def optional (name : String) (value : Option String) : List (String × Field) :=
  (value.map fun v => (name, Field.text v)).toList

/-- The settings of a store that are there, in order. -/
def storeFields (store : StoreSettings) : List (String × Field) :=
  optional "endpoint" store.endpoint ++ optional "region" store.region ++
    optional "profile" store.profile ++ optional "access_key_id" store.accessKey ++
    optional "secret_access_key" store.secretKey ++ optional "session_token" store.sessionToken ++
    [("path_style", .flag store.pathStyle), ("list_version", .number store.listVersion.toNat)]

/-- The settings of transfers, in order. -/
def transferFields (transfer : TransferSettings) : List (String × Field) :=
  [("max_retries", .number transfer.maxRetries.toNat),
    ("timeout", .number transfer.timeout.toNat),
    ("list_page_size", .number transfer.listPageSize.toNat),
    ("delete_page_size", .number transfer.deletePageSize.toNat),
    ("upload_threads", .number transfer.uploadThreads.toNat),
    ("upload_largest", .number transfer.uploadLargest.toNat),
    ("multipart_threshold_mb", .number transfer.multipartThreshold.toNat),
    ("multipart_chunk_size_mb", .number transfer.multipartChunk.toNat)]

/-- The settings of logging, in order. -/
def logFields (logging : LogSettings) : List (String × Field) :=
  [("level", .text logging.level), ("format", .text logging.format)]

/-- The settings of output, in order. -/
def outputFields (output : OutputSettings) : List (String × Field) :=
  [("separator", .text output.separator)]

/-- The sections with their settings, in order. -/
def sections (settings : Settings) : List (String × List (String × Field)) :=
  [("store", storeFields settings.store), ("advanced", transferFields settings.transfer),
    ("logging", logFields settings.logging), ("output", outputFields settings.output)]

/-- The written form of a setting's value. A number must fit into 64 bits with a sign. -/
def writeField : Field → Except Error String
  | .text value => .ok (Toml.writeText value)
  | .flag value => .ok (if value then "true" else "false")
  | .number value =>
    if (value : Int) ≤ Toml.greatestInteger then .ok (toString value)
    else .error (.invalidConfig "Failed to serialize config: out-of-range value for u64 type")

/-- The line of a setting. -/
def writeLine (name : String) (field : Field) : Except Error String := do
  return name ++ " = " ++ (← writeField field) ++ "\n"

/-- The lines of a section, below its header. -/
def writeSection (name : String) (fields : List (String × Field)) : Except Error String := do
  let lines ← fields.mapM fun (name, field) => writeLine name field
  return "[" ++ name ++ "]\n" ++ String.join lines

/-- The document of some settings: its sections with an empty line between them. -/
def write (settings : Settings) : Except Error String := do
  let sections ← settings.sections.mapM fun (name, fields) => writeSection name fields
  return "\n".intercalate sections

/-! ## Reading -/

/-- Where the settings of a section are found: under their names, or in their order. -/
inductive Section where
  | named (entries : List (String × Toml.Value))
  | listed (items : List Toml.Value)

namespace Section

/-- The section that a value is. A date counts as a section without settings. -/
def ofValue? : Toml.Value → Option Section
  | .table _ entries => some (.named entries)
  | .array _ items => some (.listed items)
  | .date _ => some (.named [])
  | _ => none

/-- The value of a setting, by its place and its name. -/
def get? (part : Section) (place : Nat) (name : String) : Option Toml.Value :=
  match part with
  | .named entries => entries.lookup name
  | .listed items => items[place]?

/-- A setting of some kind, or what holds when it is absent. -/
def value? {α : Type} (part : Section) (read : Toml.Value → Option α) (default : α) (place : Nat)
    (name : String) : Option α :=
  match part.get? place name with
  | some value => read value
  | none => some default

/-- A setting that may be absent; in a list each place must be filled. -/
def optional? {α : Type} (part : Section) (read : Toml.Value → Option α) (place : Nat)
    (name : String) : Option (Option α) :=
  match part.get? place name, part with
  | some value, _ => (read value).map some
  | none, .named _ => some none
  | none, .listed _ => none

end Section

/-- A text. -/
def readText : Toml.Value → Option String
  | .text value => some value
  | _ => none

/-- A truth value. -/
def readFlag : Toml.Value → Option Bool
  | .boolean value => some value
  | _ => none

/-- A number that is not negative and below a bound. -/
def readBelow (bound : Nat) : Toml.Value → Option Nat
  | .integer value => if 0 ≤ value ∧ value < bound then some value.toNat else none
  | _ => none

/-- A number of 8 bits. -/
def readByte (value : Toml.Value) : Option UInt8 :=
  (readBelow (Nat.pow 2 8) value).map UInt8.ofNat

/-- A number of 32 bits. -/
def readWord (value : Toml.Value) : Option UInt32 :=
  (readBelow (Nat.pow 2 32) value).map UInt32.ofNat

/-- A number of 64 bits. -/
def readLong (value : Toml.Value) : Option UInt64 :=
  (readBelow (Nat.pow 2 64) value).map UInt64.ofNat

/-- The settings of a store. -/
def readStore (part : Section) : Option StoreSettings := do
  let default := StoreSettings.default
  return {
    endpoint := ← part.optional? readText 0 "endpoint"
    region := ← part.optional? readText 1 "region"
    profile := ← part.optional? readText 2 "profile"
    accessKey := ← part.optional? readText 3 "access_key_id"
    secretKey := ← part.optional? readText 4 "secret_access_key"
    sessionToken := ← part.optional? readText 5 "session_token"
    pathStyle := ← part.value? readFlag false 6 "path_style"
    listVersion := ← part.value? readByte default.listVersion 7 "list_version" }

/-- The settings of transfers. -/
def readTransfer (part : Section) : Option TransferSettings := do
  let default := TransferSettings.default
  return {
    maxRetries := ← part.value? readWord default.maxRetries 0 "max_retries"
    timeout := ← part.value? readLong default.timeout 1 "timeout"
    listPageSize := ← part.value? readLong default.listPageSize 2 "list_page_size"
    deletePageSize := ← part.value? readLong default.deletePageSize 3 "delete_page_size"
    uploadThreads := ← part.value? readLong default.uploadThreads 4 "upload_threads"
    uploadLargest := ← part.value? readLong default.uploadLargest 5 "upload_largest"
    multipartThreshold :=
      ← part.value? readLong default.multipartThreshold 6 "multipart_threshold_mb"
    multipartChunk := ← part.value? readLong default.multipartChunk 7 "multipart_chunk_size_mb" }

/-- The settings of logging. -/
def readLogging (part : Section) : Option LogSettings := do
  let default := LogSettings.default
  return {
    level := ← part.value? readText default.level 0 "level"
    format := ← part.value? readText default.format 1 "format" }

/-- The settings of output. -/
def readOutput (part : Section) : Option OutputSettings := do
  return {
    separator := ← part.value? readText OutputSettings.default.separator 0 "separator" }

/-- The settings of a section, or what holds when the section is absent. -/
def readSection {α : Type} (entries : List (String × Toml.Value)) (name : String) (default : α)
    (read : Section → Option α) : Option α :=
  match entries.lookup name with
  | some value => (Section.ofValue? value).bind read
  | none => some default

/-- The settings of a document's table. -/
def ofTable? (table : Toml.Table) : Option Settings := do
  return {
    store := ← readSection table.2 "store" .default readStore
    transfer := ← readSection table.2 "advanced" .default readTransfer
    logging := ← readSection table.2 "logging" .default readLogging
    output := ← readSection table.2 "output" .default readOutput }

/-- The settings of a document. -/
def read? (text : String) : Option Settings := (Toml.readDocument text).bind ofTable?

end BucketCare.Settings

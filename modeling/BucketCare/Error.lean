/-!
# Failures

The failures of the library, each with its message, its kind and the exit code of a command that
ends with it.

## Main definitions

* `ErrorKind` — the closed set of kinds, with one exit code each
* `IoError` — a failure of the file system
* `Error` — a failure, and its `message`, `kind` and `isRetryable`
* `Error.ofService` — the failure that a service answer stands for, by its code and status
-/

namespace BucketCare

/-- The kinds of failure that all commands share. -/
inductive ErrorKind where
  /-- Bad arguments or input that cannot be read. -/
  | usage
  /-- Credentials refused or access denied. -/
  | noAccess
  /-- A bucket, object, upload or file is missing. -/
  | notFound
  /-- Any other failure. -/
  | exceptionThrown
  /-- The store does not implement an operation. -/
  | unimplemented
  /-- The service throttles or is down. -/
  | serviceUnavailable
  /-- The configured interface version is not supported. -/
  | unsupportedVersion
  deriving DecidableEq, Repr

namespace ErrorKind

/-- The exit code of a command that ends with a failure of this kind. -/
def exitCode : ErrorKind → Nat
  | noAccess => 41
  | usage => 42
  | notFound => 44
  | exceptionThrown => 50
  | unimplemented => 51
  | serviceUnavailable => 53
  | unsupportedVersion => 57

/-- The kind in words. -/
def describe : ErrorKind → String
  | usage => "usage"
  | noAccess => "no access"
  | notFound => "not found"
  | exceptionThrown => "exception thrown"
  | unimplemented => "unimplemented"
  | serviceUnavailable => "service unavailable"
  | unsupportedVersion => "unsupported version"

end ErrorKind

/-- What a failure of the file system is about. -/
inductive IoKind where
  | notFound | permissionDenied | alreadyExists | notADirectory | isADirectory | invalidInput
  | invalidData | timedOut | unexpectedEof | other
  deriving DecidableEq, Repr

/-- A failure of the file system: what it is about and its text. -/
structure IoError where
  kind : IoKind
  text : String
  deriving DecidableEq, Repr

namespace IoError

/-- A path leads to nothing. -/
def noEntry : IoError := ⟨.notFound, "No such file or directory (os error 2)"⟩

/-- Access to a file is refused. -/
def noPermission : IoError := ⟨.permissionDenied, "Permission denied (os error 13)"⟩

/-- A path goes on below something that is no directory. -/
def notDirectory : IoError := ⟨.notADirectory, "Not a directory (os error 20)"⟩

/-- A directory stands where a file is needed. -/
def isDirectory : IoError := ⟨.isADirectory, "Is a directory (os error 21)"⟩

/-- Something stands where a directory is to be made. -/
def exists_ : IoError := ⟨.alreadyExists, "File exists (os error 17)"⟩

/-- A component of a path has more than 255 bytes. -/
def nameTooLong : IoError := ⟨.other, "File name too long (os error 36)"⟩

/-- Too many symbolic links were followed. -/
def linkLoop : IoError := ⟨.other, "Too many levels of symbolic links (os error 40)"⟩

/-- A path holds a zero byte. -/
def zeroByte : IoError := ⟨.invalidInput, "file name contained an unexpected NUL byte"⟩

/-- A file's bytes are no UTF-8 text. -/
def notText : IoError := ⟨.invalidData, "stream did not contain valid UTF-8"⟩

/-- A file ended before the bytes that were asked for. -/
def endOfFile : IoError := ⟨.unexpectedEof, "early eof"⟩

end IoError

/-- A failure of the library. -/
inductive Error where
  /-- The settings cannot be located or stored. -/
  | config (text : String)
  /-- A settings file that was asked for does not exist. -/
  | configNotFound (path : String)
  /-- The settings are malformed. -/
  | invalidConfig (text : String)
  /-- Bad arguments. -/
  | usage (text : String)
  /-- A text is no store path. -/
  | invalidPath (text : String)
  /-- A store operation failed in a way that has no kind of its own. -/
  | storeOperation (text : String)
  /-- Something is missing. -/
  | notFound (text : String)
  /-- Access was refused. -/
  | permissionDenied (text : String)
  /-- The service throttles or is down. -/
  | serviceUnavailable (text : String)
  /-- The store does not implement the operation. -/
  | unimplemented (text : String)
  /-- An interface version is not supported. -/
  | unsupportedVersion (text : String)
  /-- A listing was advanced past its last page. -/
  | noMoreElements
  /-- A bulk deletion reported failures. -/
  | bulkDelete (attempted failed : Nat) (first : String) (allAccessDenied : Bool)
  /-- The upload of one file failed. -/
  | upload (key text : String)
  /-- A failure of the file system. -/
  | io (cause : IoError)
  /-- Settings could not be written as TOML. -/
  | serialization (text : String)
  /-- TOML could not be read as settings. -/
  | deserialization (text : String)
  /-- JSON could not be written. -/
  | json (text : String)
  /-- A CSV record was refused. -/
  | csv (text : String)
  /-- An operation took too long. -/
  | timeout
  /-- The user stopped the operation. -/
  | cancelled
  /-- Anything else. -/
  | other (text : String)
  deriving DecidableEq, Repr

namespace Error

/-- The wording of a failure. -/
def message : Error → String
  | config text => "Configuration error: " ++ text
  | configNotFound path => "Configuration file not found: " ++ path
  | invalidConfig text => "Invalid configuration format: " ++ text
  | usage text => text
  | invalidPath text => "Invalid store path: " ++ text
  | storeOperation text => "Store operation failed: " ++ text
  | notFound text => "Not found: " ++ text
  | permissionDenied text => "Permission denied: " ++ text
  | serviceUnavailable text => "Service unavailable: " ++ text
  | unimplemented text => "Unimplemented: " ++ text
  | unsupportedVersion text => "Unsupported version: " ++ text
  | noMoreElements => "No more elements in listing"
  | bulkDelete attempted failed first _ =>
    s!"Bulk delete failed for {failed} of {attempted} entries; first failure: {first}"
  | upload key text => s!"Upload of {key} failed: {text}"
  | io cause => "IO error: " ++ cause.text
  | serialization text => "Serialization error: " ++ text
  | deserialization text => "Deserialization error: " ++ text
  | json text => "JSON error: " ++ text
  | csv text => "CSV error: " ++ text
  | timeout => "Operation timed out"
  | cancelled => "Operation cancelled"
  | other text => text

/-- The texts of the failures underneath this one, outermost first. -/
def causes : Error → List String
  | io cause => [cause.text]
  | serialization text | deserialization text | json text | csv text => [text]
  | _ => []

/-- The kind of a failure. -/
def kind : Error → ErrorKind
  | usage _ | invalidPath _ | invalidConfig _ | config _ => .usage
  | configNotFound _ | notFound _ => .notFound
  | permissionDenied _ => .noAccess
  | serviceUnavailable _ | timeout => .serviceUnavailable
  | unimplemented _ => .unimplemented
  | unsupportedVersion _ => .unsupportedVersion
  | bulkDelete _ _ _ true => .noAccess
  | io cause =>
    match cause.kind with
    | .notFound => .notFound
    | .permissionDenied => .noAccess
    | _ => .exceptionThrown
  | _ => .exceptionThrown

/-- A listing request that failed in this way may be sent once more. -/
def isRetryable : Error → Bool
  | serviceUnavailable _ | timeout | storeOperation _ => true
  | _ => false

/-- What an error code of a service stands for, if it is one of the known codes. -/
def ofCode? (code text : String) : Option Error :=
  match code with
  | "NoSuchBucket" | "NoSuchKey" | "NoSuchUpload" | "NoSuchVersion" | "NotFound" =>
    some (.notFound text)
  | "AccessDenied" | "InvalidAccessKeyId" | "SignatureDoesNotMatch" | "ExpiredToken"
  | "InvalidToken" | "AllAccessDisabled" => some (.permissionDenied text)
  | "ServiceUnavailable" | "SlowDown" | "Throttling" | "RequestTimeout" =>
    some (.serviceUnavailable text)
  | "NotImplemented" => some (.unimplemented text)
  | _ => none

/-- What the status of an answer stands for. -/
def ofStatus (status : Option Nat) (text : String) : Error :=
  match status with
  | some 404 => .notFound text
  | some 401 | some 403 => .permissionDenied text
  | some 501 => .unimplemented text
  | some 503 => .serviceUnavailable text
  | _ => .storeOperation text

/-- The failure that a service answer stands for: a known code decides, then the status. -/
def ofService (code : Option String) (status : Option Nat) (text : String) : Error :=
  (code.bind (ofCode? · text)).getD (ofStatus status text)

/-- How a worker task can end without a result. -/
inductive TaskEnd where
  /-- The task was stopped. -/
  | cancelled
  /-- The task failed in a way it does not report; the text says how. -/
  | panicked (text : String)
  deriving DecidableEq, Repr

/-- The failure of a worker task that ended without a result. -/
def ofTask : TaskEnd → Error
  | .cancelled => .cancelled
  | .panicked text => .other ("worker task failed: " ++ text)

end Error

end BucketCare

import BucketCare.Decimal
import BucketCare.Instant
import BucketCare.Error

/-!
# The report of an upload run

What a run of uploads has come to, and whether that is a success.

## Main definitions

* `UploadReport` — the totals of a run
* `UploadReport.toResult` — a run as a success or a failure
* `UploadReport.bandwidth` — bytes per second in double precision
-/

namespace BucketCare

/-- The totals of a run of uploads. -/
structure UploadReport where
  planned : Nat
  submitted : Nat
  succeeded : Nat
  failed : Nat
  /-- The bytes of the uploads that succeeded. They are counted in 64 bits, and the count begins
  anew past the greatest number. -/
  bytes : UInt64
  /-- The key and the text of the first failure that was seen. -/
  firstFailure : Option (String × String)
  elapsed : Elapsed
  /-- The run was stopped by an interrupt. -/
  interrupted : Bool
  /-- The keys that were still uploading when the time to finish ran out, in ascending order. -/
  abandoned : List String
  deriving DecidableEq, Repr, Inhabited

namespace UploadReport

/-- The report of a run that has not begun. -/
def start (planned : Nat) : UploadReport :=
  ⟨planned, 0, 0, 0, 0, none, ⟨0⟩, false, []⟩

/-- A run as a success or a failure: an interrupted run is a failure, and so is a run with a failed
upload unless failures are ignored. -/
def toResult (report : UploadReport) (ignoreFailures : Bool) : Except Error UploadReport :=
  if report.interrupted then .error .cancelled
  else match report.firstFailure with
    | some (key, text) => if ignoreFailures then .ok report else .error (.upload key text)
    | none => .ok report

/-- The elapsed time in seconds, in double precision: the whole seconds plus the quotient of the
nanoseconds behind them. -/
def seconds (report : UploadReport) : Decimal.Binary :=
  let n := report.elapsed.nanoseconds
  (Decimal.Binary.ofNat (n / 1000000000)).add (Decimal.Binary.nearest (n % 1000000000) 1000000000)

/-- Bytes per second, in double precision; none when no time has passed. -/
def bandwidth (report : UploadReport) : Decimal.Binary :=
  if report.elapsed.nanoseconds = 0 then ⟨0, 0⟩
  else (Decimal.Binary.ofNat report.bytes.toNat).div report.seconds

/-- The whole bytes per second. -/
def bytesPerSecond (report : UploadReport) : Nat :=
  report.bandwidth.num / report.bandwidth.den

end UploadReport

end BucketCare

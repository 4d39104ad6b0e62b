import BucketCare.Command.World
import BucketCare.Decimal
import BucketCare.Random.ChaCha
import BucketCare.Upload.Plan
import BucketCare.Upload.Transfer

/-!
# Uploading a directory

The command that uploads the files below a directory, several at a time, in the order of a plan,
and tells what has come of it.

## Main definitions

* `planUploads` — the order of the uploads
* `reportRows` — the totals of a run as they are printed
* `upload` — the command
-/

namespace BucketCare.Command

variable {σ : Type}

/-- The order in which files are uploaded; a seed fixes it. -/
def planUploads (seed : UInt64) (largest : Nat) (files : List UploadFile) :
    Except Error (List UploadFile) :=
  match Plan.order? seeded largest files (ChaCha.ofSeed seed) with
  | some (plan, _) => .ok plan
  | none => .error (.other "no order of uploads was found")

/-- The bytes of some files. -/
def totalSize (files : List UploadFile) : Nat := files.foldl (fun total file => total + file.size) 0

/-- The totals of a run as they are printed. -/
def reportRows (report : UploadReport) : List (String × String) :=
  [("planned", toString report.planned), ("submitted", toString report.submitted),
    ("succeeded", toString report.succeeded), ("failed", toString report.failed),
    ("uploaded", Decimal.ByteSize.display report.bytes.toInt64.toInt),
    ("duration", report.elapsed.display),
    ("bandwidth", Decimal.ByteSize.display report.bytesPerSecond ++ "/s")]

/-- Tell which uploads an interrupt left unfinished. -/
def printAbandoned (dest : StorePath) (keys : List String) : Run σ Unit :=
  if keys.isEmpty then return ()
  else do
    Run.printLine s!"  ⚠️  {keys.length} uploads were still running:"
    for key in keys do
      Run.printLine ("    " ++ key)
    Run.printLine ("  Run `" ++ programName ++ " listmultiparts " ++ dest.display ++
      " --purge` to remove pending uploads")

/-- Tell the totals of a run; it is a failure when an upload failed and failures count. -/
def printTotals (report : UploadReport) (ignoreFailures : Bool) : Run σ Unit := do
  Run.printSummary (reportRows report)
  match report.firstFailure, ignoreFailures with
  | some (key, text), true =>
    Run.printLine s!"  ⚠️  {report.failed} uploads failed, first: {key}: {text}"
  | _, _ => pure ()
  let _ ← Run.ofExcept (report.toResult ignoreFailures)
  Run.printLine "  ✅ Upload complete"

/-- Tell what a run has come to; it is a failure when it was interrupted, or when an upload failed
and failures count. -/
def printReport (dest : StorePath) (report : UploadReport) (ignoreFailures : Bool) :
    Run σ Unit := do
  if report.interrupted then
    printAbandoned dest report.abandoned
    Run.fail .cancelled
  else printTotals report ignoreFailures

/-- Upload a plan of files. The schedule says how the uploads run beside each other. -/
def uploadPlan (schedule : UploadSchedule) (machine : Machine σ) (settings : Settings)
    (dest : StorePath) (options : UploadOptions) (plan : List UploadFile) : Run σ Unit := do
  let threads := options.threads.getD settings.transfer.uploadThreads.toNat
  let client ← Run.client machine settings
  let size := Decimal.ByteSize.display (UInt64.ofNat (totalSize plan)).toInt64.toInt
  let places := "from " ++ options.source ++ " to " ++ dest.display
  Run.printLine s!"Uploading {plan.length} files ({size}) {places} with {threads} threads..."
  let pool : PoolOptions := ⟨threads, options.ignoreFailures, PoolOptions.defaultGrace⟩
  let tree := (← get).files
  let run ← Run.onLink
    (client.uploadAll tree dest.bucket options.overwrite schedule pool machine.interrupt plan)
  printReport dest (← Run.ofExcept run.result) options.ignoreFailures

/-- Upload the files below a directory. The schedule says how the uploads run beside each other. -/
def upload (schedule : UploadSchedule) (machine : Machine σ) (settingsPath : Option String)
    (options : UploadOptions) : Run σ Unit := do
  let dest ← Run.ofExcept (StorePath.parse options.dest)
  let settings ← Run.settings machine settingsPath
  let largest := options.largest.getD settings.transfer.uploadLargest.toNat
  let files ← Run.ofExcept (scan (← get).files options.source dest)
  if files.isEmpty then Run.printLine ("  No files under " ++ options.source)
  else
    let seed := (options.seed.map UInt64.ofNat).getD machine.seed
    let plan ← Run.ofExcept (planUploads seed largest files)
    uploadPlan schedule machine settings dest options plan

end BucketCare.Command

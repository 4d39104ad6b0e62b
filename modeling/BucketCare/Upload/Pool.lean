import BucketCare.Upload.Plan
import BucketCare.Upload.Report

/-!
# Running uploads

Uploads run in the order of a plan, at most a fixed number of them at a time. Time passes only
while the run waits for an upload: the next one to end is the one with the least end. Once an
upload has failed no further one is started, unless failures are ignored; those that run may end.

An interrupt takes effect at the first wait at or after its time. From then on nothing is started,
and the uploads in flight have some time to end; those that have not are abandoned.

An upload that panics ends the run with a failure, or after an interrupt is abandoned.

## Main definitions

* `Transfer` — how long an upload takes and how it ends
* `UploadEvent` — what can be seen of a run from outside
* `Moment` — what happens in a run, with the places of the uploads in the plan
* `Ledger` — the time, the running keys, the report and the moments of a run so far
* `PoolOptions` — the settings of a run
* `Crew` — what starts uploads and makes them go on
* `Crew.run` — a run, as what happened and its report or failure
* `runUploads` — a run of uploads that are known to their ends when they are started
-/

namespace BucketCare

/-- How an upload ends. -/
inductive TransferEnd where
  /-- All bytes are written. -/
  | written (bytes : UInt64)
  /-- The upload failed. -/
  | failed (error : Error)
  /-- The upload ended without a result. -/
  | panicked (text : String)
  deriving DecidableEq, Repr

/-- How long an upload takes, in milliseconds, and how it ends. -/
structure Transfer where
  milliseconds : Nat
  outcome : TransferEnd
  deriving DecidableEq, Repr

/-- What can be seen of a run from outside, with its time in milliseconds. -/
inductive UploadEvent where
  /-- An upload was started. -/
  | submitted (time : Nat) (key : String)
  /-- An upload ended with its bytes or a failure. -/
  | completed (time : Nat) (key : String) (result : Except Error UInt64)

/-- What happens in a run, with its time in milliseconds. An upload is named by its place in the
plan, since two files of a plan may have one key. -/
inductive Moment where
  /-- An upload is started. -/
  | submitted (time place : Nat) (key : String)
  /-- An upload ends with its bytes or a failure. -/
  | completed (time place : Nat) (key : String) (result : Except Error UInt64)
  /-- An upload ends without a result. -/
  | panicked (time place : Nat) (key : String)
  /-- The interrupt takes effect. -/
  | interrupted (time : Nat)

/-- What is seen of a moment from outside. -/
def Moment.event? : Moment → Option UploadEvent
  | .submitted time _ key => some (.submitted time key)
  | .completed time _ key result => some (.completed time key result)
  | .panicked .. | .interrupted .. => none

/-- An upload that runs. -/
structure Flight (τ : Type) where
  /-- Its place in the plan. -/
  place : Nat
  key : String
  /-- When it ends, in milliseconds since the start of the run. -/
  finish : Nat
  /-- What is known of it besides. -/
  work : τ
  deriving DecidableEq, Repr

namespace Flight

variable {τ : Type}

/-- Add an upload to those that run, which are ordered by their ends; of two with the same end the
one that was started first comes first. -/
def insert (flight : Flight τ) : List (Flight τ) → List (Flight τ)
  | [] => [flight]
  | other :: rest =>
    if flight.finish < other.finish then flight :: other :: rest
    else other :: insert flight rest

end Flight

/-- What a run has come to. -/
structure Ledger where
  /-- The time in milliseconds since the start. -/
  now : Nat
  /-- The keys that are uploading. -/
  running : List String
  report : UploadReport
  /-- What happened so far, in order. -/
  moments : List Moment

namespace Ledger

/-- The start of a run. -/
def start (planned : Nat) : Ledger := ⟨0, [], .start planned, []⟩

/-- The next upload of the plan is started. -/
def submit (ledger : Ledger) (key : String) : Ledger :=
  { ledger with
    running := if key ∈ ledger.running then ledger.running else key :: ledger.running
    report := { ledger.report with submitted := ledger.report.submitted + 1 }
    moments := ledger.moments ++ [.submitted ledger.now ledger.report.submitted key] }

/-- The report with one more success. -/
def countSuccess (report : UploadReport) (bytes : UInt64) : UploadReport :=
  { report with succeeded := report.succeeded + 1, bytes := report.bytes + bytes }

/-- The report with one more failure. -/
def countFailure (report : UploadReport) (key : String) (error : Error) : UploadReport :=
  { report with
    failed := report.failed + 1
    firstFailure := report.firstFailure <|> some (key, error.message) }

variable {τ : Type}

/-- An upload ends with a result: the time moves to its end, and it is counted. -/
def complete (ledger : Ledger) (flight : Flight τ) (result : Except Error UInt64) : Ledger :=
  { now := flight.finish
    running := ledger.running.erase flight.key
    report := match result with
      | .ok bytes => countSuccess ledger.report bytes
      | .error e => countFailure ledger.report flight.key e
    moments := ledger.moments ++ [.completed flight.finish flight.place flight.key result] }

/-- An upload ends without a result: its key stays among those that run. -/
def lose (ledger : Ledger) (flight : Flight τ) : Ledger :=
  { ledger with
    now := flight.finish
    moments := ledger.moments ++ [.panicked flight.finish flight.place flight.key] }

/-- The ledger when an upload has ended in some way, or how the task failed that ended without a
result. -/
def land (ledger : Ledger) (flight : Flight τ) : TransferEnd → Except Error.TaskEnd Ledger
  | .written bytes => .ok (ledger.complete flight (.ok bytes))
  | .failed e => .ok (ledger.complete flight (.error e))
  | .panicked text => .error (.panicked text)

/-- No further upload is started. -/
def halted (ledger : Ledger) (ignoreFailures : Bool) : Bool :=
  ledger.report.firstFailure.isSome && !ignoreFailures

/-- The time moves on, unless it is past already. -/
def advance (ledger : Ledger) (time : Nat) : Ledger := { ledger with now := max ledger.now time }

/-- The interrupt takes effect, at its time or as soon as it is seen. -/
def interrupt (ledger : Ledger) (time : Nat) : Ledger :=
  { ledger.advance time with
    moments := ledger.moments ++ [.interrupted (max ledger.now time)] }

/-- The report of the run. -/
def close (ledger : Ledger) : UploadReport :=
  { ledger.report with elapsed := ⟨ledger.now * 1000000⟩ }

/-- The report of an interrupted run: the keys that still run are abandoned. -/
def abandon (ledger : Ledger) : UploadReport :=
  { ledger.close with
    interrupted := true
    abandoned := ledger.running.mergeSort fun a b => decide (a ≤ b) }

end Ledger

/-- The settings of a run. -/
structure PoolOptions where
  /-- The most uploads at a time. -/
  threads : Nat
  /-- Keep starting uploads after a failure. -/
  ignoreFailures : Bool
  /-- How long uploads may run on after an interrupt, in milliseconds. -/
  grace : Nat
  deriving DecidableEq, Repr

namespace PoolOptions

/-- The number of uploads at a time unless another is given. -/
def defaultThreads : Nat := 8

/-- The time after an interrupt unless another is given. -/
def defaultGrace : Nat := 10000

end PoolOptions

/-- How a wait ends early. -/
inductive Halt (τ : Type) where
  /-- The interrupt took effect, with some uploads in flight. -/
  | interrupted (flights : List (Flight τ)) (ledger : Ledger)
  /-- A task ended without a result. -/
  | taskFailed (error : Error) (ledger : Ledger)

/-- A run: what happened, and its report or its failure. -/
structure UploadRun where
  moments : List Moment
  result : Except Error UploadReport

/-- What is seen of a run from outside, in order. -/
def UploadRun.events (run : UploadRun) : List UploadEvent := run.moments.filterMap Moment.event?

/-- The interrupt takes effect at a wait for an upload that ends at some time. -/
def Pool.interrupts (interrupt : Option Nat) (finish : Nat) : Bool :=
  match interrupt with
  | some time => time ≤ finish
  | none => false

/-- What makes uploads go on. -/
structure Crew (σ τ : Type) where
  /-- Start an upload. The answer is the time it takes, in milliseconds, and what is known of it
  besides. -/
  start : UploadFile → StateM σ (Nat × τ)
  /-- Go on until an upload has ended, which tells how it ends. -/
  settle : Flight τ → StateM σ TransferEnd
  /-- Go on until the time to finish has run out. -/
  linger : StateM σ Unit

namespace Crew

variable {σ τ : Type}

/-- Wait until fewer uploads than a limit are in flight. -/
def awaitBelow (crew : Crew σ τ) (interrupt : Option Nat) (limit : Nat) :
    List (Flight τ) → Ledger → StateM σ (Except (Halt τ) (List (Flight τ) × Ledger))
  | [], ledger => return .ok ([], ledger)
  | flight :: rest, ledger =>
    if rest.length + 1 < limit then return .ok (flight :: rest, ledger)
    else if Pool.interrupts interrupt flight.finish then
      return .error (.interrupted (flight :: rest) ledger)
    else do
      match ledger.land flight (← crew.settle flight) with
      | .ok ledger => awaitBelow crew interrupt limit rest ledger
      | .error failure => return .error (.taskFailed (.ofTask failure) (ledger.lose flight))

/-- Let the uploads in flight end before a deadline. One that ends without a result stays among
the running keys. -/
def drainUntil (crew : Crew σ τ) (deadline : Nat) : List (Flight τ) → Ledger → StateM σ Ledger
  | [], ledger => return ledger
  | flight :: rest, ledger =>
    if deadline ≤ flight.finish then do
      crew.linger
      return ledger.advance deadline
    else do
      match ledger.land flight (← crew.settle flight) with
      | .ok ledger => drainUntil crew deadline rest ledger
      | .error _ => drainUntil crew deadline rest (ledger.lose flight)

/-- The run after a wait that ended early. -/
def stop (crew : Crew σ τ) (options : PoolOptions) (interrupt : Option Nat) :
    Halt τ → StateM σ UploadRun
  | .interrupted flights ledger => do
    let ledger := ledger.interrupt (interrupt.getD 0)
    let ledger ← crew.drainUntil (ledger.now + options.grace) flights ledger
    return ⟨ledger.moments, .ok ledger.abandon⟩
  | .taskFailed error ledger => return ⟨ledger.moments, .error error⟩

/-- Wait for all uploads in flight, and close the run. -/
def finish (crew : Crew σ τ) (options : PoolOptions) (interrupt : Option Nat)
    (flights : List (Flight τ)) (ledger : Ledger) : StateM σ UploadRun := do
  match ← crew.awaitBelow interrupt 1 flights ledger with
  | .ok (_, ledger) => return ⟨ledger.moments, .ok ledger.close⟩
  | .error halt => crew.stop options interrupt halt

/-- Start the uploads of a plan one after the other, each when there is room for it, and wait for
the last. -/
def submitAll (crew : Crew σ τ) (options : PoolOptions) (interrupt : Option Nat) :
    List UploadFile → List (Flight τ) → Ledger → StateM σ UploadRun
  | [], flights, ledger => crew.finish options interrupt flights ledger
  | file :: plan, flights, ledger => do
    match ← crew.awaitBelow interrupt options.threads flights ledger with
    | .error halt => crew.stop options interrupt halt
    | .ok (flights, ledger) =>
      if ledger.halted options.ignoreFailures then crew.finish options interrupt flights ledger
      else do
        let (milliseconds, work) ← crew.start file
        let flight : Flight τ :=
          ⟨ledger.report.submitted, file.key, ledger.now + milliseconds, work⟩
        submitAll crew options interrupt plan (flight.insert flights) (ledger.submit file.key)

/-- Run the uploads of a plan. -/
def run (crew : Crew σ τ) (options : PoolOptions) (interrupt : Option Nat)
    (plan : List UploadFile) : StateM σ UploadRun :=
  if options.threads = 0 then
    return ⟨[], .error (.usage "thread count must be at least 1")⟩
  else crew.submitAll options interrupt plan [] (.start plan.length)

/-- The crew of uploads that are known to their ends when they are started. -/
def known (start : UploadFile → StateM σ Transfer) : Crew σ TransferEnd where
  start file := do
    let transfer ← start file
    return (transfer.milliseconds, transfer.outcome)
  settle flight := return flight.work
  linger := return ()

end Crew

/-- Run the uploads of a plan. `start` starts one upload and tells how it will go; `interrupt` is
the time of an interrupt, if there is one. -/
def runUploads {σ : Type} (start : UploadFile → StateM σ Transfer) (options : PoolOptions)
    (interrupt : Option Nat) (plan : List UploadFile) : StateM σ UploadRun :=
  (Crew.known start).run options interrupt plan

end BucketCare

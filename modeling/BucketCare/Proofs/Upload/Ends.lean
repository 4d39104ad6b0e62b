import BucketCare.Upload.Pool

/-!
# Uploads that are known to their ends

When an upload is known to its end as soon as it is started, nothing happens while a run waits for
it. So the waits of such a run can be told without the state that its uploads leave: which uploads
end, and what the ledger says then, follows from the flights alone.

## Main definitions

* `Pool.awaitBelow`, `Pool.drainUntil`, `Pool.stop`, `Pool.finish` — the waits of such a run
* `Pool.submitAll` — the run, from some point of the plan on

## Main results

* `runUploads_eq` — a run of uploads that are known to their ends
-/

namespace BucketCare

namespace Pool

/-- Wait until fewer uploads than a limit are in flight. -/
def awaitBelow (interrupt : Option Nat) (limit : Nat) : List (Flight TransferEnd) → Ledger →
    Except (Halt TransferEnd) (List (Flight TransferEnd) × Ledger)
  | [], ledger => .ok ([], ledger)
  | flight :: rest, ledger =>
    if rest.length + 1 < limit then .ok (flight :: rest, ledger)
    else if interrupts interrupt flight.finish then .error (.interrupted (flight :: rest) ledger)
    else match ledger.land flight flight.work with
      | .ok ledger => awaitBelow interrupt limit rest ledger
      | .error failure => .error (.taskFailed (.ofTask failure) (ledger.lose flight))

/-- Let the uploads in flight end before a deadline. -/
def drainUntil (deadline : Nat) : List (Flight TransferEnd) → Ledger → Ledger
  | [], ledger => ledger
  | flight :: rest, ledger =>
    if deadline ≤ flight.finish then ledger.advance deadline
    else match ledger.land flight flight.work with
      | .ok ledger => drainUntil deadline rest ledger
      | .error _ => drainUntil deadline rest (ledger.lose flight)

/-- The run after a wait that ended early. -/
def stop (options : PoolOptions) (interrupt : Option Nat) : Halt TransferEnd → UploadRun
  | .interrupted flights ledger =>
    let ledger := ledger.interrupt (interrupt.getD 0)
    let ledger := drainUntil (ledger.now + options.grace) flights ledger
    ⟨ledger.moments, .ok ledger.abandon⟩
  | .taskFailed error ledger => ⟨ledger.moments, .error error⟩

/-- Wait for all uploads in flight, and close the run. -/
def finish (options : PoolOptions) (interrupt : Option Nat) (flights : List (Flight TransferEnd))
    (ledger : Ledger) : UploadRun :=
  match awaitBelow interrupt 1 flights ledger with
  | .ok (_, ledger) => ⟨ledger.moments, .ok ledger.close⟩
  | .error halt => stop options interrupt halt

variable {σ : Type}

/-- Start the uploads of a plan one after the other, each when there is room for it, and wait for
the last. -/
def submitAll (start : UploadFile → StateM σ Transfer) (options : PoolOptions)
    (interrupt : Option Nat) :
    List UploadFile → List (Flight TransferEnd) → Ledger → StateM σ UploadRun
  | [], flights, ledger => return finish options interrupt flights ledger
  | file :: plan, flights, ledger =>
    match awaitBelow interrupt options.threads flights ledger with
    | .error halt => return stop options interrupt halt
    | .ok (flights, ledger) =>
      if ledger.halted options.ignoreFailures then return finish options interrupt flights ledger
      else do
        let transfer ← start file
        let flight : Flight TransferEnd := ⟨ledger.report.submitted, file.key,
          ledger.now + transfer.milliseconds, transfer.outcome⟩
        submitAll start options interrupt plan (flight.insert flights) (ledger.submit file.key)

end Pool

namespace Crew

variable {σ : Type} (start : UploadFile → StateM σ Transfer) (options : PoolOptions)
variable (interrupt : Option Nat)

theorem known_awaitBelow (limit : Nat) (flights : List (Flight TransferEnd)) (ledger : Ledger) :
    (known start).awaitBelow interrupt limit flights ledger =
      pure (Pool.awaitBelow interrupt limit flights ledger) := by
  induction flights generalizing ledger with
  | nil => rfl
  | cons flight rest ih =>
    rw [awaitBelow, Pool.awaitBelow]
    split
    · rfl
    split
    · rfl
    · -- How the flight ends is its own work, whatever the state.
      rw [show (known start).settle flight = pure flight.work from rfl, pure_bind]
      cases ledger.land flight flight.work with
      | ok ledger => exact ih ledger
      | error failure => rfl

theorem known_drainUntil (deadline : Nat) (flights : List (Flight TransferEnd))
    (ledger : Ledger) : (known start).drainUntil deadline flights ledger =
      pure (Pool.drainUntil deadline flights ledger) := by
  induction flights generalizing ledger with
  | nil => rfl
  | cons flight rest ih =>
    rw [drainUntil, Pool.drainUntil]
    split
    · rfl
    · rw [show (known start).settle flight = pure flight.work from rfl, pure_bind]
      cases ledger.land flight flight.work with
      | ok ledger => exact ih ledger
      | error failure => exact ih (ledger.lose flight)

theorem known_stop (halt : Halt TransferEnd) :
    (known start).stop options interrupt halt = pure (Pool.stop options interrupt halt) := by
  cases halt with
  | interrupted flights ledger =>
    rw [stop, known_drainUntil, pure_bind]
    rfl
  | taskFailed error ledger => rfl

theorem known_finish (flights : List (Flight TransferEnd)) (ledger : Ledger) :
    (known start).finish options interrupt flights ledger =
      pure (Pool.finish options interrupt flights ledger) := by
  rw [finish, known_awaitBelow, pure_bind, Pool.finish]
  split
  next flights ledger hwait => rw [hwait]
  next halt hwait => rw [hwait, known_stop]

theorem known_submitAll (plan : List UploadFile) (flights : List (Flight TransferEnd))
    (ledger : Ledger) : (known start).submitAll options interrupt plan flights ledger =
      Pool.submitAll start options interrupt plan flights ledger := by
  induction plan generalizing flights ledger with
  | nil => exact known_finish start options interrupt flights ledger
  | cons file plan ih =>
    rw [submitAll, known_awaitBelow, pure_bind, Pool.submitAll]
    split
    next halt hwait => rw [hwait, known_stop]
    next flights ledger hwait =>
      rw [hwait]
      dsimp only
      split
      · exact known_finish start options interrupt flights ledger
      · rw [show (known start).start file = (do
          let transfer ← start file
          return (transfer.milliseconds, transfer.outcome)) from rfl, bind_assoc]
        congr 1
        funext transfer
        rw [pure_bind]
        exact ih _ _

end Crew

/-- A run of uploads that are known to their ends. -/
theorem runUploads_eq {σ : Type} (start : UploadFile → StateM σ Transfer) (options : PoolOptions)
    (interrupt : Option Nat) (plan : List UploadFile) :
    runUploads start options interrupt plan =
      if options.threads = 0 then
        pure ⟨[], .error (.usage "thread count must be at least 1")⟩
      else Pool.submitAll start options interrupt plan [] (.start plan.length) := by
  rw [runUploads, Crew.run]
  split
  · rfl
  · exact Crew.known_submitAll start options interrupt plan [] _

end BucketCare

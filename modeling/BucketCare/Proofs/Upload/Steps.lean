import BucketCare.Proofs.Upload.Ends
import Mathlib.Logic.Relation

/-!
# The steps of an upload run

A run of uploads is a sequence of steps, and each step adds one moment: an upload is submitted, the
upload that ends first ends with or without a result, or the interrupt takes effect. The steps say
once what the pool can do, so that what every run keeps is proved by one look at each step.

The uploads of a run are given as a roster: the files of the plan with the time each upload takes
and the way it ends. A pool asks for these one after the other, and only for the uploads it starts.

## Main definitions

* `roster` — the files of a plan with their transfers
* `Pool.Phase`, `Pool.Standing` — where a run stands
* `Pool.Step` — one step of a run
* `Pool.Closes` — the run that is reported where no step follows

## Main results

* `runUploads_reaches` — every run is made of steps from the start to a standing that closes it
* `Pool.exists_step` — each moment of a run was added by a step
* `Pool.Reaches.of_failed` — the step that makes a run fail
* `runUploads_eq_error` — a run with threads fails only because an upload panicked
-/

namespace BucketCare

/-- The result that an upload ends with, unless it panics. -/
def TransferEnd.result? : TransferEnd → Option (Except Error UInt64)
  | .written bytes => some (.ok bytes)
  | .failed error => some (.error error)
  | .panicked _ => none

/-- The files of a plan with their transfers, when the uploads are started in the plan's order. -/
def roster {σ : Type} (start : UploadFile → StateM σ Transfer) :
    List UploadFile → σ → List (UploadFile × Transfer)
  | [], _ => []
  | file :: plan, state =>
    let answer := (start file).run state
    (file, answer.1) :: roster start plan answer.2

theorem map_fst_roster {σ : Type} (start : UploadFile → StateM σ Transfer)
    (plan : List UploadFile) (state : σ) : (roster start plan state).map Prod.fst = plan := by
  induction plan generalizing state with
  | nil => rfl
  | cons file plan ih => simp [roster, ih]

theorem length_roster {σ : Type} (start : UploadFile → StateM σ Transfer)
    (plan : List UploadFile) (state : σ) : (roster start plan state).length = plan.length := by
  rw [← List.length_map (f := Prod.fst), map_fst_roster]

/-- What is left of a roster for some files begins with the first of them. -/
theorem roster_cons_of_drop {σ : Type} (start : UploadFile → StateM σ Transfer)
    {uploads : List (UploadFile × Transfer)} {place : Nat} {file : UploadFile}
    {plan : List UploadFile} {state : σ}
    (hleft : uploads.drop place = roster start (file :: plan) state) :
    uploads[place]? = some (file, ((start file).run state).1) ∧
      uploads.drop (place + 1) = roster start plan ((start file).run state).2 := by
  rw [roster] at hleft
  have hnext := congrArg List.head? hleft
  rw [List.head?_drop, List.head?_cons] at hnext
  have htail := congrArg List.tail hleft
  rw [List.tail_drop, List.tail_cons] at htail
  exact ⟨hnext, htail⟩

namespace Ledger

variable (ledger : Ledger) (flight : Flight TransferEnd)

variable {ledger flight} in
theorem land_eq_ok {outcome : TransferEnd} {next : Ledger}
    (h : ledger.land flight outcome = .ok next) :
    ∃ result, outcome.result? = some result ∧ next = ledger.complete flight result := by
  cases outcome with
  | written bytes => exact ⟨.ok bytes, rfl, (Except.ok.inj h).symm⟩
  | failed error => exact ⟨.error error, rfl, (Except.ok.inj h).symm⟩
  | panicked text => cases h

variable {ledger flight} in
theorem land_eq_error {outcome : TransferEnd} {failure : Error.TaskEnd}
    (h : ledger.land flight outcome = .error failure) :
    ∃ text, outcome = .panicked text ∧ failure = .panicked text := by
  cases outcome with
  | written bytes => cases h
  | failed error => cases h
  | panicked text => exact ⟨text, rfl, (Except.error.inj h).symm⟩

@[simp] theorem submit_moments (key : String) : (ledger.submit key).moments =
    ledger.moments ++ [.submitted ledger.now ledger.report.submitted key] := rfl

@[simp] theorem submit_report (key : String) : (ledger.submit key).report =
    { ledger.report with submitted := ledger.report.submitted + 1 } := rfl

@[simp] theorem complete_moments (result : Except Error UInt64) :
    (ledger.complete flight result).moments =
      ledger.moments ++ [.completed flight.finish flight.place flight.key result] := rfl

@[simp] theorem complete_running (result : Except Error UInt64) :
    (ledger.complete flight result).running = ledger.running.erase flight.key := rfl

@[simp] theorem complete_submitted (result : Except Error UInt64) :
    (ledger.complete flight result).report.submitted = ledger.report.submitted := by
  cases result <;> rfl

@[simp] theorem lose_moments : (ledger.lose flight).moments =
    ledger.moments ++ [.panicked flight.finish flight.place flight.key] := rfl

@[simp] theorem lose_running : (ledger.lose flight).running = ledger.running := rfl

@[simp] theorem lose_report : (ledger.lose flight).report = ledger.report := rfl

@[simp] theorem interrupt_moments (time : Nat) : (ledger.interrupt time).moments =
    ledger.moments ++ [.interrupted (max ledger.now time)] := rfl

@[simp] theorem interrupt_running (time : Nat) :
    (ledger.interrupt time).running = ledger.running := rfl

@[simp] theorem interrupt_report (time : Nat) :
    (ledger.interrupt time).report = ledger.report := rfl

end Ledger

namespace Pool

/-- What a run is doing. -/
inductive Phase where
  /-- Uploads are started and waited for. -/
  | running
  /-- An interrupt took effect; the uploads in flight may end before the deadline. -/
  | grace (deadline : Nat)
  /-- An upload panicked, and the run failed. -/
  | failed (error : Error)

/-- The run waits for an upload that ends at some time. -/
def Phase.Awaits (interrupt : Option Nat) (finish : Nat) : Phase → Prop
  | .running => ∀ time, interrupt = some time → finish < time
  | .grace deadline => finish < deadline
  | .failed _ => False

/-- What a run does after an upload panicked. -/
def Phase.afterPanic (text : String) : Phase → Phase
  | .running => .failed (.ofTask (.panicked text))
  | .grace deadline => .grace deadline
  | .failed error => .failed error

/-- Where a run stands: what it is doing, the uploads in flight by their ends, and the ledger. -/
structure Standing where
  phase : Phase
  flights : List (Flight TransferEnd)
  ledger : Ledger

/-- The upload of a file that is started now. -/
def launch (ledger : Ledger) (file : UploadFile) (transfer : Transfer) : Flight TransferEnd :=
  ⟨ledger.report.submitted, file.key, ledger.now + transfer.milliseconds, transfer.outcome⟩

variable (uploads : List (UploadFile × Transfer)) (options : PoolOptions) (interrupt : Option Nat)

/-- One step of a run. -/
inductive Step : Standing → Standing → Prop
  /-- The next upload is started: there is room for it, and no failure stops the run. -/
  | submit {flights : List (Flight TransferEnd)} {ledger : Ledger} {file : UploadFile}
      {transfer : Transfer}
      (hnext : uploads[ledger.report.submitted]? = some (file, transfer))
      (hroom : flights.length < options.threads)
      (hgo : ledger.halted options.ignoreFailures = false) :
      Step ⟨.running, flights, ledger⟩
        ⟨.running, (launch ledger file transfer).insert flights, ledger.submit file.key⟩
  /-- The upload that ends first ends with a result. -/
  | complete {phase : Phase} {flight : Flight TransferEnd} {rest : List (Flight TransferEnd)}
      {ledger : Ledger} {result : Except Error UInt64}
      (hwait : phase.Awaits interrupt flight.finish) (hend : flight.work.result? = some result) :
      Step ⟨phase, flight :: rest, ledger⟩ ⟨phase, rest, ledger.complete flight result⟩
  /-- The upload that ends first ends without a result. -/
  | lose {phase : Phase} {flight : Flight TransferEnd} {rest : List (Flight TransferEnd)}
      {ledger : Ledger} {text : String}
      (hwait : phase.Awaits interrupt flight.finish) (hend : flight.work = .panicked text) :
      Step ⟨phase, flight :: rest, ledger⟩ ⟨phase.afterPanic text, rest, ledger.lose flight⟩
  /-- The interrupt takes effect, since no upload ends before it. -/
  | interrupt {flight : Flight TransferEnd} {rest : List (Flight TransferEnd)} {ledger : Ledger}
      {time : Nat}
      (htime : interrupt = some time) (hwait : time ≤ flight.finish) :
      Step ⟨.running, flight :: rest, ledger⟩
        ⟨.grace ((ledger.interrupt time).now + options.grace), flight :: rest,
          ledger.interrupt time⟩

/-- The start of a run. -/
def Standing.start : Standing := ⟨.running, [], .start uploads.length⟩

/-- A run gets from one standing to another. -/
abbrev Reaches : Standing → Standing → Prop :=
  Relation.ReflTransGen (Step uploads options interrupt)

/-- The run that is reported where it stands when no step follows. -/
inductive Closes : Standing → UploadRun → Prop
  /-- Nothing is in flight, and nothing more is started. -/
  | done {ledger : Ledger} (hstop : ledger.halted options.ignoreFailures = true ∨
        uploads.length ≤ ledger.report.submitted) :
      Closes ⟨.running, [], ledger⟩ ⟨ledger.moments, .ok ledger.close⟩
  /-- All uploads ended before the deadline. -/
  | drained {deadline : Nat} {ledger : Ledger} :
      Closes ⟨.grace deadline, [], ledger⟩ ⟨ledger.moments, .ok ledger.abandon⟩
  /-- Some upload ends no sooner than the deadline. -/
  | expired {deadline : Nat} {flight : Flight TransferEnd} {rest : List (Flight TransferEnd)}
      {ledger : Ledger} (hlate : deadline ≤ flight.finish) :
      Closes ⟨.grace deadline, flight :: rest, ledger⟩
        ⟨ledger.moments, .ok (ledger.advance deadline).abandon⟩
  /-- An upload panicked. -/
  | failed {error : Error} {flights : List (Flight TransferEnd)} {ledger : Ledger} :
      Closes ⟨.failed error, flights, ledger⟩ ⟨ledger.moments, .error error⟩

theorem Closes.moments_eq {uploads : List (UploadFile × Transfer)} {options : PoolOptions}
    {final : Standing} {run : UploadRun} (h : Closes uploads options final run) :
    run.moments = final.ledger.moments := by
  cases h <;> rfl

/-! ## Every run is made of steps -/

section Simulation

variable {uploads options interrupt}

theorem awaits_running {finish : Nat} (h : interrupts interrupt finish = false) :
    Phase.running.Awaits interrupt finish := by
  intro time htime
  simpa [interrupts, htime] using h

theorem exists_of_interrupts {finish : Nat} (h : interrupts interrupt finish = true) :
    ∃ time, interrupt = some time ∧ time ≤ finish := by
  cases interrupt with
  | none => simp [interrupts] at h
  | some time => exact ⟨time, rfl, by simpa [interrupts] using h⟩

variable (uploads options) in
/-- Waiting until there is room is a number of steps, and starts nothing. -/
theorem awaitBelow_reaches {limit : Nat} {flights flights' : List (Flight TransferEnd)}
    {ledger ledger' : Ledger}
    (h : awaitBelow interrupt limit flights ledger = .ok (flights', ledger')) :
    Reaches uploads options interrupt ⟨.running, flights, ledger⟩ ⟨.running, flights', ledger'⟩ ∧
      (flights' = [] ∨ flights'.length < limit) ∧
      ledger'.report.submitted = ledger.report.submitted := by
  induction flights generalizing ledger with
  | nil =>
    obtain ⟨rfl, rfl⟩ : [] = flights' ∧ ledger = ledger' := by simpa [awaitBelow] using h
    exact ⟨.refl, .inl rfl, rfl⟩
  | cons flight rest ih =>
    rw [awaitBelow] at h
    split at h
    · obtain ⟨rfl, rfl⟩ : flight :: rest = flights' ∧ ledger = ledger' := by simpa using h
      exact ⟨.refl, .inr (by simpa), rfl⟩
    split at h
    · cases h
    next hfree =>
      split at h
      next next hland =>
        obtain ⟨result, hend, rfl⟩ := Ledger.land_eq_ok hland
        obtain ⟨hreach, hroom, hsame⟩ := ih h
        have hwait := awaits_running (by simpa using hfree)
        exact ⟨.head (.complete hwait hend) hreach, hroom, by simpa using hsame⟩
      · cases h

/-- After an interrupt the uploads in flight end one after the other up to the deadline. -/
theorem drainUntil_closes (deadline : Nat) (flights : List (Flight TransferEnd)) (ledger : Ledger) :
    ∃ final, Reaches uploads options interrupt ⟨.grace deadline, flights, ledger⟩ final ∧
      Closes uploads options final ⟨(drainUntil deadline flights ledger).moments,
        .ok (drainUntil deadline flights ledger).abandon⟩ := by
  induction flights generalizing ledger with
  | nil => exact ⟨_, .refl, .drained⟩
  | cons flight rest ih =>
    rw [drainUntil]
    split
    next hlate => exact ⟨_, .refl, .expired hlate⟩
    next hearly =>
      have hwait : (Phase.grace deadline).Awaits interrupt flight.finish := Nat.lt_of_not_le hearly
      split
      next next hland =>
        obtain ⟨result, hend, rfl⟩ := Ledger.land_eq_ok hland
        obtain ⟨final, hreach, hclose⟩ := ih (ledger.complete flight result)
        exact ⟨final, .head (.complete hwait hend) hreach, hclose⟩
      next failure hland =>
        obtain ⟨text, hend, -⟩ := Ledger.land_eq_error hland
        obtain ⟨final, hreach, hclose⟩ := ih (ledger.lose flight)
        exact ⟨final, .head (.lose hwait hend) hreach, hclose⟩

/-- A wait that ends early closes the run, after the time that an interrupt leaves. -/
theorem awaitBelow_closes {limit : Nat} {flights : List (Flight TransferEnd)} {ledger : Ledger}
    {halt : Halt TransferEnd}
    (h : awaitBelow interrupt limit flights ledger = .error halt) :
    ∃ final, Reaches uploads options interrupt ⟨.running, flights, ledger⟩ final ∧
      Closes uploads options final (stop options interrupt halt) := by
  induction flights generalizing ledger with
  | nil => simp [awaitBelow] at h
  | cons flight rest ih =>
    rw [awaitBelow] at h
    split at h
    · cases h
    split at h
    next hhit =>
      obtain ⟨time, rfl, hwait⟩ := exists_of_interrupts hhit
      obtain rfl : Halt.interrupted (flight :: rest) ledger = halt := by simpa using h
      obtain ⟨final, hreach, hclose⟩ := drainUntil_closes
        ((ledger.interrupt time).now + options.grace) (flight :: rest) (ledger.interrupt time)
      exact ⟨final, .head (.interrupt rfl hwait) hreach, hclose⟩
    next hfree =>
      have hwait := awaits_running (by simpa using hfree)
      split at h
      next next hland =>
        obtain ⟨result, hend, rfl⟩ := Ledger.land_eq_ok hland
        obtain ⟨final, hreach, hclose⟩ := ih h
        exact ⟨final, .head (.complete hwait hend) hreach, hclose⟩
      next failure hland =>
        obtain ⟨text, hend, rfl⟩ := Ledger.land_eq_error hland
        obtain rfl : Halt.taskFailed (.ofTask (.panicked text)) (ledger.lose flight) = halt := by
          simpa using h
        exact ⟨_, .single (.lose hwait hend), .failed⟩

theorem Step.halted {st st' : Standing} (h : Step uploads options interrupt st st')
    {ignoreFailures : Bool} (hhalt : st.ledger.halted ignoreFailures = true) :
    st'.ledger.halted ignoreFailures = true := by
  cases h with
  | submit | lose | interrupt => exact hhalt
  | @complete _ flight _ ledger result =>
    obtain ⟨hfailure, hkeep⟩ : ledger.report.firstFailure.isSome ∧ ignoreFailures = false := by
      simpa [Ledger.halted] using hhalt
    cases result with
    | ok bytes => exact hhalt
    | error error =>
      -- The failure that was seen first stays the first.
      obtain ⟨failure, hsome⟩ := Option.isSome_iff_exists.mp hfailure
      simp [Ledger.halted, Ledger.complete, Ledger.countFailure, hsome, hkeep]

/-- A run that a failure has stopped stays stopped. -/
theorem Reaches.halted {st st' : Standing} (h : Reaches uploads options interrupt st st')
    {ignoreFailures : Bool} (hhalt : st.ledger.halted ignoreFailures = true) :
    st'.ledger.halted ignoreFailures = true := by
  induction h with
  | refl => exact hhalt
  | tail _ hstep ih => exact hstep.halted ih

/-- When nothing more is started the run closes. -/
theorem finish_closes {flights : List (Flight TransferEnd)} {ledger : Ledger}
    (hstop : ledger.halted options.ignoreFailures = true ∨
      uploads.length ≤ ledger.report.submitted) :
    ∃ final, Reaches uploads options interrupt ⟨.running, flights, ledger⟩ final ∧
      Closes uploads options final (finish options interrupt flights ledger) := by
  unfold finish
  split
  next flights' ledger' hwait =>
    obtain ⟨hreach, hroom, hsame⟩ := awaitBelow_reaches uploads options hwait
    obtain rfl : flights' = [] := hroom.elim id fun h => List.length_eq_zero_iff.mp (by omega)
    exact ⟨_, hreach, .done (hstop.imp hreach.halted fun h => hsame ▸ h)⟩
  next halt hwait => exact awaitBelow_closes hwait

/-- Submitting what is left of a plan is a number of steps that close the run. -/
theorem submitAll_closes {σ : Type} (start : UploadFile → StateM σ Transfer)
    (hthreads : options.threads ≠ 0) (plan : List UploadFile) (state : σ)
    (flights : List (Flight TransferEnd)) (ledger : Ledger)
    (hleft : uploads.drop ledger.report.submitted = roster start plan state) :
    ∃ final, Reaches uploads options interrupt ⟨.running, flights, ledger⟩ final ∧
      Closes uploads options final
        ((submitAll start options interrupt plan flights ledger).run state).1 := by
  induction plan generalizing state flights ledger with
  | nil => exact finish_closes (.inr (List.drop_eq_nil_iff.mp hleft))
  | cons file plan ih =>
    rw [submitAll]
    split
    next halt hwait => exact awaitBelow_closes hwait
    next flights' ledger' hwait =>
      obtain ⟨hreach, hroom, hsame⟩ := awaitBelow_reaches uploads options hwait
      split
      next hhalt =>
        obtain ⟨final, hrest, hclose⟩ := @finish_closes uploads _ interrupt flights' _ (.inl hhalt)
        exact ⟨final, hreach.trans hrest, hclose⟩
      next hgo =>
        have hspace : flights'.length < options.threads :=
          hroom.elim (fun h => by simp [h]; omega) id
        -- The wait started nothing, so what is left of the roster still begins with this file.
        obtain ⟨hnext, htail⟩ := roster_cons_of_drop start (hsame ▸ hleft)
        obtain ⟨final, hrest, hclose⟩ := ih ((start file).run state).2
          ((launch ledger' file ((start file).run state).1).insert flights')
          (ledger'.submit file.key) htail
        have hlive : ledger'.halted options.ignoreFailures = false := by simpa using hgo
        exact ⟨final, hreach.trans (.head (.submit hnext hspace hlive) hrest), hclose⟩

end Simulation

/-! ## Each moment is added by a step -/

variable {uploads options interrupt}

theorem Step.exists_moment {st st' : Standing} (h : Step uploads options interrupt st st') :
    ∃ moment, st'.ledger.moments = st.ledger.moments ++ [moment] := by
  cases h <;> exact ⟨_, rfl⟩

/-- Each moment of a run is added by a step from a standing on the way. -/
theorem exists_step {final : Standing}
    (h : Reaches uploads options interrupt (.start uploads) final) {before after : List Moment}
    {moment : Moment} (hsplit : final.ledger.moments = before ++ moment :: after) :
    ∃ st st', Reaches uploads options interrupt (.start uploads) st ∧
      Step uploads options interrupt st st' ∧ st.ledger.moments = before ∧
      st'.ledger.moments = before ++ [moment] := by
  -- The last moment was added by the last step, and any other one by a step before it.
  induction h generalizing after with
  | refl => simp [Standing.start, Ledger.start] at hsplit
  | @tail st st' hreach hstep ih =>
    obtain ⟨added, hadded⟩ := hstep.exists_moment
    rw [hadded] at hsplit
    rcases List.eq_nil_or_concat after with rfl | ⟨earlier, last, rfl⟩
    · obtain ⟨hbefore, hmoment⟩ := List.append_inj' hsplit rfl
      exact ⟨st, st', hreach, hstep, hbefore, by rw [hadded, hbefore, hmoment]⟩
    · rw [List.concat_eq_append, ← List.cons_append, ← List.append_assoc] at hsplit
      exact ih (List.append_inj_left' hsplit rfl)

/-- The moments up to any point of a run are those of a standing on the way. -/
theorem exists_reaches {final : Standing}
    (h : Reaches uploads options interrupt (.start uploads) final) {before after : List Moment}
    (hsplit : final.ledger.moments = before ++ after) :
    ∃ st, Reaches uploads options interrupt (.start uploads) st ∧ st.ledger.moments = before := by
  cases after with
  | nil => exact ⟨final, h, by simpa using hsplit⟩
  | cons moment after =>
    obtain ⟨st, -, hreach, -, hbefore, -⟩ := exists_step h hsplit
    exact ⟨st, hreach, hbefore⟩

/-- A run that has failed makes no step. -/
theorem Step.phase_ne_failed (h : Step uploads options interrupt st st') (error : Error) :
    st.phase ≠ .failed error := by
  cases h with
  | submit | interrupt => exact nofun
  | complete hwait | lose hwait =>
    rintro rfl
    exact hwait

/-- A run fails when an upload panics that is waited for while uploads are started. -/
theorem Reaches.of_failed (h : Reaches uploads options interrupt (.start uploads) st)
    {error : Error} (hphase : st.phase = .failed error) :
    ∃ flight rest ledger text, Reaches uploads options interrupt (.start uploads)
        ⟨.running, flight :: rest, ledger⟩ ∧ Phase.running.Awaits interrupt flight.finish ∧
      flight.work = .panicked text ∧ error = .ofTask (.panicked text) ∧
      st.ledger = ledger.lose flight := by
  cases h with
  | refl => cases hphase
  | tail hreach hstep =>
    cases hstep with
    | submit | interrupt => cases hphase
    | complete hwait =>
      obtain rfl := hphase
      exact hwait.elim
    | @lose phase flight rest ledger text hwait hend =>
      cases phase with
      | running => exact ⟨flight, rest, ledger, text, hreach, hwait, hend,
          (Phase.failed.inj hphase).symm, rfl⟩
      | grace => cases hphase
      | failed => exact hwait.elim

end Pool

/-- Every run is made of steps from the start to a standing that closes it. -/
theorem runUploads_reaches {σ : Type} (start : UploadFile → StateM σ Transfer)
    (options : PoolOptions) (interrupt : Option Nat) (plan : List UploadFile) (state : σ)
    (hthreads : options.threads ≠ 0) :
    ∃ final, Pool.Reaches (roster start plan state) options interrupt
        (.start (roster start plan state)) final ∧
      Pool.Closes (roster start plan state) options final
        ((runUploads start options interrupt plan).run state).1 := by
  rw [runUploads_eq, if_neg hthreads]
  unfold Pool.Standing.start
  rw [length_roster]
  exact Pool.submitAll_closes start hthreads plan state [] (.start plan.length) rfl

/-- The moments of every run, also of one that is refused, are those of a standing that it gets
to. -/
theorem exists_reaches_moments {σ : Type} (start : UploadFile → StateM σ Transfer)
    (options : PoolOptions) (interrupt : Option Nat) (plan : List UploadFile) (state : σ) :
    ∃ final, Pool.Reaches (roster start plan state) options interrupt
        (.start (roster start plan state)) final ∧
      ((runUploads start options interrupt plan).run state).1.moments = final.ledger.moments := by
  by_cases hthreads : options.threads = 0
  · rw [runUploads_eq, if_pos hthreads]
    exact ⟨_, .refl, rfl⟩
  · obtain ⟨final, hreach, hclose⟩ :=
      runUploads_reaches start options interrupt plan state hthreads
    exact ⟨final, hreach, hclose.moments_eq⟩

/-- With at least one upload at a time a run fails only because an upload panicked. -/
theorem runUploads_eq_error {σ : Type} {start : UploadFile → StateM σ Transfer}
    {options : PoolOptions} {interrupt : Option Nat} {plan : List UploadFile} {state : σ}
    (hthreads : options.threads ≠ 0) {error : Error}
    (h : ((runUploads start options interrupt plan).run state).1.result = .error error) :
    ∃ text, error = .ofTask (.panicked text) := by
  obtain ⟨final, hreach, hclose⟩ :=
    runUploads_reaches start options interrupt plan state hthreads
  generalize ((runUploads start options interrupt plan).run state).1 = run at h hclose
  cases hclose with
  | done | drained | expired => cases h
  | failed =>
    obtain ⟨_, _, _, text, _, _, _, hfailure, _⟩ := hreach.of_failed rfl
    exact ⟨text, (Except.error.inj h).symm.trans hfailure⟩

end BucketCare

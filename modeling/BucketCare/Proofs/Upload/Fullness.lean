import BucketCare.Proofs.Upload.Interrupt
import BucketCare.Proofs.Upload.Outcome

/-!
# The pool is kept full

In a run without an interrupt, which no failure stops and in which no upload panics, no file waits
while there is room for it. The first files are started at once, as many as there are threads. From
then on the end of an upload is the start of the next one: of two ends one after the other neither
is left unused. So the times at which uploads are started are zeros, one for each thread, followed
by the times at which uploads end, and while a file waits every thread has an upload.

## Main definitions

* `starts`, `finishes` — the times at which uploads are started, and at which they end
* `Steady` — nothing stops the run of a roster
* `KeepsFull` — the moments of a run in which no thread is idle while a file waits

## Main results

* `Pool.Reaches.clock` — time does not run backwards
* `Pool.awaitBelow_ends` — a wait lets no more uploads end than it has to
* `runUploads_keepsFull` — every run that nothing stops keeps the pool full
-/

namespace BucketCare

namespace Moment

/-- The time at which an upload is started. -/
@[simp] def start? : Moment → Option Nat
  | .submitted time _ _ => some time
  | _ => none

/-- The time at which an upload ends with a result. -/
@[simp] def finish? : Moment → Option Nat
  | .completed time _ _ _ => some time
  | _ => none

end Moment

/-- The times at which uploads are started, in order. -/
def starts (moments : List Moment) : List Nat := moments.filterMap Moment.start?

/-- The times at which uploads end with a result, in order. -/
def finishes (moments : List Moment) : List Nat := moments.filterMap Moment.finish?

section Times

variable (moments : List Moment) (moment : Moment)

@[simp] theorem starts_nil : starts [] = [] := rfl

@[simp] theorem finishes_nil : finishes [] = [] := rfl

@[simp] theorem starts_concat :
    starts (moments ++ [moment]) = starts moments ++ moment.start?.toList := by
  cases moment <;> simp [starts]

@[simp] theorem finishes_concat :
    finishes (moments ++ [moment]) = finishes moments ++ moment.finish?.toList := by
  cases moment <;> simp [finishes]

theorem length_starts : (starts moments).length = (submissions moments).length := by
  rw [starts, submissions, List.length_filterMap_eq_countP, List.length_filterMap_eq_countP]
  congr 1
  funext moment
  cases moment <;> rfl

theorem length_finishes : (finishes moments).length = (completions moments).length := by
  rw [finishes, completions, List.length_filterMap_eq_countP, List.length_filterMap_eq_countP]
  congr 1
  funext moment
  cases moment <;> rfl

end Times

/-- Nothing stops the run of a roster: no upload panics, and failures are ignored or there are
none. -/
structure Steady (uploads : List (UploadFile × Transfer)) (options : PoolOptions) : Prop where
  calm : Calm uploads
  unstopped : options.ignoreFailures = true ∨ ∀ entry ∈ uploads, entry.2.outcome.fails = false

/-- The moments of a run in which no thread is idle while a file waits. -/
structure KeepsFull (uploads : List (UploadFile × Transfer)) (threads : Nat)
    (moments : List Moment) : Prop where
  /-- Every file is submitted once, in the order of the roster. -/
  submissions_eq : submissions moments = numbered uploads
  /-- Every upload ends with a result, and once. -/
  completions_perm : (completions moments).Perm (numbered uploads)
  /-- The ends are told in the order of time. -/
  finishes_sorted : (finishes moments).Pairwise (· ≤ ·)
  /-- The first files are submitted at the start, as many as there are threads, and any other one
  when the upload ends that makes room for it. -/
  start_eq : ∀ place, place < uploads.length → (starts moments)[place]? =
    if place < threads then some 0 else (finishes moments)[place - threads]?
  /-- At any time at which a file still waits there is an upload in flight for each thread. -/
  in_flight_eq : ∀ time, (starts moments).countP (· ≤ time) < uploads.length →
    (starts moments).countP (· ≤ time) = (finishes moments).countP (· ≤ time) + threads

@[simp] theorem Ledger.submit_now (ledger : Ledger) (key : String) :
    (ledger.submit key).now = ledger.now := rfl

@[simp] theorem Ledger.complete_now (ledger : Ledger) (flight : Flight TransferEnd)
    (result : Except Error UInt64) : (ledger.complete flight result).now = flight.finish := rfl

namespace Pool

variable {uploads : List (UploadFile × Transfer)} {options : PoolOptions} {interrupt : Option Nat}
variable {st : Standing}

/-! ## The clock of a run -/

/-- Time does not run backwards: uploads end in the order of time, and those in flight end no sooner
than now. -/
theorem Reaches.clock (h : Reaches uploads options interrupt (.start uploads) st) :
    (finishes st.ledger.moments).Pairwise (· ≤ ·) ∧
      (∀ time ∈ finishes st.ledger.moments, time ≤ st.ledger.now) ∧
      ∀ flight ∈ st.flights, st.ledger.now ≤ flight.finish := by
  induction h with
  | refl => simp [Standing.start, Ledger.start]
  | tail hreach hstep ih =>
    obtain ⟨hsorted, hpast, hflights⟩ := ih
    have hends := Reaches.sorted hreach
    cases hstep with
    | @submit flights ledger file transfer =>
      refine ⟨by simpa using hsorted, by simpa using hpast, ?_⟩
      intro flight hflight
      rcases List.mem_cons.mp ((Flight.insert_perm _ flights).mem_iff.mp hflight) with rfl | hflight
      · exact Nat.le_add_right _ _
      · exact hflights flight hflight
    | @complete phase flight rest ledger =>
      have hnow : ledger.now ≤ flight.finish := hflights flight (.head _)
      have hbefore : ∀ time ∈ finishes ledger.moments, time ≤ flight.finish :=
        fun time hmem => Nat.le_trans (hpast time hmem) hnow
      refine ⟨?_, ?_, fun other hother => List.rel_of_pairwise_cons hends hother⟩
      · simp only [Ledger.complete_moments, finishes_concat, Moment.finish?, Option.toList_some]
        exact List.pairwise_append.mpr
          ⟨hsorted, List.pairwise_singleton _ _, by simpa using hbefore⟩
      · intro time hmem
        simp only [Ledger.complete_moments, finishes_concat, Moment.finish?, Option.toList_some,
          List.mem_append, List.mem_singleton] at hmem
        rcases hmem with hmem | rfl
        · exact hbefore time hmem
        · exact Nat.le_refl _
    | @lose phase flight rest ledger =>
      have hnow : ledger.now ≤ flight.finish := hflights flight (.head _)
      refine ⟨by simpa using hsorted, ?_, ?_⟩
      · intro time hmem
        exact Nat.le_trans (hpast time (by simpa using hmem)) hnow
      · exact fun other hother => List.rel_of_pairwise_cons hends hother
    | @interrupt flight rest ledger time htime hwait =>
      refine ⟨by simpa using hsorted, ?_, ?_⟩
      · intro past hmem
        exact Nat.le_trans (hpast past (by simpa using hmem)) (Nat.le_max_left _ _)
      · intro other hother
        -- The upload that ends first ends no sooner than the interrupt.
        have hfirst : time ≤ other.finish := by
          rcases List.mem_cons.mp hother with rfl | hrest
          · exact hwait
          · exact Nat.le_trans hwait (List.rel_of_pairwise_cons hends hrest)
        exact Nat.max_le.mpr ⟨hflights other hother, hfirst⟩

/-- While uploads are started the time is that of the last end, or zero before the first. -/
theorem Reaches.now_eq (h : Reaches uploads options interrupt (.start uploads) st)
    (hphase : st.phase = .running) :
    st.ledger.now = (finishes st.ledger.moments).getLastD 0 := by
  induction h with
  | refl => rfl
  | tail _ hstep ih =>
    cases hstep with
    | submit => simpa using ih rfl
    | complete => simp
    | @lose phase => cases phase <;> cases hphase
    | interrupt => cases hphase

/-! ## Waits -/

/-- A run that nothing stops may always submit. -/
theorem Reaches.not_halted (h : Reaches uploads options interrupt (.start uploads) st)
    (hsteady : Steady uploads options) : st.ledger.halted options.ignoreFailures = false := by
  rcases hsteady.unstopped with hignore | hnone
  · simp [Ledger.halted, hignore]
  obtain ⟨hcounts, -⟩ := h.counts
  have hfailed : st.ledger.report.failed = 0 := by
    rw [Reaches.failed_eq_zero_iff hcounts]
    intro time place key error hmem
    obtain ⟨file, transfer, hroster, -, hresult⟩ := h.result_eq hmem
    have hfails := (TransferEnd.fails_iff hresult).mpr ⟨error, rfl⟩
    rw [hnone _ (List.mem_of_getElem? hroster)] at hfails
    cases hfails
  simp [Ledger.halted, hcounts.firstFailure_eq_none_iff.mpr hfailed]

/-- A wait in a run that nothing stops does not end early. -/
theorem Reaches.exists_awaitBelow {flights : List (Flight TransferEnd)} {ledger : Ledger}
    (h : Reaches uploads options none (.start uploads) ⟨.running, flights, ledger⟩)
    (hcalm : Calm uploads) (limit : Nat) :
    ∃ flights' ledger', awaitBelow none limit flights ledger = .ok (flights', ledger') := by
  cases hwait : awaitBelow none limit flights ledger with
  | ok waited => exact ⟨waited.1, waited.2, rfl⟩
  | error halt =>
    -- Only a panic ends a wait early, and then the run fails.
    obtain ⟨final, hreach, hclose⟩ := @awaitBelow_closes uploads options _ _ _ _ _ hwait
    obtain ⟨-, hphase⟩ := Reaches.losses_eq_nil hcalm (h.trans hreach)
    cases halt with
    | interrupted => exact absurd hwait awaitBelow_none_ne
    | taskFailed =>
      obtain ⟨report, hreport, -⟩ := hclose.exists_report (h.trans hreach) hphase
      cases hreport

/-- A wait starts nothing, and lets no more uploads end than it has to: the first of those in
flight, until there is room for one. -/
theorem awaitBelow_ends {limit : Nat} {flights flights' : List (Flight TransferEnd)}
    {ledger ledger' : Ledger} (hlimit : 1 ≤ limit)
    (h : awaitBelow interrupt limit flights ledger = .ok (flights', ledger')) :
    starts ledger'.moments = starts ledger.moments ∧ ∃ ended, flights = ended ++ flights' ∧
      finishes ledger'.moments = finishes ledger.moments ++ ended.map Flight.finish ∧
      (ended = [] ∨ flights'.length + 1 = limit) := by
  induction flights generalizing ledger with
  | nil =>
    obtain ⟨rfl, rfl⟩ : [] = flights' ∧ ledger = ledger' := by simpa [awaitBelow] using h
    exact ⟨rfl, [], rfl, by simp, .inl rfl⟩
  | cons flight rest ih =>
    rw [awaitBelow] at h
    split at h
    · obtain ⟨rfl, rfl⟩ : flight :: rest = flights' ∧ ledger = ledger' := by simpa using h
      exact ⟨rfl, [], rfl, by simp, .inl rfl⟩
    next hfull =>
      split at h
      · cases h
      split at h
      next next hland =>
        obtain ⟨result, -, rfl⟩ := Ledger.land_eq_ok hland
        obtain ⟨-, hroom, -⟩ := awaitBelow_reaches [] ⟨0, false, 0⟩ h
        obtain ⟨hstarts, ended, rfl, hends, htight⟩ := ih h
        refine ⟨by simpa using hstarts, flight :: ended, rfl, by simpa using hends, .inr ?_⟩
        rcases htight with rfl | htight
        · -- There was no room before this upload ended, and there is room after it.
          rw [List.nil_append] at hfull
          rcases hroom with rfl | hroom
          · simp only [List.length_nil] at hfull ⊢
            omega
          · omega
        · exact htight
      · cases h

/-! ## The uploads that are started -/

/-- The first uploads are started at once, as many as there are threads, and each further one when
an upload ends. -/
def FillsUp (threads : Nat) (moments : List Moment) : Prop :=
  starts moments <+: List.replicate threads 0 ++ finishes moments

/-- This is so, and no upload has ended without the start of another one. -/
structure Packed (threads : Nat) (moments : List Moment) : Prop where
  fillsUp : FillsUp threads moments
  length_finishes_eq : (finishes moments).length = (starts moments).length - threads

theorem FillsUp.wait {threads limit : Nat} {flights flights' : List (Flight TransferEnd)}
    {ledger ledger' : Ledger} (h : FillsUp threads ledger.moments) (hlimit : 1 ≤ limit)
    (hwait : awaitBelow interrupt limit flights ledger = .ok (flights', ledger')) :
    FillsUp threads ledger'.moments := by
  obtain ⟨hstarts, ended, -, hfinishes, -⟩ := awaitBelow_ends hlimit hwait
  rw [FillsUp, hstarts, hfinishes, ← List.append_assoc]
  exact h.trans (List.prefix_append _ _)

/-- The next time in a list of times that begins with zeros, when it ends there. -/
theorem getElem?_replicate_append {threads count : Nat} {ends : List Nat}
    (h : ends.length = count + 1 - threads) :
    (List.replicate threads 0 ++ ends)[count]? = some (ends.getLastD 0) := by
  by_cases hfirst : count < threads
  · have hnil : ends = [] := List.length_eq_zero_iff.mp (by omega)
    subst hnil
    simp [hfirst]
  · have hlast : count - threads = ends.length - 1 := by omega
    have hsome : ends ≠ [] := by
      intro hnil
      rw [hnil] at h
      simp at h
      omega
    rw [List.getElem?_append_right (by simpa using Nat.le_of_not_lt hfirst), List.length_replicate,
      hlast, ← List.getLast?_eq_getElem?, List.getLastD_eq_getLast?]
    simp [List.getLast?_eq_some_getLast hsome]

theorem prefix_concat {times all : List Nat} {time : Nat} (h : times <+: all)
    (hnext : all[times.length]? = some time) : times ++ [time] <+: all := by
  rw [List.prefix_iff_eq_take] at h ⊢
  rw [List.length_append, List.length_singleton, List.take_add_one, ← h, hnext]
  rfl

/-- An upload that is started after a wait for room leaves the pool full. -/
theorem Packed.submit {threads : Nat} {flights flights' : List (Flight TransferEnd)}
    {ledger ledger' : Ledger} (hpacked : Packed threads ledger.moments) (hthreads : 1 ≤ threads)
    (hflights : (starts ledger.moments).length =
      (finishes ledger.moments).length + flights.length)
    (hwait : awaitBelow interrupt threads flights ledger = .ok (flights', ledger'))
    (hroom : flights' = [] ∨ flights'.length < threads)
    (hnow : ledger'.now = (finishes ledger'.moments).getLastD 0) (key : String) :
    Packed threads (ledger'.submit key).moments := by
  obtain ⟨hstarts, ended, rfl, hfinishes, htight⟩ := awaitBelow_ends hthreads hwait
  have hlength := hpacked.length_finishes_eq
  have hspace : flights'.length < threads := by
    rcases hroom with rfl | hroom
    · exact hthreads
    · exact hroom
  -- The wait has let one upload end if and only if all threads had one.
  have hcount : (finishes ledger'.moments).length =
      (starts ledger'.moments).length + 1 - threads := by
    rw [hfinishes, hstarts, List.length_append, List.length_map]
    rw [List.length_append] at hflights
    rcases htight with rfl | htight
    · rw [List.length_nil] at hflights ⊢
      omega
    · omega
  constructor
  · have hbegun := hpacked.fillsUp.wait hthreads hwait
    simpa [FillsUp, hnow] using prefix_concat hbegun (getElem?_replicate_append hcount)
  · simpa using hcount

/-- Each started upload has ended or is in flight, where none panics. -/
theorem Reaches.length_starts_eq (h : Reaches uploads options interrupt (.start uploads) st)
    (hcalm : Calm uploads) : (starts st.ledger.moments).length =
      (finishes st.ledger.moments).length + st.flights.length := by
  have hall := h.submissions_perm.length_eq
  rw [(h.losses_eq_nil hcalm).1] at hall
  rw [length_starts, length_finishes]
  simpa using hall

section Submitting

variable {σ : Type} (start : UploadFile → StateM σ Transfer)

/-- Where nothing more is started, the uploads in flight end. -/
theorem finish_fillsUp {flights : List (Flight TransferEnd)} {ledger : Ledger}
    (h : Reaches uploads options none (.start uploads) ⟨.running, flights, ledger⟩)
    (hcalm : Calm uploads) {threads : Nat} (hfills : FillsUp threads ledger.moments) :
    FillsUp threads (finish options none flights ledger).moments := by
  obtain ⟨flights', ledger', hwait⟩ := h.exists_awaitBelow hcalm 1
  rw [finish, hwait]
  exact hfills.wait (Nat.le_refl 1) hwait

/-- What is left of a plan is started as soon as there is room for it. -/
theorem submitAll_fillsUp (hthreads : 1 ≤ options.threads)
    (hsteady : Steady uploads options) (plan : List UploadFile) (state : σ)
    (flights : List (Flight TransferEnd)) (ledger : Ledger)
    (hreach : Reaches uploads options none (.start uploads) ⟨.running, flights, ledger⟩)
    (hleft : uploads.drop ledger.report.submitted = roster start plan state)
    (hpacked : Packed options.threads ledger.moments) : FillsUp options.threads
      ((submitAll start options none plan flights ledger).run state).1.moments := by
  induction plan generalizing state flights ledger with
  | nil => exact finish_fillsUp hreach hsteady.calm hpacked.fillsUp
  | cons file plan ih =>
    obtain ⟨flights', ledger', hwait⟩ := hreach.exists_awaitBelow hsteady.calm options.threads
    obtain ⟨hrest, hroom, hsame⟩ := awaitBelow_reaches uploads options hwait
    have hwaited : Reaches uploads options none (.start uploads) ⟨.running, flights', ledger'⟩ :=
      hreach.trans hrest
    have hgo := hwaited.not_halted hsteady
    obtain ⟨hnext, htail⟩ := roster_cons_of_drop start (hsame ▸ hleft)
    have hspace : flights'.length < options.threads := hroom.elim (fun h => by simp [h]; omega) id
    have hflights := hreach.length_starts_eq hsteady.calm
    have hfilled := hpacked.submit hthreads hflights hwait hroom (hwaited.now_eq rfl) file.key
    rw [submitAll_cons, hwait, afterRoom, if_neg (by simp [hgo])]
    exact ih _ _ _ (hwaited.tail (.submit hnext hspace hgo)) htail hfilled

end Submitting

end Pool

/-! ## A run at a time -/

/-- While one of the first times of an ascending list is still to come, so are all behind them. -/
theorem countP_take_of_pairwise {times : List Nat} (hsorted : times.Pairwise (· ≤ ·))
    {count time : Nat} (hcount : count ≤ times.length)
    (hlate : (times.take count).countP (· ≤ time) < count) :
    times.countP (· ≤ time) = (times.take count).countP (· ≤ time) := by
  have hlength : (times.take count).length = count := by
    rw [List.length_take]
    omega
  obtain ⟨late, hmem, hlt⟩ : ∃ late ∈ times.take count, time < late := by
    by_contra hnone
    push Not at hnone
    have hall : (times.take count).countP (· ≤ time) = (times.take count).length :=
      List.countP_eq_length.mpr fun past hmem => by simpa using hnone past hmem
    omega
  have hrest : (times.drop count).countP (· ≤ time) = 0 := by
    apply List.countP_eq_zero.mpr
    intro later hlater
    rw [← List.take_append_drop count times] at hsorted
    have hle : late ≤ later := (List.pairwise_append.mp hsorted).2.2 late hmem later hlater
    simpa using Nat.lt_of_lt_of_le hlt hle
  calc times.countP (· ≤ time)
      = (times.take count ++ times.drop count).countP (· ≤ time) := by rw [List.take_append_drop]
    _ = (times.take count).countP (· ≤ time) := by rw [List.countP_append, hrest, Nat.add_zero]

/-- While files wait that are started when uploads end, behind those that are started at once, every
thread has an upload. -/
theorem countP_starts_eq {threads count time : Nat} {ends : List Nat}
    (hsorted : ends.Pairwise (· ≤ ·)) (hcount : count ≤ ends.length)
    (hwaits : ((List.replicate threads 0 ++ ends).take count).countP (· ≤ time) < count) :
    ((List.replicate threads 0 ++ ends).take count).countP (· ≤ time) =
      ends.countP (· ≤ time) + threads := by
  have hsplit : ((List.replicate threads 0 ++ ends).take count).countP (· ≤ time) =
      min count threads + (ends.take (count - threads)).countP (· ≤ time) := by
    rw [List.take_append, List.take_replicate, List.length_replicate, List.countP_append,
      List.countP_replicate]
    simp
  rw [hsplit] at hwaits ⊢
  have htake : ends.countP (· ≤ time) = (ends.take (count - threads)).countP (· ≤ time) :=
    countP_take_of_pairwise hsorted (by omega) (by omega)
  omega

/-- A run without an interrupt that nothing stops keeps the pool full: the first files are started
at once, each further one when the upload ends that makes room for it, and while a file waits every
thread has an upload. -/
theorem runUploads_keepsFull {σ : Type} (start : UploadFile → StateM σ Transfer)
    (options : PoolOptions) (plan : List UploadFile) (state : σ) (hthreads : 1 ≤ options.threads)
    (hsteady : Steady (roster start plan state) options) :
    KeepsFull (roster start plan state) options.threads
      ((runUploads start options none plan).run state).1.moments := by
  have hsome : options.threads ≠ 0 := Nat.ne_of_gt hthreads
  obtain ⟨final, hreach, hclose⟩ := runUploads_reaches start options none plan state hsome
  have hfills := Pool.submitAll_fillsUp start hthreads hsteady plan state []
    (.start (roster start plan state).length) .refl rfl ⟨List.nil_prefix, by simp [Ledger.start]⟩
  rw [length_roster] at hfills
  rw [runUploads_eq, if_neg hsome] at hclose ⊢
  rw [hclose.moments_eq] at hfills ⊢
  obtain ⟨hall, hended⟩ := hclose.all_ended hreach hsteady.calm
    (hreach.not_mem_interrupted (hreach.losses_eq_nil hsteady.calm).1)
    (hreach.not_halted hsteady)
  have hcount : (starts final.ledger.moments).length = (roster start plan state).length := by
    rw [length_starts, hall, length_numbered]
  have hends : (finishes final.ledger.moments).length = (roster start plan state).length := by
    rw [length_finishes, hended.length_eq, length_numbered]
  have hsorted := hreach.clock.1
  have hstarts := List.prefix_iff_eq_take.mp hfills
  rw [hcount] at hstarts
  constructor
  case submissions_eq => exact hall
  case completions_perm => exact hended
  case finishes_sorted => exact hsorted
  case start_eq =>
    intro place hplace
    rw [hstarts, List.getElem?_take_of_lt hplace]
    by_cases hfirst : place < options.threads
    · rw [if_pos hfirst, List.getElem?_append_left (by simpa using hfirst),
        List.getElem?_replicate, if_pos hfirst]
    · rw [if_neg hfirst, List.getElem?_append_right (by simpa using Nat.le_of_not_lt hfirst),
        List.length_replicate]
  case in_flight_eq =>
    intro time hwaits
    rw [hstarts] at hwaits ⊢
    exact countP_starts_eq hsorted (Nat.le_of_eq hends.symm) hwaits

/-- Four files and two threads, where the second upload is the longest and the third one fails: it
is started when the first one ends, and the last one when it has failed. -/
theorem runUploads_keepsFull_two :
    let plan : List UploadFile :=
      [⟨"a", "to/a", 9⟩, ⟨"b", "to/b", 8⟩, ⟨"c", "to/c", 7⟩, ⟨"d", "to/d", 6⟩]
    let transfers : List Transfer :=
      [⟨10, .written 9⟩, ⟨40, .written 8⟩, ⟨15, .failed .timeout⟩, ⟨5, .written 6⟩]
    let start : UploadFile → StateM (List Transfer) Transfer :=
      fun _ left => (left.headD ⟨0, .written 0⟩, left.tail)
    let run := ((runUploads start ⟨2, true, 1000⟩ none plan).run transfers).1
    Steady (roster start plan transfers) ⟨2, true, 1000⟩ ∧
      KeepsFull (roster start plan transfers) 2 run.moments ∧
      starts run.moments = [0, 0, 10, 25] ∧ finishes run.moments = [10, 25, 30, 40] := by
  intro plan transfers start run
  have hsteady : Steady (roster start plan transfers) ⟨2, true, 1000⟩ := by
    refine ⟨?_, .inl rfl⟩
    intro entry hmem text
    simp only [plan, transfers, start, roster, List.mem_cons, List.not_mem_nil] at hmem
    rcases hmem with rfl | rfl | rfl | rfl | hmem
    case inr.inr.inr.inr => cases hmem
    all_goals exact TransferEnd.noConfusion
  exact ⟨hsteady, runUploads_keepsFull start ⟨2, true, 1000⟩ plan transfers (by decide) hsteady,
    rfl, rfl⟩

end BucketCare

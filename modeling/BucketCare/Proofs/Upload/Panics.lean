import BucketCare.Proofs.Upload.Interrupt

/-!
# When a run fails

A run that is asked for no threads is refused, and nothing happens in it. Any other run fails for
one reason alone: an upload that it has started is due to panic, and no interrupt comes before that.
The panic is then the last thing that happens, whether or not failures are ignored.

When the interrupt has taken effect a panic ends nothing. The run comes to a report, and all uploads
in flight that are due before the deadline end as they are due, those behind a panic among them.

An upload that is due at the time of the interrupt is due after it: the interrupt comes first.

## Main definitions

* `UploadRun.FailsByPanic` — when and how a run fails, and when it does not

## Main results

* `Pool.Reaches.ended_or_inFlight` — an upload that was started has ended as it was due, or it is
  in flight
* `Pool.Reaches.of_interrupted` — what a run is doing after the interrupt
* `runUploads_fails` — every run fails by a panic before the interrupt, or not at all
-/

namespace BucketCare

/-- When and how a run fails, and when it does not. An upload that was started is told as one in
flight, by the time at which it is due to end and the way in which it is. -/
structure UploadRun.FailsByPanic (uploads : List (UploadFile × Transfer)) (options : PoolOptions)
    (interrupt : Option Nat) (run : UploadRun) : Prop where
  /-- Without threads the run is refused, and nothing happens. -/
  refused : options.threads = 0 → run.moments = [] ∧
    run.result = .error (.usage "thread count must be at least 1")
  /-- Otherwise it fails if and only if an upload that was started is due to panic before the
  interrupt. -/
  fails_iff : (∃ error, run.result = .error error) ↔ options.threads = 0 ∨
    ∃ (flight : Flight TransferEnd) (text : String), flight.Launched uploads run.moments ∧
      flight.work = .panicked text ∧ ∀ limit, interrupt = some limit → flight.finish < limit
  /-- It ends with the first panic, which is its failure. -/
  ends_with_panic : options.threads ≠ 0 → ∀ error, run.result = .error error →
    ∃ (before : List Moment) (flight : Flight TransferEnd) (text : String),
      run.moments = before ++ [.panicked flight.finish flight.place flight.key] ∧
      flight.Launched uploads before ∧ flight.work = .panicked text ∧
      (∀ limit, interrupt = some limit → flight.finish < limit) ∧
      error = .other ("worker task failed: " ++ text) ∧
      losses before = [] ∧ ∀ mark, .interrupted mark ∉ before
  /-- When the interrupt has taken effect the run ends with a report, and all that is due before the
  deadline ends as it is due, whatever panics. -/
  survives : ∀ mark, .interrupted mark ∈ run.moments → interrupt = some mark ∧
    (∃ report, run.result = .ok report ∧ report.interrupted = true) ∧
    ∀ flight : Flight TransferEnd, flight.Launched uploads run.moments →
      flight.finish < mark + options.grace → flight.ending ∈ run.moments

theorem Flight.Launched.of_concat {uploads : List (UploadFile × Transfer)} {moments : List Moment}
    {moment : Moment} {flight : Flight TransferEnd}
    (h : flight.Launched uploads (moments ++ [moment])) (hother : moment.submission? = none) :
    flight.Launched uploads moments := by
  obtain ⟨began, file, transfer, hroster, hbegan, hrest⟩ := h
  refine ⟨began, file, transfer, hroster, ?_, hrest⟩
  rcases List.mem_append.mp hbegan with hbegan | hnew
  · exact hbegan
  · obtain rfl := List.mem_singleton.mp hnew
    cases hother

namespace Pool

variable {uploads : List (UploadFile × Transfer)} {options : PoolOptions} {interrupt : Option Nat}
variable {st st' : Standing} {run : UploadRun} {flight : Flight TransferEnd}

/-! ## What was started ends -/

/-- The upload that a step starts is the one in flight. -/
theorem eq_launch {ledger : Ledger} {file : UploadFile} {transfer : Transfer}
    (hnext : uploads[ledger.report.submitted]? = some (file, transfer))
    (h : flight.Launched uploads [.submitted ledger.now ledger.report.submitted file.key]) :
    flight = launch ledger file transfer := by
  obtain ⟨place, key, finish, outcome⟩ := flight
  obtain ⟨began, other, assigned, hroster, hbegan, rfl, rfl, rfl⟩ := h
  obtain ⟨rfl, rfl, -⟩ : began = ledger.now ∧ place = ledger.report.submitted ∧ _ := by
    simpa using hbegan
  obtain ⟨rfl, rfl⟩ : file = other ∧ transfer = assigned := by
    simpa using hnext.symm.trans hroster
  rfl

/-- An upload that was started has ended as it was due, or it is in flight. -/
theorem Reaches.ended_or_inFlight (h : Reaches uploads options interrupt (.start uploads) st)
    (hlaunched : flight.Launched uploads st.ledger.moments) :
    flight.ending ∈ st.ledger.moments ∨ flight ∈ st.flights := by
  -- An upload comes in flight by the step that submits it, and leaves only by the one that ends it.
  induction h with
  | refl =>
    obtain ⟨_, _, _, _, hmem, _⟩ := hlaunched
    cases hmem
  | tail _ hstep ih =>
    cases hstep with
    | @submit flights ledger file transfer hnext =>
      obtain ⟨began, other, assigned, hroster, hbegan, hrest⟩ := hlaunched
      rcases List.mem_append.mp hbegan with hbegan | hnew
      · rcases ih ⟨began, other, assigned, hroster, hbegan, hrest⟩ with hended | hflying
        · exact .inl (List.mem_append_left _ hended)
        · exact .inr ((Flight.insert_perm _ flights).mem_iff.mpr (.tail _ hflying))
      · have hlaunch := eq_launch hnext ⟨began, other, assigned, hroster, hnew, hrest⟩
        exact .inr ((Flight.insert_perm _ flights).mem_iff.mpr (hlaunch ▸ .head _))
    | complete _ hend =>
      rcases ih (hlaunched.of_concat rfl) with hended | hflying
      · exact .inl (List.mem_append_left _ hended)
      · rcases List.mem_cons.mp hflying with rfl | hflying
        · exact .inl (List.mem_append_right _ (Flight.ending_of_result hend ▸ .head _))
        · exact .inr hflying
    | lose _ hend =>
      rcases ih (hlaunched.of_concat rfl) with hended | hflying
      · exact .inl (List.mem_append_left _ hended)
      · rcases List.mem_cons.mp hflying with rfl | hflying
        · exact .inl (List.mem_append_right _ (Flight.ending_of_panicked hend ▸ .head _))
        · exact .inr hflying
    | interrupt =>
      exact (ih (hlaunched.of_concat rfl)).imp_left (List.mem_append_left _)

/-! ## A panic and the interrupt -/

/-- In a run that has not failed a panic comes after the interrupt. -/
theorem Reaches.le_of_panicked (h : Reaches uploads options interrupt (.start uploads) st)
    (hphase : ∀ error, st.phase ≠ .failed error) {time place : Nat} {key : String}
    (hmem : .panicked time place key ∈ st.ledger.moments) :
    ∃ limit, interrupt = some limit ∧ limit ≤ time := by
  induction h with
  | refl => cases hmem
  | tail hreach hstep ih =>
    have hearlier := ih hstep.phase_ne_failed
    cases hstep with
    | submit | complete | interrupt => exact hearlier (by simpa using hmem)
    | @lose phase flight rest ledger text hwait =>
      cases phase with
      | running => exact absurd rfl (hphase _)
      | failed => exact hwait.elim
      | grace =>
        rcases List.mem_append.mp hmem with hmem | hnew
        · exact hearlier hmem
        · -- The upload was in flight when the interrupt took effect.
          obtain ⟨rfl, -⟩ : time = flight.finish ∧ _ := by simpa using hnew
          obtain ⟨-, limit, hlimit, hlate⟩ := Reaches.fits hreach
          exact ⟨limit, hlimit, hlate flight (.head _)⟩

/-- When the interrupt has taken effect, at its time, the run waits for what is in flight. -/
theorem Reaches.of_interrupted (h : Reaches uploads options interrupt (.start uploads) st)
    {mark : Nat} (hmem : .interrupted mark ∈ st.ledger.moments) :
    interrupt = some mark ∧ st.phase = .grace (mark + options.grace) := by
  induction h with
  | refl => cases hmem
  | tail hreach hstep ih =>
    cases hstep with
    | submit => exact ih (by simpa using hmem)
    | complete => exact ih (by simpa using hmem)
    | lose =>
      obtain ⟨hmark, rfl⟩ := ih (by simpa using hmem)
      exact ⟨hmark, rfl⟩
    | @interrupt flight rest ledger time htime =>
      rcases List.mem_append.mp hmem with hmem | hnew
      · cases (ih hmem).2
      · obtain rfl : mark = max ledger.now time := by simpa using hnew
        exact ⟨by rw [Nat.max_eq_right (Reaches.now_le hreach htime), htime], rfl⟩

/-! ## A run that closes -/

theorem Closes.result_eq_error_iff (hclose : Closes uploads options st run) {error : Error} :
    run.result = .error error ↔ st.phase = .failed error := by
  cases hclose with
  | done | drained | expired => exact iff_of_false nofun nofun
  | failed => simp

/-- Where a run closes without a failure the uploads in flight are due after the interrupt. -/
theorem Closes.le_of_mem_flights (hclose : Closes uploads options st run)
    (h : Reaches uploads options interrupt (.start uploads) st)
    (hphase : ∀ error, st.phase ≠ .failed error) (hflight : flight ∈ st.flights) :
    ∃ limit, interrupt = some limit ∧ limit ≤ flight.finish := by
  have hfits := h.fits
  cases hclose with
  | done | drained => cases hflight
  | expired =>
    obtain ⟨-, limit, hlimit, hlate⟩ := hfits
    exact ⟨limit, hlimit, hlate flight hflight⟩
  | @failed error => exact absurd rfl (hphase error)

/-- A run that closes has failed if and only if an upload that it started is due to panic before the
interrupt. -/
theorem Closes.fails_iff (hclose : Closes uploads options st run)
    (h : Reaches uploads options interrupt (.start uploads) st) :
    (∃ error, run.result = .error error) ↔ ∃ (flight : Flight TransferEnd) (text : String),
      flight.Launched uploads st.ledger.moments ∧ flight.work = .panicked text ∧
        ∀ limit, interrupt = some limit → flight.finish < limit := by
  constructor
  · rintro ⟨error, herror⟩
    obtain ⟨flight, rest, ledger, text, hreach, hwait, hpanic, -, hledger⟩ :=
      h.of_failed (hclose.result_eq_error_iff.mp herror)
    refine ⟨flight, text, ?_, hpanic, hwait⟩
    rw [hledger]
    exact (hreach.launched flight (.head _)).concat _
  · rintro ⟨flight, text, hlaunched, hpanic, hearly⟩
    by_contra hnone
    have hphase : ∀ error, st.phase ≠ .failed error := fun error herror =>
      hnone ⟨error, hclose.result_eq_error_iff.mpr herror⟩
    -- It has panicked or is in flight, and either way no sooner than the interrupt.
    obtain ⟨limit, hlimit, hlate⟩ : ∃ limit, interrupt = some limit ∧ limit ≤ flight.finish := by
      rcases h.ended_or_inFlight hlaunched with hended | hflying
      · rw [Flight.ending_of_panicked hpanic] at hended
        exact h.le_of_panicked hphase hended
      · exact hclose.le_of_mem_flights h hphase hflying
    exact absurd (hearly limit hlimit) (Nat.not_lt.mpr hlate)

/-- After the interrupt a run closes with a report, and what is due before the deadline has
ended. -/
theorem Closes.survives (hclose : Closes uploads options st run)
    (h : Reaches uploads options interrupt (.start uploads) st) {deadline : Nat}
    (hphase : st.phase = .grace deadline) :
    (∃ report, run.result = .ok report ∧ report.interrupted = true) ∧
      ∀ flight : Flight TransferEnd, flight.Launched uploads st.ledger.moments →
        flight.finish < deadline → flight.ending ∈ st.ledger.moments := by
  have hended : ∀ flight : Flight TransferEnd, flight.Launched uploads st.ledger.moments →
      flight.ending ∈ st.ledger.moments ∨ flight ∈ st.flights := fun _ => h.ended_or_inFlight
  have hsorted := h.sorted
  cases hclose with
  | done | failed => cases hphase
  | drained =>
    exact ⟨⟨_, rfl, rfl⟩, fun flight hlaunched _ => (hended flight hlaunched).resolve_right nofun⟩
  | @expired _ first rest ledger hlate =>
    obtain rfl := Phase.grace.inj hphase
    refine ⟨⟨_, rfl, rfl⟩, ?_⟩
    intro flight hlaunched hearly
    apply (hended flight hlaunched).resolve_right
    -- What is in flight is due no sooner than the first of it, which is late.
    intro hflying
    rcases List.mem_cons.mp hflying with rfl | hflying
    · exact absurd hearly (Nat.not_lt.mpr hlate)
    · exact absurd (Nat.lt_of_le_of_lt (List.rel_of_pairwise_cons hsorted hflying) hearly)
        (Nat.not_lt.mpr hlate)

end Pool

/-- Every run fails because no threads were asked for, or because an upload that it started is due
to panic before the interrupt, and for no other reason. -/
theorem runUploads_fails {σ : Type} (start : UploadFile → StateM σ Transfer)
    (options : PoolOptions) (interrupt : Option Nat) (plan : List UploadFile) (state : σ) :
    ((runUploads start options interrupt plan).run state).1.FailsByPanic
      (roster start plan state) options interrupt := by
  by_cases hthreads : options.threads = 0
  · rw [runUploads_eq, if_pos hthreads]
    exact ⟨fun _ => ⟨rfl, rfl⟩, iff_of_true ⟨_, rfl⟩ (.inl hthreads),
      fun hsome => absurd hthreads hsome, fun _ hmark => absurd hmark List.not_mem_nil⟩
  obtain ⟨final, hreach, hclose⟩ := runUploads_reaches start options interrupt plan state hthreads
  have hmoments := hclose.moments_eq
  constructor
  case refused => exact fun hzero => absurd hzero hthreads
  case fails_iff =>
    rw [hmoments, hclose.fails_iff hreach]
    exact (or_iff_right hthreads).symm
  case ends_with_panic =>
    intro _ error herror
    obtain ⟨flight, rest, ledger, text, hwaiting, hearly, hpanic, hfailure, hledger⟩ :=
      hreach.of_failed (hclose.result_eq_error_iff.mp herror)
    obtain ⟨hcalm, hfree, -⟩ := hwaiting.fits
    refine ⟨ledger.moments, flight, text, ?_, hwaiting.launched flight (.head _), hpanic,
      hearly, hfailure, hcalm, hfree⟩
    rw [hmoments, hledger, Ledger.lose_moments]
  case survives =>
    intro mark hmark
    rw [hmoments] at hmark ⊢
    obtain ⟨hinterrupt, hphase⟩ := hreach.of_interrupted hmark
    exact ⟨hinterrupt, hclose.survives hreach hphase⟩

/-- An upload panics on one of two threads, with failures ignored. Without an interrupt that ends
the run; after one the upload beside it still ends, and the run is reported. -/
example :
    let plan : List UploadFile := [⟨"a", "to/a", 8⟩, ⟨"b", "to/b", 7⟩, ⟨"c", "to/c", 6⟩]
    let transfers : List Transfer := [⟨20, .written 8⟩, ⟨10, .panicked "no such part"⟩,
      ⟨5, .written 6⟩]
    let start : UploadFile → StateM (List Transfer) Transfer :=
      fun _ left => (left.headD ⟨0, .written 0⟩, left.tail)
    let run := fun interrupt => ((runUploads start ⟨2, true, 100⟩ interrupt plan).run transfers).1
    (run none).result = .error (.other "worker task failed: no such part") ∧
      (run none).moments = [.submitted 0 0 "to/a", .submitted 0 1 "to/b", .panicked 10 1 "to/b"] ∧
      (run (some 5)).moments = [.submitted 0 0 "to/a", .submitted 0 1 "to/b", .interrupted 5,
        .panicked 10 1 "to/b", .completed 20 0 "to/a" (.ok 8)] :=
  ⟨rfl, rfl, rfl⟩

end BucketCare

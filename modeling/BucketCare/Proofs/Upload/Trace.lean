import BucketCare.Proofs.Upload.Accounting

/-!
# The order of what happens in a run

Whatever the uploads of a run do and whenever it is interrupted, its moments keep some rules: the
files are submitted in the order of the plan, each upload ends once and after it was submitted, no
more uploads are in flight than there are threads, and nothing is submitted after a failure that
stops the run, after the interrupt took effect or after an upload panicked.

An interrupt takes effect at the first wait at or after its time. A wait is over when an upload
ends, so the interrupt has taken effect before an upload ends if and only if it comes no later than
that end; and since time passes in waits alone, nothing but the uploads that are submitted before
the first wait is submitted at its time or later.

## Main definitions

* `Moment.ending?` — the end of an upload
* `Lawful` — the rules that the moments of a run keep

## Main results

* `Pool.Reaches.of_submitted`, `Pool.Reaches.of_ending` — where a run stands before an upload is
  submitted, and before one ends
* `Pool.Reaches.submissions_eq_nil` — what ends the submissions of a run
* `runUploads_lawful` — the moments of every run keep the rules
-/

namespace BucketCare

/-- The end of an upload: its time, the place and the key, and the result unless it panicked. -/
def Moment.ending? : Moment → Option (Nat × (Nat × String) × Option (Except Error UInt64))
  | .completed time place key result => some (time, (place, key), some result)
  | .panicked time place key => some (time, (place, key), none)
  | _ => none

/-- The rules that the moments of a run keep. What an observer sees of a run are its submitted and
its completed moments. -/
structure Lawful (uploads : List (UploadFile × Transfer)) (options : PoolOptions)
    (interrupt : Option Nat) (moments : List Moment) : Prop where
  /-- The submitted uploads are the first of the plan, in its order. -/
  submissions_prefix : submissions moments <+: numbered uploads
  /-- Each upload ends at most once, with a result or without one. -/
  endings_nodup : ((completions moments ++ losses moments).map Prod.fst).Nodup
  /-- An upload ends after it was submitted, as long after it and in such a way as its transfer
  says. -/
  ending_as_assigned : ∀ before moment after time place key result,
    moments = before ++ moment :: after → moment.ending? = some (time, (place, key), result) →
      ∃ began file transfer, uploads[place]? = some (file, transfer) ∧ key = file.key ∧
        .submitted began place key ∈ before ∧ time = began + transfer.milliseconds ∧
        result = transfer.outcome.result?
  /-- At every point no more uploads are submitted and not completed than there are threads. -/
  in_flight_le : ∀ before after, moments = before ++ after →
    (submissions before).length ≤ (completions before).length + options.threads
  /-- Nothing is submitted after a failure, unless failures are ignored. -/
  stops_after_failure : options.ignoreFailures = false → ∀ before time place key error after,
    moments = before ++ .completed time place key (.error error) :: after → submissions after = []
  /-- Nothing is submitted after the interrupt took effect. -/
  stops_after_interrupt : ∀ before time after,
    moments = before ++ .interrupted time :: after → submissions after = []
  /-- Nothing is submitted after an upload panicked. -/
  stops_after_panic : ∀ before time place key after,
    moments = before ++ .panicked time place key :: after → submissions after = []
  /-- The interrupt has taken effect before an upload ends if and only if it comes no later. -/
  interrupted_iff : ∀ before moment after time label result, moments = before ++ moment :: after →
    moment.ending? = some (time, label, result) →
      ((∃ mark, .interrupted mark ∈ before) ↔ ∃ limit, interrupt = some limit ∧ limit ≤ time)
  /-- What is not submitted at the start is submitted before the time of the interrupt. -/
  submitted_early : ∀ time place key limit, .submitted time place key ∈ moments →
    interrupt = some limit → time = 0 ∨ time < limit

namespace Pool

variable {uploads : List (UploadFile × Transfer)} {options : PoolOptions} {interrupt : Option Nat}
variable {final : Standing} {before after : List Moment}

/-- Before an upload is submitted the run waits for room, and no failure has stopped it. -/
theorem Reaches.of_submitted {time place : Nat} {key : String}
    (h : Reaches uploads options interrupt (.start uploads) final)
    (hsplit : final.ledger.moments = before ++ .submitted time place key :: after) :
    ∃ flights ledger, Reaches uploads options interrupt (.start uploads)
        ⟨.running, flights, ledger⟩ ∧ ledger.moments = before ∧
      ledger.halted options.ignoreFailures = false ∧ ledger.now = time := by
  obtain ⟨st, st', hreach, hstep, rfl, hafter⟩ := exists_step h hsplit
  cases hstep with
  | submit _ _ hgo =>
    obtain ⟨htime, -⟩ : _ = time ∧ _ := by simpa using hafter
    exact ⟨_, _, hreach, rfl, hgo, htime⟩
  | complete | lose | interrupt => simp at hafter

/-- Before an upload ends the run waits for it, and it is the one in flight that ends first. -/
theorem Reaches.of_ending {moment : Moment} {time : Nat} {label : Nat × String}
    {result : Option (Except Error UInt64)}
    (h : Reaches uploads options interrupt (.start uploads) final)
    (hsplit : final.ledger.moments = before ++ moment :: after)
    (hend : moment.ending? = some (time, label, result)) :
    ∃ phase flight rest ledger, Reaches uploads options interrupt (.start uploads)
        ⟨phase, flight :: rest, ledger⟩ ∧ ledger.moments = before ∧
      phase.Awaits interrupt time ∧ flight.finish = time ∧ flight.label = label ∧
      flight.work.result? = result := by
  obtain ⟨st, st', hreach, hstep, rfl, hafter⟩ := exists_step h hsplit
  cases hstep with
  | submit | interrupt =>
    obtain rfl := List.singleton_inj.mp (List.append_cancel_left hafter)
    simp [Moment.ending?] at hend
  | @complete phase flight rest ledger _ hwait hresult =>
    obtain rfl := List.singleton_inj.mp (List.append_cancel_left hafter)
    obtain ⟨rfl, rfl, rfl⟩ : flight.finish = time ∧ flight.label = label ∧ some _ = result := by
      simpa [Moment.ending?, Flight.label] using hend
    exact ⟨phase, flight, rest, ledger, hreach, rfl, hwait, rfl, rfl, hresult⟩
  | @lose phase flight rest ledger _ hwait hpanic =>
    obtain rfl := List.singleton_inj.mp (List.append_cancel_left hafter)
    obtain ⟨rfl, rfl, rfl⟩ : flight.finish = time ∧ flight.label = label ∧ none = result := by
      simpa [Moment.ending?, Flight.label] using hend
    have hresult : flight.work.result? = none := by rw [hpanic]; rfl
    exact ⟨phase, flight, rest, ledger, hreach, rfl, hwait, rfl, rfl, hresult⟩

/-- Nothing is submitted after a moment that no run has behind it that may submit. -/
theorem Reaches.submissions_eq_nil {moment : Moment}
    (h : Reaches uploads options interrupt (.start uploads) final)
    (hsplit : final.ledger.moments = before ++ moment :: after)
    (hstop : ∀ flights ledger, Reaches uploads options interrupt (.start uploads)
        ⟨.running, flights, ledger⟩ → ledger.halted options.ignoreFailures = false →
      moment ∉ ledger.moments) : submissions after = [] := by
  apply List.filterMap_eq_nil_iff.mpr
  intro next hnext
  cases next with
  | completed | panicked | interrupted => rfl
  | submitted time place key =>
    -- A later submission would have the moment behind it, in a run that may submit.
    obtain ⟨between, rest, rfl⟩ := List.append_of_mem hnext
    rw [← List.cons_append, ← List.append_assoc] at hsplit
    obtain ⟨flights, ledger, hreach, hbefore, hgo, -⟩ := h.of_submitted hsplit
    apply absurd _ (hstop flights ledger hreach hgo)
    rw [hbefore]
    exact List.mem_append_right _ (.head _)

/-- A run that may submit has seen no failure, unless failures are ignored. -/
theorem Reaches.not_mem_failed {flights : List (Flight TransferEnd)} {ledger : Ledger}
    {time place : Nat} {key : String} {error : Error}
    (h : Reaches uploads options interrupt (.start uploads) ⟨.running, flights, ledger⟩)
    (hgo : ledger.halted options.ignoreFailures = false)
    (hstrict : options.ignoreFailures = false) :
    .completed time place key (.error error) ∉ ledger.moments := by
  intro hmem
  -- The report would tell the failure, or one that was seen before it.
  have hnone : ledger.report.firstFailure = none := by simpa [Ledger.halted, hstrict] using hgo
  have hevent : UploadEvent.completed time key (.error error) ∈
      ledger.moments.filterMap Moment.event? := List.mem_filterMap.mpr ⟨_, hmem, rfl⟩
  have hfree := List.findSome?_eq_none_iff.mp (h.counts.1.firstFailure_eq.symm.trans hnone)
  simpa using hfree _ hevent

theorem Reaches.endings_nodup (h : Reaches uploads options interrupt (.start uploads) final) :
    ((completions final.ledger.moments ++ losses final.ledger.moments).map Prod.fst).Nodup := by
  have hplaces : ((numbered uploads).map Prod.fst).Nodup := by
    rw [map_fst_numbered]
    exact List.nodup_range
  have hall := h.nodup_map hplaces
  rw [List.map_append, ← List.append_assoc, ← List.map_append] at hall
  exact hall.of_append_left

theorem Reaches.in_flight_le (h : Reaches uploads options interrupt (.start uploads) final) :
    (submissions final.ledger.moments).length ≤
      (completions final.ledger.moments).length + options.threads := by
  -- Those submitted without a result have panicked or are in flight.
  have hall := h.submissions_perm.length_eq
  have hroom := h.losses_add_flights_le
  simp only [List.length_append, List.length_map] at hall
  omega

theorem Reaches.interrupted_iff {moment : Moment} {time : Nat} {label : Nat × String}
    {result : Option (Except Error UInt64)}
    (h : Reaches uploads options interrupt (.start uploads) final)
    (hsplit : final.ledger.moments = before ++ moment :: after)
    (hend : moment.ending? = some (time, label, result)) :
    (∃ mark, .interrupted mark ∈ before) ↔ ∃ limit, interrupt = some limit ∧ limit ≤ time := by
  obtain ⟨phase, flight, rest, ledger, hreach, rfl, hwait, rfl, -, -⟩ := h.of_ending hsplit hend
  have hfits := hreach.fits
  cases phase with
  | running =>
    refine ⟨fun ⟨mark, hmark⟩ => absurd hmark (hfits.2.1 mark), ?_⟩
    rintro ⟨limit, hlimit, hle⟩
    exact absurd (hwait limit hlimit) (Nat.not_lt.mpr hle)
  | grace deadline =>
    obtain ⟨hmark, limit, hlimit, hlate⟩ := hfits
    exact iff_of_true hmark ⟨limit, hlimit, hlate flight (.head _)⟩
  | failed error => exact hwait.elim

/-- The moments of a run keep the rules wherever it gets. -/
theorem Reaches.lawful (h : Reaches uploads options interrupt (.start uploads) final) :
    Lawful uploads options interrupt final.ledger.moments where
  submissions_prefix := h.submissions_eq.2 ▸ List.take_prefix _ _
  endings_nodup := h.endings_nodup
  ending_as_assigned before moment after time place key result hsplit hend := by
    obtain ⟨phase, flight, rest, ledger, hreach, rfl, -, rfl, hlabel, rfl⟩ :=
      h.of_ending hsplit hend
    obtain ⟨rfl, rfl⟩ := Prod.mk.inj hlabel
    obtain ⟨began, file, transfer, hroster, hbegan, hkey, hfinish, houtcome⟩ :=
      hreach.launched flight (.head _)
    exact ⟨began, file, transfer, hroster, hkey, hkey ▸ hbegan, hfinish, by rw [houtcome]⟩
  in_flight_le before after hsplit := by
    obtain ⟨st, hreach, rfl⟩ := exists_reaches h hsplit
    exact hreach.in_flight_le
  stops_after_failure hstrict before time place key error after hsplit := by
    apply h.submissions_eq_nil hsplit
    intro flights ledger hreach hgo
    exact hreach.not_mem_failed hgo hstrict
  stops_after_interrupt before time after hsplit := by
    apply h.submissions_eq_nil hsplit
    intro flights ledger hreach hgo
    exact hreach.fits.2.1 time
  stops_after_panic before time place key after hsplit := by
    apply h.submissions_eq_nil hsplit
    intro flights ledger hreach hgo hmem
    have hnone := List.filterMap_eq_nil_iff.mp hreach.fits.1 _ hmem
    cases hnone
  interrupted_iff before moment after time label result := h.interrupted_iff
  submitted_early time place key limit hmem hlimit := by
    obtain ⟨before, after, hsplit⟩ := List.append_of_mem hmem
    obtain ⟨flights, ledger, hreach, -, -, rfl⟩ := h.of_submitted hsplit
    exact hreach.fits.2.2 limit hlimit

end Pool

/-- The moments of every run keep the rules, for every plan, number of threads, time and result of
each upload, and time of an interrupt. -/
theorem runUploads_lawful {σ : Type} (start : UploadFile → StateM σ Transfer)
    (options : PoolOptions) (interrupt : Option Nat) (plan : List UploadFile) (state : σ) :
    Lawful (roster start plan state) options interrupt
      ((runUploads start options interrupt plan).run state).1.moments := by
  by_cases hthreads : options.threads = 0
  · rw [runUploads_eq, if_pos hthreads]
    exact Pool.Reaches.lawful .refl
  · obtain ⟨final, hreach, hclose⟩ :=
      runUploads_reaches start options interrupt plan state hthreads
    rw [hclose.moments_eq]
    exact hreach.lawful

end BucketCare

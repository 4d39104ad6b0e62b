import BucketCare.Proofs.Upload.Trace

/-!
# What a report of success is worth

The report of a run passes for a success when the run was not interrupted and no failure was seen.
When no upload panics that is the case if and only if every file of the plan was submitted and its
upload succeeded: a run that was cut short by a failure or by an interrupt is no success, and no
file is left out of one that is. When failures are ignored, and without an interrupt, every file is
submitted and its upload ends, whatever fails.

## Main definitions

* `TransferEnd.fails` — an upload ends with a failure
* `AllWritten` — every file of a roster was submitted and written
* `UploadReport.Vouches` — what the report of a run says about its uploads

## Main results

* `Pool.Reaches.losses_eq_nil` — where no upload panics none is lost, and no run fails
* `Pool.Closes.vouches` — a report passes when every file was written
* `runUploads_vouches` — the report of every run without panics can be relied on
-/

namespace BucketCare

/-- An upload ends with a failure. -/
def TransferEnd.fails : TransferEnd → Bool
  | .failed _ => true
  | _ => false

theorem TransferEnd.fails_iff {outcome : TransferEnd} {result : Except Error UInt64}
    (h : outcome.result? = some result) :
    outcome.fails = true ↔ ∃ error, result = .error error := by
  cases outcome with
  | written bytes =>
    obtain rfl := Option.some.inj h
    exact iff_of_false nofun nofun
  | failed error =>
    obtain rfl := Option.some.inj h
    exact iff_of_true rfl ⟨error, rfl⟩
  | panicked text => cases h

/-- No upload of a roster panics. -/
def Calm (uploads : List (UploadFile × Transfer)) : Prop :=
  ∀ entry ∈ uploads, ∀ text, entry.2.outcome ≠ .panicked text

/-- Every file of a roster was submitted, in its order, and its upload succeeded. -/
def AllWritten (uploads : List (UploadFile × Transfer)) (moments : List Moment) : Prop :=
  submissions moments = numbered uploads ∧
    ∀ place file transfer, uploads[place]? = some (file, transfer) →
      ∃ time bytes, transfer.outcome = .written bytes ∧
        .completed time place file.key (.ok bytes) ∈ moments

namespace UploadReport

variable {report : UploadReport} {planned : Nat} {events : List UploadEvent}

theorem toResult_false_eq_ok_iff : report.toResult false = .ok report ↔
    report.interrupted = false ∧ report.firstFailure = none := by
  unfold toResult
  cases report.interrupted <;> cases report.firstFailure <;> simp

theorem toResult_true_eq_ok_iff :
    report.toResult true = .ok report ↔ report.interrupted = false := by
  unfold toResult
  cases report.interrupted <;> cases report.firstFailure <;> simp

/-- No failure is told if and only if none is counted. -/
theorem Counts.firstFailure_eq_none_iff (h : report.Counts planned events) :
    report.firstFailure = none ↔ report.failed = 0 := by
  rw [h.firstFailure_eq, h.failed_eq, List.findSome?_eq_none_iff, List.length_eq_zero_iff,
    List.filterMap_eq_nil_iff]

/-- What the report of a run says about its uploads. -/
structure Vouches (uploads : List (UploadFile × Transfer)) (options : PoolOptions)
    (interrupt : Option Nat) (moments : List Moment) (report : UploadReport) : Prop where
  planned_eq : report.planned = uploads.length
  /-- The report passes if and only if no interrupt took effect and every file was written. -/
  passes_iff : report.toResult false = .ok report ↔
    (∀ time, .interrupted time ∉ moments) ∧ AllWritten uploads moments
  /-- The totals say the same. -/
  passes_iff_totals : report.toResult false = .ok report ↔
    report.interrupted = false ∧ report.submitted = report.planned ∧
      report.succeeded = report.planned ∧ report.failed = 0
  /-- When failures are ignored and there is no interrupt, every file is submitted once and its
  upload ends, the report counts those that fail, and it passes. -/
  ignoring : interrupt = none → options.ignoreFailures = true →
    submissions moments = numbered uploads ∧ (completions moments).Perm (numbered uploads) ∧
      report.failed = uploads.countP (·.2.outcome.fails) ∧ report.toResult true = .ok report

end UploadReport

theorem length_numbered (uploads : List (UploadFile × Transfer)) :
    (numbered uploads).length = uploads.length := by
  simp [numbered]

/-- The failing uploads among those that are numbered are the failing ones of the roster. -/
theorem countP_numbered (uploads : List (UploadFile × Transfer))
    (p : UploadFile × Transfer → Bool) :
    (numbered uploads).countP (fun label => (uploads[label.1]?).any p) = uploads.countP p := by
  have hplace : ∀ entry ∈ uploads.zipIdx, uploads[entry.2]? = some entry.1 := by
    intro entry hmem
    simpa using List.mem_zipIdx_iff_getElem?.mp hmem
  calc (numbered uploads).countP (fun label => (uploads[label.1]?).any p)
      = uploads.zipIdx.countP (fun entry => (uploads[entry.2]?).any p) := by
        rw [numbered, List.countP_map]
        rfl
    _ = uploads.zipIdx.countP (p ∘ Prod.fst) := by
        apply List.countP_congr
        intro entry hmem
        simp [hplace entry hmem]
    _ = uploads.countP p := by rw [← List.countP_map, List.zipIdx_map_fst]

namespace Pool

variable {uploads : List (UploadFile × Transfer)} {options : PoolOptions} {interrupt : Option Nat}
variable {st : Standing} {run : UploadRun} {report : UploadReport}

/-- Where no upload panics none is lost, and no run fails. -/
theorem Reaches.losses_eq_nil (hcalm : Calm uploads)
    (h : Reaches uploads options interrupt (.start uploads) st) :
    losses st.ledger.moments = [] ∧ ∀ error, st.phase ≠ .failed error := by
  induction h with
  | refl => exact ⟨rfl, nofun⟩
  | tail hreach hstep ih =>
    cases hstep with
    | submit | complete => simpa using ih
    | interrupt => exact ⟨by simpa using ih.1, nofun⟩
    | @lose _ flight _ _ text _ hend =>
      -- An upload that panics would do so in the roster.
      obtain ⟨-, file, transfer, hroster, -, -, -, houtcome⟩ :=
        Reaches.launched hreach flight (.head _)
      exact absurd (houtcome.symm.trans hend) (hcalm _ (List.mem_of_getElem? hroster) text)

/-- A run that does not fail ends with a report, which says whether an interrupt took effect. -/
theorem Closes.exists_report (hclose : Closes uploads options st run)
    (h : Reaches uploads options interrupt (.start uploads) st)
    (hphase : ∀ error, st.phase ≠ .failed error) :
    ∃ report, run.result = .ok report ∧
      report.Counts uploads.length (st.ledger.moments.filterMap Moment.event?) ∧
      (report.interrupted = true ↔ ∃ time, .interrupted time ∈ st.ledger.moments) := by
  obtain ⟨hcounts, hinterrupted, -⟩ := h.counts
  have hfits := h.fits
  cases hclose with
  | @done ledger =>
    refine ⟨_, rfl, hcounts.close, ?_⟩
    change ledger.report.interrupted = true ↔ _
    rw [show ledger.report.interrupted = false from hinterrupted]
    exact iff_of_false nofun fun ⟨time, hmem⟩ => hfits.2.1 time hmem
  | drained => exact ⟨_, rfl, hcounts.abandon, iff_of_true rfl hfits.1⟩
  | expired => exact ⟨_, rfl, UploadReport.Counts.abandon hcounts, iff_of_true rfl hfits.1⟩
  | @failed error => exact absurd rfl (hphase error)

/-- In a run that no interrupt and no failure stopped every file was submitted, and where no upload
panics every upload ended with a result. -/
theorem Closes.all_ended (hclose : Closes uploads options st run)
    (h : Reaches uploads options interrupt (.start uploads) st) (hcalm : Calm uploads)
    (hfree : ∀ time, .interrupted time ∉ st.ledger.moments)
    (hgo : st.ledger.halted options.ignoreFailures = false) :
    submissions st.ledger.moments = numbered uploads ∧
      (completions st.ledger.moments).Perm (numbered uploads) := by
  obtain ⟨hlosses, hphase⟩ := h.losses_eq_nil hcalm
  have hfits := h.fits
  cases hclose with
  | @done ledger hstop =>
    have hlength : (numbered uploads).length ≤ ledger.report.submitted := by
      rw [length_numbered]
      exact hstop.resolve_left (Bool.eq_false_iff.mp hgo)
    have hall : submissions ledger.moments = numbered uploads :=
      h.submissions_eq.2.trans (List.take_of_length_le hlength)
    refine ⟨hall, ?_⟩
    simpa [hlosses, hall] using h.submissions_perm.symm
  | drained | expired =>
    obtain ⟨time, hmark⟩ := hfits.1
    exact absurd hmark (hfree time)
  | @failed error => exact absurd rfl (hphase error)

/-- An upload that ends with a result does so as the roster says. -/
theorem Reaches.result_eq (h : Reaches uploads options interrupt (.start uploads) st)
    {time place : Nat} {key : String} {result : Except Error UInt64}
    (hmem : .completed time place key result ∈ st.ledger.moments) :
    ∃ file transfer, uploads[place]? = some (file, transfer) ∧ key = file.key ∧
      transfer.outcome.result? = some result := by
  obtain ⟨before, after, hsplit⟩ := List.append_of_mem hmem
  obtain ⟨-, file, transfer, hroster, hkey, -, -, hresult⟩ :=
    h.lawful.ending_as_assigned before _ after time place key (some result) hsplit rfl
  exact ⟨file, transfer, hroster, hkey, hresult.symm⟩

/-- The uploads that are seen to fail are those that ended and fail by the roster. -/
theorem Reaches.length_failures (h : Reaches uploads options interrupt (.start uploads) st) :
    ((st.ledger.moments.filterMap Moment.event?).filterMap UploadEvent.failure?).length =
      (completions st.ledger.moments).countP
        fun label => (uploads[label.1]?).any (·.2.outcome.fails) := by
  rw [completions, List.filterMap_filterMap, List.length_filterMap_eq_countP,
    List.countP_filterMap]
  apply List.countP_congr
  intro moment hmem
  cases moment with
  | submitted | panicked | interrupted => simp [Moment.event?]
  | completed time place key result =>
    obtain ⟨file, transfer, hroster, -, hresult⟩ := h.result_eq hmem
    have hfails := TransferEnd.fails_iff hresult
    cases result <;> simpa [Moment.event?, hroster] using hfails

/-- No upload is counted as failed if and only if none is seen to fail. -/
theorem Reaches.failed_eq_zero_iff
    (hcounts : report.Counts uploads.length (st.ledger.moments.filterMap Moment.event?)) :
    report.failed = 0 ↔ ∀ time place key error,
      .completed time place key (.error error) ∉ st.ledger.moments := by
  rw [hcounts.failed_eq, List.length_eq_zero_iff, List.filterMap_eq_nil_iff]
  constructor
  · intro hnone time place key error hmem
    have hevent : UploadEvent.completed time key (.error error) ∈
        st.ledger.moments.filterMap Moment.event? := List.mem_filterMap.mpr ⟨_, hmem, rfl⟩
    simpa using hnone _ hevent
  · intro hnone event hevent
    obtain ⟨moment, hmem, hmoment⟩ := List.mem_filterMap.mp hevent
    cases moment with
    | panicked | interrupted => cases hmoment
    | submitted =>
      obtain rfl := Option.some.inj hmoment
      rfl
    | completed time place key result =>
      obtain rfl := Option.some.inj hmoment
      cases result with
      | ok bytes => rfl
      | error error => exact absurd hmem (hnone time place key error)

/-- When every file was submitted, all uploads ended and none of them failed, every file was
written. -/
theorem Reaches.allWritten (h : Reaches uploads options interrupt (.start uploads) st)
    (hall : submissions st.ledger.moments = numbered uploads)
    (hended : (completions st.ledger.moments).Perm (numbered uploads))
    (hnone : ∀ time place key error,
      .completed time place key (.error error) ∉ st.ledger.moments) :
    AllWritten uploads st.ledger.moments := by
  refine ⟨hall, ?_⟩
  intro place file transfer hroster
  have hlabel : (place, file.key) ∈ completions st.ledger.moments :=
    hended.mem_iff.mpr (List.mem_of_getElem? (getElem?_numbered hroster))
  obtain ⟨moment, hmem, hmoment⟩ := List.mem_filterMap.mp hlabel
  cases moment with
  | submitted | panicked | interrupted => cases hmoment
  | completed time place' key result =>
    obtain ⟨rfl, rfl⟩ : place' = place ∧ key = file.key := by simpa using hmoment
    obtain ⟨file', transfer', hroster', -, hresult⟩ := h.result_eq hmem
    obtain ⟨rfl, rfl⟩ : file = file' ∧ transfer = transfer' := by
      simpa using hroster.symm.trans hroster'
    cases result with
    | error error => exact absurd hmem (hnone _ _ _ error)
    | ok bytes =>
      refine ⟨time, bytes, ?_, hmem⟩
      cases houtcome : transfer.outcome <;> simp_all [TransferEnd.result?]

/-- Files that were all written did not fail. -/
theorem Reaches.not_mem_error (h : Reaches uploads options interrupt (.start uploads) st)
    (hwritten : AllWritten uploads st.ledger.moments) (time place : Nat) (key : String)
    (error : Error) : .completed time place key (.error error) ∉ st.ledger.moments := by
  intro hmem
  obtain ⟨file, transfer, hroster, -, hresult⟩ := h.result_eq hmem
  obtain ⟨-, bytes, houtcome, -⟩ := hwritten.2 place file transfer hroster
  rw [houtcome] at hresult
  cases hresult

/-- The report of a run that closes can be relied on, where no upload panics. -/
theorem Closes.vouches (hclose : Closes uploads options st run)
    (h : Reaches uploads options interrupt (.start uploads) st) (hcalm : Calm uploads)
    (hcounts : report.Counts uploads.length (st.ledger.moments.filterMap Moment.event?))
    (hmark : report.interrupted = true ↔ ∃ time, .interrupted time ∈ st.ledger.moments) :
    report.Vouches uploads options interrupt st.ledger.moments := by
  have hfree : report.interrupted = false ↔ ∀ time, .interrupted time ∉ st.ledger.moments := by
    rw [← Bool.not_eq_true, hmark, not_exists]
  have hfailure : st.ledger.report.firstFailure = report.firstFailure :=
    h.counts.1.firstFailure_eq.trans hcounts.firstFailure_eq.symm
  -- A report passes if and only if no interrupt took effect and no upload failed.
  have hpasses : report.toResult false = .ok report ↔
      report.interrupted = false ∧ report.failed = 0 := by
    rw [UploadReport.toResult_false_eq_ok_iff, hcounts.firstFailure_eq_none_iff]
  have hended (hpass : report.interrupted = false ∧ report.failed = 0) :
      submissions st.ledger.moments = numbered uploads ∧
        (completions st.ledger.moments).Perm (numbered uploads) := by
    apply hclose.all_ended h hcalm (hfree.mp hpass.1)
    simp [Ledger.halted, hfailure, hcounts.firstFailure_eq_none_iff.mpr hpass.2]
  constructor
  case planned_eq => exact hcounts.planned_eq
  case passes_iff =>
    rw [hpasses]
    constructor
    · intro hpass
      obtain ⟨hall, hperm⟩ := hended hpass
      exact ⟨hfree.mp hpass.1,
        h.allWritten hall hperm ((Reaches.failed_eq_zero_iff hcounts).mp hpass.2)⟩
    · rintro ⟨hnone, hwritten⟩
      exact ⟨hfree.mpr hnone, (Reaches.failed_eq_zero_iff hcounts).mpr (h.not_mem_error hwritten)⟩
  case passes_iff_totals =>
    rw [hpasses]
    constructor
    · intro hpass
      obtain ⟨hall, hperm⟩ := hended hpass
      have hsubmitted : report.submitted = report.planned := by
        rw [hcounts.submitted_eq, UploadEvent.filterMap_submittedKey, hall, List.length_map,
          length_numbered, hcounts.planned_eq]
      have htotal : report.succeeded + report.failed = report.planned := by
        rw [hcounts.succeeded_eq, hcounts.failed_eq, ← UploadEvent.length_completions,
          hperm.length_eq, length_numbered, hcounts.planned_eq]
      exact ⟨hpass.1, hsubmitted, by omega, hpass.2⟩
    · rintro ⟨hfree, -, -, hnone⟩
      exact ⟨hfree, hnone⟩
  case ignoring =>
    rintro rfl hignore
    have hnone := h.not_mem_interrupted (h.losses_eq_nil hcalm).1
    obtain ⟨hall, hperm⟩ := hclose.all_ended h hcalm hnone (by simp [Ledger.halted, hignore])
    refine ⟨hall, hperm, ?_, UploadReport.toResult_true_eq_ok_iff.mpr (hfree.mpr hnone)⟩
    rw [hcounts.failed_eq, h.length_failures, hperm.countP_eq, countP_numbered]

end Pool

/-- The report of every run without panics can be relied on: it passes exactly when every file was
submitted and written, and when failures are ignored nothing but an interrupt keeps a file from
being submitted. -/
theorem runUploads_vouches {σ : Type} (start : UploadFile → StateM σ Transfer)
    (options : PoolOptions) (interrupt : Option Nat) (plan : List UploadFile) (state : σ)
    (hthreads : 1 ≤ options.threads) (hcalm : Calm (roster start plan state)) :
    let run := ((runUploads start options interrupt plan).run state).1
    ∃ report, run.result = .ok report ∧
      report.Vouches (roster start plan state) options interrupt run.moments := by
  intro run
  obtain ⟨final, hreach, hclose⟩ :=
    runUploads_reaches start options interrupt plan state (Nat.ne_of_gt hthreads)
  obtain ⟨report, hreport, hcounts, hmark⟩ :=
    hclose.exists_report hreach (hreach.losses_eq_nil hcalm).2
  refine ⟨report, hreport, ?_⟩
  rw [show run.moments = final.ledger.moments from hclose.moments_eq]
  exact hclose.vouches hreach hcalm hcounts hmark

/-- One of three uploads fails and failures are ignored: all are submitted, and the report passes
for a success only then. -/
theorem runUploads_vouches_ignoring :
    let plan : List UploadFile := [⟨"a", "to/a", 8⟩, ⟨"b", "to/b", 7⟩, ⟨"c", "to/c", 6⟩]
    let transfers : List Transfer := [⟨10, .failed .timeout⟩, ⟨20, .written 7⟩, ⟨5, .written 6⟩]
    let start : UploadFile → StateM (List Transfer) Transfer :=
      fun _ left => (left.headD ⟨0, .written 0⟩, left.tail)
    let run := ((runUploads start ⟨2, true, 1000⟩ none plan).run transfers).1
    Calm (roster start plan transfers) ∧ ∃ report, run.result = .ok report ∧ report.failed = 1 ∧
      submissions run.moments = [(0, "to/a"), (1, "to/b"), (2, "to/c")] ∧
      report.toResult true = .ok report ∧ report.toResult false ≠ .ok report := by
  intro plan transfers start run
  have hcalm : Calm (roster start plan transfers) := by
    intro entry hmem text
    simp only [plan, transfers, start, roster, List.mem_cons, List.not_mem_nil] at hmem
    rcases hmem with rfl | rfl | rfl | hmem
    case inr.inr.inr => cases hmem
    all_goals exact TransferEnd.noConfusion
  obtain ⟨report, hreport, hvouches⟩ :=
    runUploads_vouches start ⟨2, true, 1000⟩ none plan transfers (by decide) hcalm
  obtain ⟨hall, -, hfailed, hpass⟩ := hvouches.ignoring rfl rfl
  refine ⟨hcalm, report, hreport, hfailed, hall, hpass, ?_⟩
  rw [Ne, hvouches.passes_iff_totals]
  rintro ⟨-, -, -, hnone⟩
  cases hfailed.symm.trans hnone

end BucketCare

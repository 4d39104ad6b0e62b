import BucketCare.Proofs.Text.Bytes
import BucketCare.Proofs.Upload.Moments
import Mathlib.Algebra.GroupWithZero.Nat
import Mathlib.Data.List.Nodup

/-!
# The report of a run agrees with its events

The report of a run is counted while the run goes on, in several places. Here it is told from the
events alone: how many uploads were submitted and ended, the bytes of those that succeeded, the
failure that was seen first, and the keys that are abandoned.

## Main definitions

* `UploadReport.Counts` — the totals of a report are those of some events
* `UploadReport.Accounts` — these, and no submitted upload is forgotten or told twice

## Main results

* `Pool.Reaches.counts` — the totals are right wherever a run gets
* `Pool.Reaches.running_perm` — the running keys are those of the uploads that have not ended with a
  result
* `runUploads_accounts` — the report of a run agrees with its events
-/

namespace BucketCare

namespace UploadEvent

/-- The key of an upload that is started. -/
@[simp] def submittedKey? : UploadEvent → Option String
  | .submitted _ key => some key
  | _ => none

/-- The key of an upload that ends. -/
@[simp] def completedKey? : UploadEvent → Option String
  | .completed _ key _ => some key
  | _ => none

/-- The bytes of an upload that succeeds. -/
@[simp] def bytes? : UploadEvent → Option UInt64
  | .completed _ _ (.ok bytes) => some bytes
  | _ => none

/-- The key of an upload that fails, and the text of its failure. -/
@[simp] def failure? : UploadEvent → Option (String × String)
  | .completed _ key (.error error) => some (key, error.message)
  | _ => none

/-- The bytes of the uploads that succeeded, in all. -/
def totalBytes (events : List UploadEvent) : Nat :=
  ((events.filterMap bytes?).map UInt64.toNat).sum

theorem totalBytes_append (events more : List UploadEvent) :
    totalBytes (events ++ more) = totalBytes events + totalBytes more := by
  rw [totalBytes, List.filterMap_append, List.map_append, List.sum_append]
  rfl

theorem filterMap_submittedKey (moments : List Moment) :
    (moments.filterMap Moment.event?).filterMap submittedKey? =
      (submissions moments).map Prod.snd := by
  rw [submissions, List.filterMap_filterMap, List.map_filterMap]
  congr 1
  funext moment
  cases moment <;> rfl

theorem filterMap_completedKey (moments : List Moment) :
    (moments.filterMap Moment.event?).filterMap completedKey? =
      (completions moments).map Prod.snd := by
  rw [completions, List.filterMap_filterMap, List.map_filterMap]
  congr 1
  funext moment
  cases moment <;> rfl

/-- Each upload that ends succeeded or failed. -/
theorem length_completions (moments : List Moment) :
    (completions moments).length =
      ((moments.filterMap Moment.event?).filterMap bytes?).length +
        ((moments.filterMap Moment.event?).filterMap failure?).length := by
  induction moments with
  | nil => rfl
  | cons moment moments ih =>
    unfold completions at ih ⊢
    cases moment with
    | submitted | panicked | interrupted =>
      simpa [Moment.event?, List.filterMap_cons] using ih
    | completed time place key result =>
      cases result <;> simp [Moment.event?, List.filterMap_cons, ih] <;> omega

end UploadEvent

namespace UploadReport

/-- The totals of a report are those of some events. -/
structure Counts (planned : Nat) (events : List UploadEvent) (report : UploadReport) : Prop where
  planned_eq : report.planned = planned
  submitted_eq : report.submitted = (events.filterMap UploadEvent.submittedKey?).length
  succeeded_eq : report.succeeded = (events.filterMap UploadEvent.bytes?).length
  failed_eq : report.failed = (events.filterMap UploadEvent.failure?).length
  /-- The bytes are those of the uploads that succeeded, as far as 64 bits can tell them. -/
  bytes_eq : report.bytes = .ofNat (UploadEvent.totalBytes events)
  /-- The failure is the one that was seen first. -/
  firstFailure_eq : report.firstFailure = events.findSome? UploadEvent.failure?

/-- The report of a run of a plan agrees with the events of the run. -/
structure Accounts (plan : List UploadFile) (events : List UploadEvent)
    (report : UploadReport) : Prop extends Counts plan.length events report where
  /-- So they are told exactly if 64 bits are enough. -/
  bytes_toNat : UploadEvent.totalBytes events < UInt64.size →
    report.bytes.toNat = UploadEvent.totalBytes events
  /-- The keys that are abandoned are in ascending order, each once. -/
  abandoned_sorted : report.abandoned.Pairwise (· < ·)
  /-- They are the keys that were submitted and did not end. -/
  mem_abandoned : ∀ key, key ∈ report.abandoned ↔
    key ∈ events.filterMap UploadEvent.submittedKey? ∧
      key ∉ events.filterMap UploadEvent.completedKey?
  /-- None is abandoned without an interrupt. -/
  abandoned_eq_nil : report.interrupted = false → report.abandoned = []
  /-- Each submitted upload succeeded, failed or is abandoned. -/
  submitted_eq_add : report.submitted =
    report.succeeded + report.failed + report.abandoned.length

section Counting

variable {planned : Nat} {events : List UploadEvent} {report : UploadReport}

theorem Counts.submitted (h : report.Counts planned events) (time : Nat) (key : String) :
    Counts planned (events ++ [.submitted time key])
      { report with submitted := report.submitted + 1 } where
  planned_eq := h.planned_eq
  submitted_eq := by simp [h.submitted_eq]
  succeeded_eq := by simp [List.filterMap_cons, h.succeeded_eq]
  failed_eq := by simp [List.filterMap_cons, h.failed_eq]
  bytes_eq := by rw [UploadEvent.totalBytes_append]; exact h.bytes_eq
  firstFailure_eq := by simp [List.findSome?_append, h.firstFailure_eq]

theorem Counts.succeeded (h : report.Counts planned events) (time : Nat) (key : String)
    (bytes : UInt64) : (Ledger.countSuccess report bytes).Counts planned
      (events ++ [.completed time key (.ok bytes)]) where
  planned_eq := h.planned_eq
  submitted_eq := by simp [Ledger.countSuccess, List.filterMap_cons, h.submitted_eq]
  succeeded_eq := by simp [Ledger.countSuccess, h.succeeded_eq]
  failed_eq := by simp [Ledger.countSuccess, List.filterMap_cons, h.failed_eq]
  bytes_eq := by
    simp [Ledger.countSuccess, h.bytes_eq, UploadEvent.totalBytes]
  firstFailure_eq := by simp [Ledger.countSuccess, List.findSome?_append, h.firstFailure_eq]

theorem Counts.failed (h : report.Counts planned events) (time : Nat) (key : String)
    (error : Error) : (Ledger.countFailure report key error).Counts planned
      (events ++ [.completed time key (.error error)]) where
  planned_eq := h.planned_eq
  submitted_eq := by simp [Ledger.countFailure, List.filterMap_cons, h.submitted_eq]
  succeeded_eq := by simp [Ledger.countFailure, List.filterMap_cons, h.succeeded_eq]
  failed_eq := by simp [Ledger.countFailure, h.failed_eq]
  bytes_eq := by rw [UploadEvent.totalBytes_append]; exact h.bytes_eq
  firstFailure_eq := by simp [Ledger.countFailure, List.findSome?_append, h.firstFailure_eq]

theorem Counts.close {ledger : Ledger} (h : ledger.report.Counts planned events) :
    ledger.close.Counts planned events :=
  ⟨h.planned_eq, h.submitted_eq, h.succeeded_eq, h.failed_eq, h.bytes_eq, h.firstFailure_eq⟩

theorem Counts.abandon {ledger : Ledger} (h : ledger.report.Counts planned events) :
    ledger.abandon.Counts planned events :=
  ⟨h.planned_eq, h.submitted_eq, h.succeeded_eq, h.failed_eq, h.bytes_eq, h.firstFailure_eq⟩

end Counting

end UploadReport

namespace Pool

variable {uploads : List (UploadFile × Transfer)} {options : PoolOptions} {interrupt : Option Nat}
variable {st : Standing}

/-- The report of a run tells the totals of the moments so far, and nothing is abandoned before the
run ends. -/
theorem Reaches.counts (h : Reaches uploads options interrupt (.start uploads) st) :
    st.ledger.report.Counts uploads.length (st.ledger.moments.filterMap Moment.event?) ∧
      st.ledger.report.interrupted = false ∧ st.ledger.report.abandoned = [] := by
  induction h with
  | refl => exact ⟨⟨rfl, rfl, rfl, rfl, rfl, rfl⟩, rfl, rfl⟩
  | tail _ hstep ih =>
    obtain ⟨hcounts, hinterrupted, habandoned⟩ := ih
    cases hstep with
    | submit =>
      refine ⟨?_, hinterrupted, habandoned⟩
      simpa [Moment.event?] using hcounts.submitted _ _
    | @complete _ flight _ ledger result =>
      simp only [Ledger.complete_moments, List.filterMap_append]
      cases result with
      | ok bytes => exact ⟨hcounts.succeeded _ _ bytes, hinterrupted, habandoned⟩
      | error error => exact ⟨hcounts.failed _ _ error, hinterrupted, habandoned⟩
    | lose | interrupt =>
      refine ⟨?_, hinterrupted, habandoned⟩
      simpa [Moment.event?, List.filterMap_cons] using hcounts

/-- The next upload of a roster with distinct keys has a new key. -/
theorem Reaches.next_key_fresh (h : Reaches uploads options interrupt (.start uploads) st)
    (hkeys : ((numbered uploads).map Prod.snd).Nodup) {file : UploadFile} {transfer : Transfer}
    (hnext : uploads[st.ledger.report.submitted]? = some (file, transfer)) :
    file.key ∉ (submissions st.ledger.moments).map Prod.snd := by
  obtain ⟨-, htake⟩ := h.submissions_eq
  rw [htake, List.map_take]
  intro hmem
  apply List.disjoint_take_drop hkeys (Nat.le_refl _) hmem
  apply List.mem_of_getElem? (i := 0)
  simp [getElem?_numbered hnext]

/-- The running keys are those of the uploads that panicked or are in flight. -/
theorem Reaches.running_perm (h : Reaches uploads options interrupt (.start uploads) st)
    (hkeys : ((numbered uploads).map Prod.snd).Nodup) :
    st.ledger.running.Perm
      ((losses st.ledger.moments ++ st.flights.map Flight.label).map Prod.snd) := by
  induction h with
  | refl => exact .refl _
  | tail hreach hstep ih =>
    cases hstep with
    | @submit flights ledger file transfer hnext =>
      -- A running key was submitted before, so a new one is added to the set.
      have hfresh : file.key ∉ ledger.running := by
        intro hmem
        apply Reaches.next_key_fresh hreach hkeys hnext
        apply ((Reaches.submissions_perm hreach).map _).mem_iff.mpr
        rw [List.map_append]
        exact List.mem_append_right _ (ih.mem_iff.mp hmem)
      have hinsert := (Flight.labels_insert_perm (losses ledger.moments)
        (launch ledger file transfer) flights).map Prod.snd
      simpa [Ledger.submit, hfresh] using (ih.cons file.key).trans hinsert.symm
    | @complete _ flight rest ledger result =>
      have hmiddle : ((losses ledger.moments ++ flight.label :: rest.map Flight.label).map
          Prod.snd).Perm
          (flight.key :: (losses ledger.moments ++ rest.map Flight.label).map Prod.snd) :=
        List.perm_middle.map Prod.snd
      simpa using (ih.trans hmiddle).erase flight.key
    | lose => simpa [Flight.label] using ih
    | interrupt => simpa using ih

theorem Reaches.map_submissions_perm {α : Type} (f : Nat × String → α)
    (h : Reaches uploads options interrupt (.start uploads) st) :
    ((submissions st.ledger.moments).map f).Perm ((completions st.ledger.moments).map f ++
      (losses st.ledger.moments ++ st.flights.map Flight.label).map f) := by
  rw [← List.map_append]
  exact h.submissions_perm.map f

/-- What tells the uploads of a roster apart tells those apart that ended or are in flight. -/
theorem Reaches.nodup_map {α : Type} {f : Nat × String → α}
    (h : Reaches uploads options interrupt (.start uploads) st)
    (hdistinct : ((numbered uploads).map f).Nodup) :
    ((completions st.ledger.moments).map f ++
      (losses st.ledger.moments ++ st.flights.map Flight.label).map f).Nodup := by
  rw [← (h.map_submissions_perm f).nodup_iff, h.submissions_eq.2, List.map_take]
  exact hdistinct.sublist (List.take_sublist _ _)

/-- With distinct keys the running keys are those that were submitted and did not end, each
once. -/
theorem Reaches.mem_running (h : Reaches uploads options interrupt (.start uploads) st)
    (hkeys : ((numbered uploads).map Prod.snd).Nodup) :
    st.ledger.running.Nodup ∧ ∀ key, key ∈ st.ledger.running ↔
      key ∈ (submissions st.ledger.moments).map Prod.snd ∧
        key ∉ (completions st.ledger.moments).map Prod.snd := by
  have hnodup := h.nodup_map hkeys
  have hrunning := h.running_perm hkeys
  refine ⟨hrunning.nodup_iff.mpr hnodup.of_append_right, ?_⟩
  intro key
  rw [hrunning.mem_iff, (h.map_submissions_perm Prod.snd).mem_iff, List.mem_append]
  constructor
  · intro hmem
    exact ⟨.inr hmem, fun hdone => List.disjoint_of_nodup_append hnodup hdone hmem⟩
  · rintro ⟨hdone | hmem, hnot⟩
    · exact absurd hdone hnot
    · exact hmem

/-- Each submitted upload ended with a result, or its key is running. -/
theorem Reaches.submitted_eq_add (h : Reaches uploads options interrupt (.start uploads) st)
    (hkeys : ((numbered uploads).map Prod.snd).Nodup) :
    (submissions st.ledger.moments).length =
      (completions st.ledger.moments).length + st.ledger.running.length := by
  have hall := h.submissions_perm.length_eq
  have hrunning := (h.running_perm hkeys).length_eq
  simp only [List.length_append, List.length_map] at hall hrunning
  omega

theorem abandoned_perm (ledger : Ledger) : ledger.abandon.abandoned.Perm ledger.running :=
  List.mergeSort_perm _ _

theorem abandoned_pairwise (ledger : Ledger) : ledger.abandon.abandoned.Pairwise (· ≤ ·) :=
  Text.pairwise_mergeSort id ledger.running

/-- Where a run closes its report tells the totals of its moments, and the running keys in order as
abandoned, which are none without an interrupt. -/
theorem Closes.report {run : UploadRun} {report : UploadReport}
    (hclose : Closes uploads options st run)
    (h : Reaches uploads options interrupt (.start uploads) st)
    (hkeys : ((numbered uploads).map Prod.snd).Nodup) (hreport : run.result = .ok report) :
    report.Counts uploads.length run.events ∧
      report.abandoned.Perm st.ledger.running ∧ report.abandoned.Pairwise (· ≤ ·) ∧
      (report.interrupted = false → report.abandoned = []) := by
  obtain ⟨hcounts, -, hnone⟩ := h.counts
  cases hclose with
  | @done ledger =>
    obtain rfl := Except.ok.inj hreport
    -- Nothing has panicked and nothing is in flight, so no key runs.
    have hempty : ledger.running = [] := by
      simpa [h.fits.1] using h.running_perm hkeys
    have hsorted : ledger.report.abandoned.Pairwise (· ≤ ·) := by
      rw [show ledger.report.abandoned = [] from hnone]
      exact .nil
    exact ⟨hcounts.close, .of_eq (hnone.trans hempty.symm), hsorted, fun _ => hnone⟩
  | drained =>
    obtain rfl := Except.ok.inj hreport
    exact ⟨hcounts.abandon, abandoned_perm _, abandoned_pairwise _, nofun⟩
  | expired =>
    obtain rfl := Except.ok.inj hreport
    exact ⟨UploadReport.Counts.abandon hcounts, abandoned_perm _, abandoned_pairwise _, nofun⟩
  | failed => cases hreport

end Pool

/-- The report of a run agrees with the events of the run, when the files of the plan have distinct
keys: its totals are those of the events, the bytes as far as 64 bits can tell them, its failure is
the first that was seen, and each submitted upload succeeded, failed or is abandoned. -/
theorem runUploads_accounts {σ : Type} (start : UploadFile → StateM σ Transfer)
    (options : PoolOptions) (interrupt : Option Nat) (plan : List UploadFile) (state : σ)
    (hkeys : (plan.map UploadFile.key).Nodup) (report : UploadReport)
    (hreport : ((runUploads start options interrupt plan).run state).1.result = .ok report) :
    report.Accounts plan ((runUploads start options interrupt plan).run state).1.events := by
  have hthreads : options.threads ≠ 0 := by
    intro hzero
    rw [runUploads_eq, if_pos hzero] at hreport
    cases hreport
  obtain ⟨final, hreach, hclose⟩ := runUploads_reaches start options interrupt plan state hthreads
  have hnumbered : ((numbered (roster start plan state)).map Prod.snd).Nodup := by
    rwa [map_snd_numbered, map_fst_roster]
  obtain ⟨hcounts, hperm, hsorted, hnone⟩ := hclose.report hreach hnumbered hreport
  obtain ⟨hnodup, hmem⟩ := hreach.mem_running hnumbered
  have hadd := hreach.submitted_eq_add hnumbered
  rw [length_roster] at hcounts
  refine ⟨hcounts, fun hfits => ?_, ?_, ?_, hnone, ?_⟩
  · rw [hcounts.bytes_eq, UInt64.toNat_ofNat_of_lt' hfits]
  · -- The keys ascend strictly, since they are sorted and no two of them are the same.
    apply (hsorted.and (hperm.nodup_iff.mpr hnodup)).imp
    intro key other h
    apply String.not_le.mp
    intro hge
    exact h.2 (String.le_antisymm h.1 hge)
  · intro key
    rw [hperm.mem_iff, hmem, UploadRun.events, hclose.moments_eq,
      UploadEvent.filterMap_submittedKey, UploadEvent.filterMap_completedKey]
  · rw [hcounts.submitted_eq, hcounts.succeeded_eq, hcounts.failed_eq, hperm.length_eq,
      UploadRun.events, ← UploadEvent.length_completions, hclose.moments_eq,
      UploadEvent.filterMap_submittedKey, List.length_map, hadd]

/-- One of four uploads fails, an interrupt comes, and in the time that is left one succeeds, one
panics and one does not end. -/
theorem runUploads_accounts_interrupted :
    let plan : List UploadFile := [⟨"a", "to/a", 8⟩, ⟨"b", "to/b", 7⟩, ⟨"c", "to/c", 6⟩,
      ⟨"d", "to/d", 5⟩]
    let transfers : List Transfer := [⟨10, .failed .timeout⟩, ⟨150, .written 7⟩,
      ⟨3600000, .written 6⟩, ⟨100, .panicked "index out of bounds"⟩]
    let start : UploadFile → StateM (List Transfer) Transfer :=
      fun _ left => (left.headD ⟨0, .written 0⟩, left.tail)
    let run := ((runUploads start ⟨3, true, 1000⟩ (some 50) plan).run transfers).1
    (plan.map UploadFile.key).Nodup ∧ ∃ report, run.result = .ok report ∧
      (report.submitted, report.succeeded, report.failed) = (4, 1, 1) ∧
      report.Accounts plan run.events :=
  ⟨by decide, _, rfl, rfl, runUploads_accounts _ _ _ _ _ (by decide) _ rfl⟩

end BucketCare

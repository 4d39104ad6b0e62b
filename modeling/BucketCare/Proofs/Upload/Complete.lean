import BucketCare.Proofs.Upload.Outcome
import BucketCare.Proofs.Upload.Sharing

/-!
# Runs of which no upload fails

Uploads that go through a client do not panic. If none of them fails either, and nothing interrupts
the run, it goes through the whole plan: its report is a success, every upload has ended, and the
bytes that are told are those of the uploads, as far as 64 bits can tell them.

## Main definitions

* `UploadReport.IsComplete` — the report of such a run
* `placed` — the files of a plan, by place and key

## Main results

* `Client.exists_calm` — a run of uploads through a client, as one of uploads of which none panics
* `Client.uploadAll_of_written` — a run of which no upload fails is complete
* `totalBytes_of_completed` — the bytes of such a run, by the files of its plan
-/

namespace BucketCare

/-- The report of a run that went through its plan without a failure. -/
structure UploadReport.IsComplete (files bytes : Nat) (report : UploadReport) : Prop where
  planned_eq : report.planned = files
  submitted_eq : report.submitted = files
  succeeded_eq : report.succeeded = files
  failed_eq : report.failed = 0
  /-- The bytes are told as far as 64 bits can tell them. -/
  bytes_eq : report.bytes = .ofNat bytes
  /-- So they are told exactly if 64 bits are enough. -/
  bytes_toNat : bytes < UInt64.size → report.bytes.toNat = bytes
  /-- It is a success whether or not failures are ignored. -/
  passes : ∀ ignoreFailures, report.toResult ignoreFailures = .ok report

/-- Two numbers of bytes that 64 bits cannot tell apart are told in the same way. -/
theorem UploadReport.IsComplete.of_ofNat_eq {files bytes other : Nat} {report : UploadReport}
    (h : report.IsComplete files bytes) (hsame : UInt64.ofNat bytes = .ofNat other) :
    report.IsComplete files other where
  planned_eq := h.planned_eq
  submitted_eq := h.submitted_eq
  succeeded_eq := h.succeeded_eq
  failed_eq := h.failed_eq
  bytes_eq := h.bytes_eq.trans hsame
  bytes_toNat hfits := by rw [h.bytes_eq, hsame, UInt64.toNat_ofNat_of_lt' hfits]
  passes := h.passes

/-! ## The places of a plan -/

/-- The files of a plan, by place and key. -/
def placed (plan : List UploadFile) : List (Nat × String) :=
  plan.zipIdx.map fun entry => (entry.2, entry.1.key)

theorem numbered_eq_placed (uploads : List (UploadFile × Transfer)) :
    numbered uploads = placed (uploads.map Prod.fst) := by
  rw [numbered, placed, List.zipIdx_map, List.map_map]
  rfl

/-- What the files of a plan have, told by their places. -/
theorem filterMap_placed {α : Type} (plan : List UploadFile) (share : UploadFile → α) :
    (placed plan).filterMap (fun label => (plan[label.1]?).map share) = plan.map share := by
  have hplace : ∀ entry ∈ plan.zipIdx, plan[entry.2]? = some entry.1 := by
    intro entry hmem
    simpa using List.mem_zipIdx_iff_getElem?.mp hmem
  calc (placed plan).filterMap (fun label => (plan[label.1]?).map share)
      = plan.zipIdx.filterMap (fun entry => (plan[entry.2]?).map share) := by
        rw [placed, List.filterMap_map]
        rfl
    _ = plan.zipIdx.filterMap (some ∘ share ∘ Prod.fst) := by
        apply List.filterMap_congr
        intro entry hmem
        simp [hplace entry hmem]
    _ = plan.map share := by
        rw [List.filterMap_eq_map, ← List.map_map, List.zipIdx_map_fst]

/-- An upload of a plan has ended if all of them have. -/
theorem exists_completed {plan : List UploadFile} {moments : List Moment}
    (hended : (completions moments).Perm (placed plan)) {place : Nat} {file : UploadFile}
    (hfile : plan[place]? = some file) :
    ∃ time result, .completed time place file.key result ∈ moments := by
  have hplaced : (place, file.key) ∈ placed plan :=
    List.mem_map.mpr ⟨(file, place), List.mem_zipIdx_iff_getElem?.mpr hfile, rfl⟩
  obtain ⟨moment, hmem, hmoment⟩ := List.mem_filterMap.mp (hended.mem_iff.mpr hplaced)
  cases moment with
  | submitted | panicked | interrupted => cases hmoment
  | completed time other key result =>
    obtain ⟨rfl, rfl⟩ : other = place ∧ key = file.key := by simpa using hmoment
    exact ⟨time, result, hmem⟩

/-- The bytes of a run, if every file of its plan was uploaded and told its own share of them. -/
theorem totalBytes_of_completed {plan : List UploadFile} {moments : List Moment}
    {share : UploadFile → UInt64} (hended : (completions moments).Perm (placed plan))
    (hshare : ∀ time place key result, .completed time place key result ∈ moments →
      ∃ file, plan[place]? = some file ∧ result = .ok (share file)) :
    UploadEvent.totalBytes (moments.filterMap Moment.event?) =
      (plan.map fun file => (share file).toNat).sum := by
  -- What an upload tells depends on its place alone, so the order of the ends does not matter.
  have hbytes : (moments.filterMap Moment.event?).filterMap UploadEvent.bytes? =
      (completions moments).filterMap fun label => (plan[label.1]?).map share := by
    rw [completions, List.filterMap_filterMap, List.filterMap_filterMap]
    apply List.filterMap_congr
    intro moment hmem
    cases moment with
    | submitted | panicked | interrupted => rfl
    | completed time place key result =>
      obtain ⟨file, hfile, rfl⟩ := hshare time place key result hmem
      simp [Moment.event?, hfile]
  have hperm := (hended.filterMap fun label => (plan[label.1]?).map share).map UInt64.toNat
  rw [UploadEvent.totalBytes, hbytes, hperm.sum_nat, filterMap_placed, List.map_map]
  rfl

/-! ## Complete runs -/

namespace Pool

variable {uploads : List (UploadFile × Transfer)} {options : PoolOptions} {st : Standing}
variable {run : UploadRun}

/-- A run without an interrupt that has seen no failure and no panic is complete where it closes. -/
theorem Closes.exists_complete (hclose : Closes uploads options st run)
    (h : Reaches uploads options none (.start uploads) st) (hcalm : Calm uploads)
    (hnone : ∀ time place key error, .completed time place key (.error error) ∉ st.ledger.moments) :
    (completions st.ledger.moments).Perm (numbered uploads) ∧
      ∃ report, run.result = .ok report ∧ report.IsComplete uploads.length
        (UploadEvent.totalBytes (st.ledger.moments.filterMap Moment.event?)) := by
  obtain ⟨hlosses, hphase⟩ := h.losses_eq_nil hcalm
  obtain ⟨report, hreport, hcounts, hmark⟩ := hclose.exists_report h hphase
  -- Neither an interrupt nor a failure keeps an upload from being started and seen to its end.
  have hfree := h.not_mem_interrupted hlosses
  have hquiet : report.interrupted = false := by
    rw [← Bool.not_eq_true, hmark]
    rintro ⟨time, hmem⟩
    exact hfree time hmem
  have hfailed : report.failed = 0 := (Reaches.failed_eq_zero_iff hcounts).mpr hnone
  have hgo : st.ledger.halted options.ignoreFailures = false := by
    have hzero := (Reaches.failed_eq_zero_iff h.counts.1).mpr hnone
    simp [Ledger.halted, h.counts.1.firstFailure_eq_none_iff.mpr hzero]
  obtain ⟨hall, hended⟩ := hclose.all_ended h hcalm hfree hgo
  have htotal : report.succeeded + report.failed = uploads.length := by
    rw [hcounts.succeeded_eq, hcounts.failed_eq, ← UploadEvent.length_completions,
      hended.length_eq, length_numbered]
  refine ⟨hended, report, hreport, ?_⟩
  constructor
  case planned_eq => exact hcounts.planned_eq
  case submitted_eq =>
    rw [hcounts.submitted_eq, UploadEvent.filterMap_submittedKey, hall, List.length_map,
      length_numbered]
  case succeeded_eq => omega
  case failed_eq => exact hfailed
  case bytes_eq => exact hcounts.bytes_eq
  case bytes_toNat =>
    intro hfits
    rw [hcounts.bytes_eq, UInt64.toNat_ofNat_of_lt' hfits]
  case passes =>
    intro ignoreFailures
    have hfirst := hcounts.firstFailure_eq_none_iff.mpr hfailed
    simp [UploadReport.toResult, hquiet, hfirst]

end Pool

/-- A run without an interrupt in which no upload panics or is seen to fail ends all uploads of its
plan, and its report is complete. -/
theorem runUploads_of_written {σ : Type} (start : UploadFile → StateM σ Transfer)
    (options : PoolOptions) (plan : List UploadFile) (state : σ) (hthreads : 1 ≤ options.threads)
    (hcalm : Calm (roster start plan state)) {run : UploadRun}
    (hrun : ((runUploads start options none plan).run state).1 = run)
    (hnone : ∀ time place key error, .completed time place key (.error error) ∉ run.moments) :
    (completions run.moments).Perm (placed plan) ∧
      ∃ report, run.result = .ok report ∧
        report.IsComplete plan.length (UploadEvent.totalBytes run.events) := by
  obtain ⟨final, hreach, hclose⟩ :=
    runUploads_reaches start options none plan state (Nat.ne_of_gt hthreads)
  rw [hrun] at hclose
  have hmoments := hclose.moments_eq
  rw [hmoments] at hnone
  have hcomplete := hclose.exists_complete hreach hcalm hnone
  rwa [numbered_eq_placed, map_fst_roster, length_roster, ← hmoments] at hcomplete

/-! ## Runs of uploads through a client -/

/-- An upload ends with its bytes or a failure. -/
def TransferEnd.HasResult (outcome : TransferEnd) : Prop := ∀ text, outcome ≠ .panicked text

theorem TransferEnd.ofOutcome_hasResult (outcome : Except Error Nat) :
    (ofOutcome outcome).HasResult := by
  intro text h
  cases outcome <;> cases h

/-- Uploads that go as a list tells do not panic if none of the list does. -/
theorem roster_foretold_calm {transfers : List Transfer}
    (h : ∀ transfer ∈ transfers, transfer.outcome.HasResult) (plan : List UploadFile) :
    Calm (roster foretold plan transfers) := by
  induction plan generalizing transfers with
  | nil => exact List.forall_mem_nil _
  | cons file plan ih =>
    cases transfers with
    | nil =>
      exact List.forall_mem_cons.mpr ⟨TransferEnd.ofOutcome_hasResult (.error .cancelled), ih h⟩
    | cons transfer rest =>
      obtain ⟨hfirst, hrest⟩ := List.forall_mem_cons.mp h
      exact List.forall_mem_cons.mpr ⟨hfirst, ih hrest⟩

theorem UploadTasks.conclude_hasResult {σ : Type} (link : Link σ) (talks : List (Talk Nat))
    (place : Nat) (state : σ) : ((conclude link talks place).run state).1.1.HasResult := by
  rw [conclude]
  split
  · exact TransferEnd.ofOutcome_hasResult (.error .cancelled)
  · exact TransferEnd.ofOutcome_hasResult _

namespace Client

variable {σ : Type} (client : Client σ) (tree : FileTree) (bucket : String) (overwrite : Bool)
variable (schedule : UploadSchedule) (options : PoolOptions)

/-- An upload through a client comes to its outcome, and does not panic. -/
theorem settle_hasResult (flight : Flight Unit) (state : UploadTasks × σ) :
    (((UploadTasks.crew client tree bucket overwrite schedule).settle flight).run
      state).1.HasResult :=
  UploadTasks.conclude_hasResult client.link _ flight.place _

/-- A run of uploads through a client is one of uploads that are known to their ends, of which none
panics. -/
theorem exists_calm (interrupt : Option Nat) (plan : List UploadFile) (state : σ) :
    ∃ transfers, Calm (roster foretold plan transfers) ∧
      ((runUploads foretold options interrupt plan).run transfers).1 =
        ((client.uploadAll tree bucket overwrite schedule options interrupt plan).run state).1 := by
  obtain ⟨transfers, hcalm, hrun⟩ :=
    (UploadTasks.crew client tree bucket overwrite schedule).exists_foretold options interrupt
      (client.settle_hasResult tree bucket overwrite schedule) plan (.empty, state)
  exact ⟨transfers, roster_foretold_calm hcalm plan, hrun⟩

/-- A run of uploads through a client that nothing interrupts and of which no upload is seen to fail
ends all uploads of its plan, and its report is complete. -/
theorem uploadAll_of_written (plan : List UploadFile) (state : σ) (hthreads : 1 ≤ options.threads)
    {run : UploadRun}
    (hrun : ((client.uploadAll tree bucket overwrite schedule options none plan).run state).1 = run)
    (hnone : ∀ time place key error, .completed time place key (.error error) ∉ run.moments) :
    (completions run.moments).Perm (placed plan) ∧
      ∃ report, run.result = .ok report ∧
        report.IsComplete plan.length (UploadEvent.totalBytes run.events) := by
  obtain ⟨transfers, hcalm, hsame⟩ :=
    client.exists_calm tree bucket overwrite schedule options none plan state
  exact runUploads_of_written foretold options plan transfers hthreads hcalm (hsame.trans hrun)
    hnone

end Client

end BucketCare

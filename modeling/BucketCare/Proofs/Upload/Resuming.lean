import BucketCare.Proofs.Files.Scanning
import BucketCare.Proofs.Upload.Delivering
import BucketCare.Proofs.Upload.Order

/-!
# An upload that is run again

A run that may not replace objects uploads the files whose objects are missing and leaves all else
as it is. So a run that was cut short, or of which some uploads failed, is made good by running it
again, and once everything is there a further run only looks. None of this depends on the order of
the files, on how many uploads run at a time, on how long each of them takes or on the order in
which their requests reach the store.

## Main definitions

* `Client.CleanRun` — a run in which every request succeeds
* `Client.CutRun` — any run, of which each upload stored its whole file or nothing
* `Completes` — what a run comes to in which every request succeeds

## Main results

* `Client.CleanRun.completes` — a run completes the objects of its files
* `Client.uploadAll_resumes` — a run, a second run that completes it and a third one that changes
  nothing
-/

namespace BucketCare

variable {σ : Type}

/-! ## Runs in which every request succeeds -/

/-- A run over some files that may not replace objects, without an interrupt, in which every request
succeeds. It does not matter in which order the files are uploaded, how many at a time, how long
each of them takes and how their requests are interleaved. -/
def Client.CleanRun (client : Client σ) (tree : FileTree) (bucket : String)
    (files : List UploadFile) (before : σ) (run : UploadRun) (log : RequestLog) (after : σ) :
    Prop :=
  ∃ schedule options plan, IsPlan files plan ∧ 1 ≤ options.threads ∧
    (client.logged.uploadAll tree bucket false schedule options none plan).run ([], before) =
      (run, (log, after)) ∧ AllGranted log

/-- What a run comes to in which every request succeeds: the files whose objects were missing were
uploaded, each of them once, and the report counts them all and tells their bytes. -/
structure Completes (tree : FileTree) (bucket : String) (files : List UploadFile)
    (before : Objects) (run : UploadRun) (log : RequestLog) (after : Objects) : Prop where
  reports : ∃ report, run.result = .ok report ∧ report.IsComplete files.length
    (Command.totalSize (files.filter (UploadFile.isAbsent bucket before)))
  uploads : (uploadsBegun log).Perm
    ((files.filter (UploadFile.isAbsent bucket before)).map (UploadFile.target bucket))
  mirrors : Mirrors tree bucket files before after

namespace Client.CleanRun

variable {client : Client σ} {stock : σ → Stock} {tree : FileTree} {bucket : String}
variable {files : List UploadFile} {before after : σ} {run : UploadRun} {log : RequestLog}

/-- The plan of a run has its files in another order, which changes nothing of what it comes to. -/
theorem delivers (h : client.CleanRun tree bucket files before run log after)
    (hstores : client.link.Stores stock) (hchunk : 0 < client.multipart.chunk)
    (hread : Readable tree files) (hkeys : (files.map UploadFile.key).Nodup) :
    Delivered tree bucket files (stock before).objects log (stock after).objects ∧
      ∃ report, run.result = .ok report ∧ report.IsComplete files.length
        (Command.totalSize (files.filter (UploadFile.isAbsent bucket (stock before).objects))) := by
  obtain ⟨schedule, options, plan, hplan, hthreads, hrun, hgranted⟩ := h
  have hperm := hplan.perm
  obtain ⟨hdelivered, report, hreport, hcomplete⟩ := Client.uploadAll_delivers hstores hchunk
    (fun file hmem => hread file (hperm.mem_iff.mp hmem)) ((hperm.map _).nodup_iff.mpr hkeys)
    hthreads hrun hgranted
  rw [hperm.length_eq, totalSize_perm (hperm.filter _)] at hcomplete
  exact ⟨hdelivered.perm hperm, report, hreport, hcomplete⟩

theorem completes (h : client.CleanRun tree bucket files before run log after)
    (hstores : client.link.Stores stock) (hchunk : 0 < client.multipart.chunk)
    (hread : Readable tree files) (hkeys : (files.map UploadFile.key).Nodup) :
    Completes tree bucket files (stock before).objects run log (stock after).objects := by
  obtain ⟨hdelivered, hreport⟩ := h.delivers hstores hchunk hread hkeys
  exact ⟨hreport, hdelivered.begun_perm hkeys, hdelivered.mirrors⟩

/-- If no object is missing the store is only asked for them. -/
theorem looks (h : client.CleanRun tree bucket files before run log after)
    (hstores : client.link.Stores stock) (hchunk : 0 < client.multipart.chunk)
    (hread : Readable tree files) (hkeys : (files.map UploadFile.key).Nodup)
    (hthere : ∀ file ∈ files, ((stock before).objects (file.target bucket)).isSome) :
    AllLookups log ∧ (stock after).objects = (stock before).objects :=
  (h.delivers hstores hchunk hread hkeys).1.allLookups hthere

end Client.CleanRun

namespace Command

section Printing

variable {inv : σ → Prop}

theorem printAbandoned_keeps (dest : StorePath) (keys : List String) :
    Run.Keeps inv (fun _ => True) (printAbandoned dest keys) := by
  unfold printAbandoned
  split
  · exact .pure trivial
  refine (Run.Keeps.printLine _).bind fun _ _ => ?_
  refine Run.Keeps.bind (Run.Keeps.forIn fun key => ?_) fun _ _ => Run.Keeps.printLine _
  exact (Run.Keeps.printLine _).bind fun _ _ => .pure trivial

theorem printTotals_keeps (report : UploadReport) (ignoreFailures : Bool) :
    Run.Keeps inv (fun _ => True) (printTotals report ignoreFailures) := by
  have hlast : Run.Keeps inv (fun _ => True) (do
      let _ ← Run.ofExcept (report.toResult ignoreFailures)
      Run.printLine "  ✅ Upload complete") :=
    (Run.Keeps.ofExcept _).bind fun _ _ => Run.Keeps.printLine _
  refine (Run.Keeps.printSummary _).bind fun _ _ => ?_
  dsimp only
  split
  · exact (Run.Keeps.printLine _).bind fun _ _ => hlast
  · exact hlast

/-- To tell what a run has come to sends nothing. -/
theorem printReport_keeps (dest : StorePath) (report : UploadReport) (ignoreFailures : Bool) :
    Run.Keeps inv (fun _ => True) (printReport dest report ignoreFailures) := by
  unfold printReport
  split
  · exact (printAbandoned_keeps dest _).bind fun _ _ => Run.Keeps.fail _
  · exact printTotals_keeps report ignoreFailures

end Printing

/-- What the command does that uploads a plan is such a run, if all requests succeed. -/
theorem uploadPlan_cleanRun (schedule : UploadSchedule) (machine : Machine σ) (settings : Settings)
    (dest : StorePath) (options : UploadOptions) (hkeep : options.overwrite = false)
    (hthreads : 1 ≤ options.threads.getD settings.transfer.uploadThreads.toNat)
    (hcalm : machine.interrupt = none) {files plan : List UploadFile} (hplan : IsPlan files plan)
    {world world' : World (RequestLog × σ)} {answer : Except Failure Unit}
    (hrun : (uploadPlan schedule machine.logged settings dest options plan).run.run world =
      (answer, world')) (hnew : world.link.1 = []) (hgranted : AllGranted world'.link.1) :
    ∃ run, (Client.connect machine.link machine.around world.files settings).CleanRun world.files
      dest.bucket files world.link.2 run world'.link.1 world'.link.2 := by
  have hquiet : machine.logged.interrupt = none := hcalm
  have hstart : world.link = ([], world.link.2) := Prod.ext hnew rfl
  rw [uploadPlan, Run.run_client_bind, Client.connect_logged, Run.run_printLine_bind,
    Run.run_get_bind, Run.run_onLink_bind] at hrun
  dsimp only at hrun
  rw [hkeep, hquiet] at hrun
  rcases huploads : ((Client.connect machine.link machine.around world.files
    settings).logged.uploadAll world.files dest.bucket false schedule
      ⟨options.threads.getD settings.transfer.uploadThreads.toNat, options.ignoreFailures,
        PoolOptions.defaultGrace⟩ none plan).run world.link with ⟨run, link⟩
  rw [huploads] at hrun
  -- Behind the uploads the command only prints.
  have hprints : Run.Keeps (· = link) (fun _ => True) (Run.ofExcept run.result >>= fun report =>
      printReport dest report options.ignoreFailures) :=
    (Run.Keeps.ofExcept _).bind fun report _ => printReport_keeps dest report _
  obtain rfl : world'.link = link := hprints.holds hrun rfl
  rw [hstart] at huploads
  exact ⟨run, schedule, _, plan, hplan, hthreads, huploads, hgranted⟩

end Command

/-! ## A run that was cut short -/

/-- A run over some files of which each upload stored its whole file or nothing. Otherwise it is
open what became of it: it may replace objects or not, requests may fail, and an interrupt may
come. -/
structure Client.CutRun (client : Client σ) (stock : σ → Stock) (tree : FileTree) (bucket : String)
    (files : List UploadFile) (before : σ) (run : UploadRun) (after : σ) : Prop where
  ran : ∃ overwrite schedule options interrupt plan, IsPlan files plan ∧
    (client.uploadAll tree bucket overwrite schedule options interrupt plan).run before =
      (run, after)
  whole_or_nothing : ∀ file ∈ files,
    (stock after).objects (file.target bucket) = (stock before).objects (file.target bucket) ∨
      ∃ content, tree.readBytes file.source = .ok content ∧
        (stock after).objects (file.target bucket) = some content

/-- After a run that was interrupted or of which some uploads failed, a second run in which every
request succeeds uploads the files whose objects are missing and no others, and leaves all other
objects as they are. Then the object of each file exists: it is the whole file, unless the first run
found it there. A third such run uploads nothing.

The paths of the files must be short enough to be opened. -/
theorem Client.uploadAll_resumes (client : Client σ) (stock : σ → Stock)
    (hstores : client.link.Stores stock) (hchunk : 0 < client.multipart.chunk)
    (tree : FileTree) (directory : String) (dest : StorePath) (files : List UploadFile)
    (htree : tree.root.WellNamed) (hscan : scan tree directory dest = .ok files)
    (hshort : ∀ file ∈ files, file.source.utf8ByteSize < Route.maxPath)
    (first second third : UploadRun) (log log' : RequestLog) (initial cut full last : σ)
    (hfirst : client.CutRun stock tree dest.bucket files initial first cut)
    (hsecond : client.CleanRun tree dest.bucket files cut second log full)
    (hthird : client.CleanRun tree dest.bucket files full third log' last) :
    Completes tree dest.bucket files (stock cut).objects second log (stock full).objects ∧
    (∀ file ∈ files, ∃ content, (stock full).objects (file.target dest.bucket) = some content ∧
      (tree.readBytes file.source = .ok content ∨
        (stock initial).objects (file.target dest.bucket) = some content)) ∧
    (∃ report, third.result = .ok report ∧ report.IsComplete files.length 0) ∧
    AllLookups log' ∧ (stock last).objects = (stock full).objects := by
  have hread : Readable tree files :=
    fun file hmem => scan_readable htree hscan hmem (hshort file hmem)
  have hkeys := scan_keys_nodup htree hscan
  have hcompleted := hsecond.completes hstores hchunk hread hkeys
  -- What the first run stored is kept, and what it left out is stored by the second.
  have hall : ∀ file ∈ files, ∃ content,
      (stock full).objects (file.target dest.bucket) = some content ∧
        (tree.readBytes file.source = .ok content ∨
          (stock initial).objects (file.target dest.bucket) = some content) := by
    intro file hmem
    cases hcut : (stock cut).objects (file.target dest.bucket) with
    | none =>
      obtain ⟨content, hfile, hfull⟩ := hcompleted.mirrors.filled file hmem hcut
      exact ⟨content, hfull, .inl hfile⟩
    | some content =>
      refine ⟨content, hcompleted.mirrors.kept _ _ hcut, ?_⟩
      rcases hfirst.whole_or_nothing file hmem with hsame | ⟨whole, hfile, hstored⟩
      · exact .inr (hsame.symm.trans hcut)
      · obtain rfl := Option.some.inj (hstored.symm.trans hcut)
        exact .inl hfile
  have hthere : ∀ file ∈ files, ((stock full).objects (file.target dest.bucket)).isSome := by
    intro file hmem
    obtain ⟨content, hsome, -⟩ := hall file hmem
    exact Option.isSome_of_eq_some hsome
  have hnone : files.filter (UploadFile.isAbsent dest.bucket (stock full).objects) = [] :=
    List.filter_eq_nil_iff.mpr fun file hmem => file.not_isAbsent (hthere file hmem)
  have hreports := (hthird.completes hstores hchunk hread hkeys).reports
  rw [hnone] at hreports
  exact ⟨hcompleted, hall, hreports, hthird.looks hstores hchunk hread hkeys hthere⟩

/-- A tree of three files, two of them in a directory of their own. -/
def FileTree.threeFiles : FileTree :=
  ⟨.dir [("src", .dir [("a", .file ⟨#[1, 2, 3, 4, 5]⟩ Node.newMode),
    ("d", .dir [("b", .file ⟨#[6, 7, 8, 9]⟩ Node.newMode),
      ("c", .file ⟨#[10, 11, 12]⟩ Node.newMode)])])], []⟩

/-- The uploads of the three files. -/
def threeUploads : List UploadFile :=
  [⟨"src/a", "up/a", 5⟩, ⟨"src/d/b", "up/d/b", 4⟩, ⟨"src/d/c", "up/d/c", 3⟩]

/-- A client of a store that keeps what it is sent, with which the files are uploaded in parts. -/
def Client.keeping : Client Stock :=
  ⟨.keeping, none, "us-east-1", 2, 1000, ⟨3, 2⟩, .error .timeout⟩

theorem FileTree.threeFiles_wellNamed : threeFiles.root.WellNamed := by
  have hname (name : String)
      (h : name = "src" ∨ name = "a" ∨ name = "d" ∨ name = "b" ∨ name = "c") :
      IsFileName name := by
    rcases h with rfl | rfl | rfl | rfl | rfl
    all_goals exact ⟨⟨by decide, by decide, by decide⟩, by decide, by decide +kernel,
      by decide +kernel⟩
  simp [threeFiles, Node.WellNamed, Node.AllWellNamed, hname]

theorem scan_threeFiles : scan .threeFiles "src" ⟨"bkt", "up"⟩ = .ok threeUploads := by
  have hfind : FileTree.threeFiles.find "src" =
      .ok (.dir [("a", .file ⟨#[1, 2, 3, 4, 5]⟩ Node.newMode),
        ("d", .dir [("b", .file ⟨#[6, 7, 8, 9]⟩ Node.newMode),
          ("c", .file ⟨#[10, 11, 12]⟩ Node.newMode)])]) := by rfl
  have hfound : (Node.files (.dir [("a", .file ⟨#[1, 2, 3, 4, 5]⟩ Node.newMode),
      ("d", .dir [("b", .file ⟨#[6, 7, 8, 9]⟩ Node.newMode),
        ("c", .file ⟨#[10, 11, 12]⟩ Node.newMode)])])).map (fun found =>
          Scan.upload "src" ⟨"bkt", "up"⟩ found.1 found.2) = threeUploads := by decide +kernel
  rw [scan_of_find hfind, hfound, Scan.sort, List.mergeSort_of_pairwise (by decide +kernel)]

theorem threeUploads_isPlan : IsPlan threeUploads threeUploads := by
  refine ⟨Unit, ⟨fun _ => (0, ())⟩, 3, (), (), ?_⟩
  rw [Plan.order?, Plan.sort, List.mergeSort_of_pairwise (by decide +kernel)]
  rfl

/-- The first upload ends before the others send a request, and then these take turns. -/
def UploadSchedule.takingTurns : UploadSchedule where
  pace place := if place = 0 then 5 else 50
  turns ended := if ended = 0 then [1, 0, 1] else [2, 1, 2, 1, 2]

/-- A run over the three files that is interrupted when one upload has ended and the others are
under way. -/
def cutRun : UploadRun × Stock :=
  (Client.keeping.uploadAll .threeFiles "bkt" false .takingTurns ⟨2, false, 0⟩ (some 10)
    threeUploads).run fun _ => ⟨none, fun _ => none⟩

/-- A run over the three files that nothing interrupts. -/
def fullRun (stock : Stock) : UploadRun × RequestLog × Stock :=
  (Client.keeping.logged.uploadAll .threeFiles "bkt" false .takingTurns ⟨2, false, 0⟩ none
    threeUploads).run ([], stock)

theorem fullRun_clean {stock : Stock} (h : AllGranted (fullRun stock).2.1) :
    Client.keeping.CleanRun .threeFiles "bkt" threeUploads stock (fullRun stock).1
      (fullRun stock).2.1 (fullRun stock).2.2 :=
  ⟨.takingTurns, ⟨2, false, 0⟩, threeUploads, threeUploads_isPlan, by decide, rfl, h⟩

/-- The keys that the requests of a log are about, in order. -/
def requestedKeys (log : RequestLog) : List String :=
  (log.filterMap (·.1.place?)).map StorePath.key

/-- The first run stores one of the files. In the second run the uploads of the other two take
turns, each with its parts, and the third run uploads nothing. -/
theorem cutRun_resumes :
    let second := fullRun cutRun.2
    let third := fullRun second.2.2
    (∃ report, cutRun.1.result = .ok report ∧ report.interrupted = true) ∧
    AllGranted second.2.1 ∧ AllGranted third.2.1 ∧
    requestedKeys second.2.1 = ["up/d/b", "up/a", "up/d/b", "up/d/c", "up/d/b", "up/d/c", "up/d/b",
      "up/d/c", "up/d/b", "up/d/c", "up/d/c"] ∧
    Completes .threeFiles "bkt" threeUploads cutRun.2.objects second.1 second.2.1
      second.2.2.objects ∧
    (∃ report, third.1.result = .ok report ∧ report.IsComplete 3 0) ∧
    AllLookups third.2.1 ∧ third.2.2.objects = second.2.2.objects := by
  have hfirst : Client.keeping.CutRun (fun stock => stock) .threeFiles "bkt" threeUploads
      (fun _ => ⟨none, fun _ => none⟩) cutRun.1 cutRun.2 := by
    refine ⟨⟨false, .takingTurns, ⟨2, false, 0⟩, some 10, threeUploads, threeUploads_isPlan, rfl⟩,
      ?_⟩
    intro file hmem
    simp only [threeUploads, List.mem_cons, List.not_mem_nil, or_false] at hmem
    rcases hmem with rfl | rfl | rfl
    · exact .inr ⟨⟨#[1, 2, 3, 4, 5]⟩, by rfl, by rfl⟩
    · exact .inl (by rfl)
    · exact .inl (by rfl)
  have hsecond : AllGranted (fullRun cutRun.2).2.1 := by decide +kernel
  have hthird : AllGranted (fullRun (fullRun cutRun.2).2.2).2.1 := by decide +kernel
  have hkeys : requestedKeys (fullRun cutRun.2).2.1 = ["up/d/b", "up/a", "up/d/b", "up/d/c",
      "up/d/b", "up/d/c", "up/d/b", "up/d/c", "up/d/b", "up/d/c", "up/d/c"] := by decide +kernel
  obtain ⟨hcompletes, -, hlast⟩ := Client.uploadAll_resumes Client.keeping (fun stock => stock)
    Link.keeping_stores (by decide) .threeFiles "src" ⟨"bkt", "up"⟩ threeUploads
    FileTree.threeFiles_wellNamed scan_threeFiles (by decide) _ _ _ _ _ _ _ _ _ hfirst
    (fullRun_clean hsecond) (fullRun_clean hthird)
  exact ⟨⟨_, rfl, rfl⟩, hsecond, hthird, hkeys, hcompletes, hlast⟩

end BucketCare

import BucketCare.Command.UploadTree
import BucketCare.Proofs.Upload.Complete

/-!
# The uploads of a plan, side by side

Uploads that may not replace objects, and whose requests all succeed, deliver their files: an object
that was missing is stored, and all others stay as they are. If the keys of the files are distinct
no upload has a say in another, in whatever order their requests reach the store. So what they come
to in all can be read off the store as it was before the first of them.

## Main definitions

* `UploadFile.isAbsent` — a store does not hold the object of a file
* `Readable` — some files can be read
* `Delivered` — each of some files was delivered, and nothing else was done
* `Mirrors` — a store has come to hold the objects of some files

## Main results

* `Client.uploadAll_delivers` — a run delivers its files if all its requests succeed
* `Delivered.mirrors` — what the uploads of some files have stored
* `Delivered.begun_perm` — what was sent for it
* `Delivered.allLookups` — if all objects are there the store is only asked for them
-/

namespace BucketCare

/-! ## Files and their objects -/

/-- A store has no object for a file. -/
def UploadFile.isAbsent (bucket : String) (objects : Objects) (file : UploadFile) : Bool :=
  (objects (file.target bucket)).isNone

section Absent

variable {bucket : String} {objects : Objects} (file : UploadFile)

theorem UploadFile.isAbsent_of_none (h : objects (file.target bucket) = none) :
    file.isAbsent bucket objects = true :=
  Option.isNone_iff_eq_none.mpr h

theorem UploadFile.not_isAbsent (h : (objects (file.target bucket)).isSome) :
    ¬ file.isAbsent bucket objects = true := by
  rw [UploadFile.isAbsent, Option.isNone_iff_eq_none]
  exact Option.ne_none_iff_isSome.mpr h

end Absent

/-- Files with keys of their own have objects of their own. -/
theorem UploadFile.targets_nodup {plan : List UploadFile} (h : (plan.map UploadFile.key).Nodup)
    (bucket : String) : (plan.map (UploadFile.target bucket)).Nodup := by
  have hplaces := h.map (f := fun key => StorePath.mk bucket key) fun _ _ heq =>
    (StorePath.mk.inj heq).2
  rwa [List.map_map] at hplaces

/-- Some files can be read, and have the sizes that were found. -/
def Readable (tree : FileTree) (files : List UploadFile) : Prop :=
  ∀ file ∈ files, ∃ content, tree.readBytes file.source = .ok content ∧ content.size = file.size

/-- A store has come to hold the objects of some files: what it held before is as it was, the
objects that were missing have the content of their files, and there are no others. -/
structure Mirrors (tree : FileTree) (bucket : String) (files : List UploadFile)
    (before after : Objects) : Prop where
  kept : ∀ path content, before path = some content → after path = some content
  filled : ∀ file ∈ files, before (file.target bucket) = none →
    ∃ content, tree.readBytes file.source = .ok content ∧
      after (file.target bucket) = some content
  untouched : ∀ path, (∀ file ∈ files, file.target bucket ≠ path) → after path = before path

namespace Delivers

variable {bucket : String} {file : UploadFile} {content : ByteArray} {objects : Objects}
variable {sent : RequestLog} {bytes : Nat} {object : Option ByteArray}

/-- An upload is begun exactly if the object was missing. -/
theorem begun_eq (h : Delivers (file.target bucket) content (objects (file.target bucket)) sent
    bytes object) :
    uploadsBegun sent = if file.isAbsent bucket objects then [file.target bucket] else [] := by
  cases h with
  | skipped hexists hlookups =>
    rw [hlookups.uploadsBegun_eq_nil, if_neg (file.not_isAbsent hexists)]
  | sent hmissing hbegun => rw [hbegun, if_pos (file.isAbsent_of_none hmissing)]

/-- The bytes of the file are written exactly if its object was missing. -/
theorem bytes_eq (h : Delivers (file.target bucket) content (objects (file.target bucket)) sent
    bytes object) : bytes = if file.isAbsent bucket objects then content.size else 0 := by
  cases h with
  | skipped hexists => rw [if_neg (file.not_isAbsent hexists)]
  | sent hmissing => rw [if_pos (file.isAbsent_of_none hmissing)]

end Delivers

/-! ## What was delivered -/

/-- The upload to a place delivers the file whose place it is. -/
def DeliversFileOf (tree : FileTree) (bucket : String) (files : List UploadFile)
    (before : Objects) (path : StorePath) (sent : RequestLog) (bytes : Nat) (after : Deposit) :
    Prop :=
  ∀ file ∈ files, file.target bucket = path → ∃ content,
    tree.readBytes file.source = .ok content ∧ content.size = file.size ∧
      Delivers path content (before path) sent bytes after.object

/-- Each of some files was delivered by the requests about its place, and no others were sent. -/
structure Delivered (tree : FileTree) (bucket : String) (files : List UploadFile)
    (before : Objects) (log : RequestLog) (after : Objects) : Prop where
  each : ∀ file ∈ files, ∃ content bytes, tree.readBytes file.source = .ok content ∧
    Delivers (file.target bucket) content (before (file.target bucket))
      (entriesAbout (file.target bucket) log) bytes (after (file.target bucket))
  elsewhere : ∀ path, (∀ file ∈ files, file.target bucket ≠ path) → after path = before path
  about : ∀ entry ∈ log, ∃ file ∈ files, entry.1.place? = some (file.target bucket)

namespace Delivered

variable {tree : FileTree} {bucket : String} {files plan : List UploadFile}
variable {before after : Objects} {log : RequestLog}

theorem perm (h : Delivered tree bucket plan before log after) (hperm : plan.Perm files) :
    Delivered tree bucket files before log after where
  each file hmem := h.each file (hperm.mem_iff.mpr hmem)
  elsewhere path hother := h.elsewhere path fun file hmem => hother file (hperm.mem_iff.mp hmem)
  about entry hmem := by
    obtain ⟨file, hfile, hentry⟩ := h.about entry hmem
    exact ⟨file, hperm.mem_iff.mp hfile, hentry⟩

/-- The uploads leave the store with the objects of all files. -/
theorem mirrors (h : Delivered tree bucket files before log after) :
    Mirrors tree bucket files before after := by
  refine ⟨fun path content hsome => ?_, fun file hmem hmissing => ?_, h.elsewhere⟩
  · by_cases hpath : ∃ file ∈ files, file.target bucket = path
    · obtain ⟨file, hmem, rfl⟩ := hpath
      obtain ⟨whole, bytes, -, hdelivers⟩ := h.each file hmem
      rw [hsome] at hdelivers
      generalize after (file.target bucket) = object at hdelivers
      cases hdelivers with
      | skipped => rfl
      | sent hmissing => cases hmissing
    · rw [h.elsewhere path (by simpa using hpath), hsome]
  · obtain ⟨content, bytes, hread, hdelivers⟩ := h.each file hmem
    refine ⟨content, hread, ?_⟩
    rw [hmissing] at hdelivers
    generalize after (file.target bucket) = object at hdelivers
    cases hdelivers with
    | skipped hexists => cases hexists
    | sent => rfl

/-- No request is about a place that no file has. -/
theorem entriesAbout_eq_nil (h : Delivered tree bucket files before log after) {path : StorePath}
    (hother : ¬ ∃ file ∈ files, file.target bucket = path) : entriesAbout path log = [] := by
  apply List.filter_eq_nil_iff.mpr
  intro entry hmem habout
  obtain ⟨file, hfile, hentry⟩ := h.about entry hmem
  exact hother ⟨file, hfile, by simpa [hentry] using habout⟩

/-- Exactly the files whose objects were missing are uploaded, each of them once. -/
theorem begun_perm (h : Delivered tree bucket files before log after)
    (hkeys : (files.map UploadFile.key).Nodup) :
    (uploadsBegun log).Perm
      ((files.filter (UploadFile.isAbsent bucket before)).map (UploadFile.target bucket)) := by
  have hmissing :
      ((files.filter (UploadFile.isAbsent bucket before)).map (UploadFile.target bucket)).Nodup :=
    (UploadFile.targets_nodup hkeys bucket).sublist (List.filter_sublist.map _)
  -- Each place is counted by itself: as often as its file is missing, and no other place at all.
  apply List.perm_iff_count.mpr
  intro path
  rw [count_uploadsBegun, hmissing.count]
  by_cases hpath : ∃ file ∈ files, file.target bucket = path
  · obtain ⟨file, hmem, rfl⟩ := hpath
    obtain ⟨content, bytes, -, hdelivers⟩ := h.each file hmem
    have hiff : file.target bucket ∈
        (files.filter (UploadFile.isAbsent bucket before)).map (UploadFile.target bucket) ↔
          file.isAbsent bucket before = true := by
      constructor
      · intro hplace
        obtain ⟨other, hother, htarget⟩ := List.mem_map.mp hplace
        have habsent := List.of_mem_filter hother
        rwa [UploadFile.isAbsent, htarget] at habsent
      · intro habsent
        exact List.mem_map_of_mem (List.mem_filter.mpr ⟨hmem, habsent⟩)
    rw [hdelivers.begun_eq]
    by_cases habsent : file.isAbsent bucket before = true
    · rw [if_pos habsent, if_pos (hiff.mpr habsent), List.count_singleton_self]
    · rw [if_neg habsent, if_neg (mt hiff.mp habsent), List.count_nil]
  · rw [h.entriesAbout_eq_nil hpath, if_neg]
    · rfl
    · intro hmem
      obtain ⟨file, hfile, htarget⟩ := List.mem_map.mp hmem
      exact hpath ⟨file, List.mem_of_mem_filter hfile, htarget⟩

/-- A file whose object is there is only looked for. -/
theorem looks (h : Delivered tree bucket files before log after) {file : UploadFile}
    (hmem : file ∈ files) (hthere : (before (file.target bucket)).isSome) :
    AllLookups (entriesAbout (file.target bucket) log) ∧
      after (file.target bucket) = before (file.target bucket) := by
  obtain ⟨content, bytes, -, hdelivers⟩ := h.each file hmem
  generalize after (file.target bucket) = object at hdelivers
  cases hdelivers with
  | skipped _ hlookups => exact ⟨hlookups, rfl⟩
  | sent hmissing => simp [hmissing] at hthere

/-- The uploads of files that are all there only look. -/
theorem allLookups (h : Delivered tree bucket files before log after)
    (hthere : ∀ file ∈ files, (before (file.target bucket)).isSome) :
    AllLookups log ∧ after = before := by
  constructor
  · intro entry hentry
    obtain ⟨file, hmem, habout⟩ := h.about entry hentry
    exact (h.looks hmem (hthere file hmem)).1 entry
      (List.mem_filter.mpr ⟨hentry, decide_eq_true habout⟩)
  · funext path
    by_cases hpath : ∃ file ∈ files, file.target bucket = path
    · obtain ⟨file, hmem, rfl⟩ := hpath
      exact (h.looks hmem (hthere file hmem)).2
    · exact h.elsewhere path (by simpa using hpath)

end Delivered

/-! ## Runs in which every request succeeds -/

section Runs

variable {σ : Type} {client : Client σ} {stock : σ → Stock} {tree : FileTree} {bucket : String}
variable {schedule : UploadSchedule} {options : PoolOptions} {plan : List UploadFile}
variable {before after : σ} {run : UploadRun} {log : RequestLog}

/-- A run of uploads leaves what its ledger tells of them. -/
theorem Client.uploadAll_tells (hstores : client.link.Stores stock)
    (hchunk : 0 < client.multipart.chunk) (hread : Readable tree plan)
    (hkeys : (plan.map UploadFile.key).Nodup) (hthreads : 1 ≤ options.threads)
    (hrun : (client.logged.uploadAll tree bucket false schedule options none plan).run
      ([], before) = (run, (log, after))) :
    ∃ ledger tasks, run.moments = ledger.moments ∧
      UploadTasks.Tells client.link stock (plan.map (UploadFile.target bucket))
        (DeliversFileOf tree bucket plan (stock before).objects) (stock before) ledger
        (tasks, (log, after)) := by
  have hserves : ∀ file ∈ plan, (Talk.transfer client.multipart tree bucket false file).Serves
      client.link stock (file.target bucket)
      (DeliversFileOf tree bucket plan (stock before).objects (file.target bucket))
      (stock before (file.target bucket)) := by
    intro file hmem
    obtain ⟨content, hcontent, hsize⟩ := hread file hmem
    refine (Talk.transfer_serves bucket content hstores hchunk hcontent).mono ?_
    intro sent bytes deposit hdelivers other hother htarget
    obtain rfl := List.inj_on_of_nodup_map hkeys hother hmem (StorePath.mk.inj htarget).2
    exact ⟨content, hcontent, hsize, hdelivers⟩
  have hkeeps : (UploadTasks.crew client.logged tree bucket false schedule).Keeps plan _ :=
    UploadTasks.crew_keeps hstores (UploadFile.targets_nodup hkeys bucket) hserves
  -- Nothing is under way when the run begins, so the ledger tells nothing that could be wrong.
  have hall : LeadsTo _ ((UploadTasks.crew client.logged tree bucket false schedule).run options
    none plan) _ := hkeeps.run (Nat.ne_of_gt hthreads)
  have hends := hall (.empty, ([], before)) ⟨rfl, nofun, fun _ => .empty before⟩
  rcases hcrew : ((UploadTasks.crew client.logged tree bucket false schedule).run options none
    plan).run (.empty, ([], before)) with ⟨run', tasks, state⟩
  have hsame : (client.logged.uploadAll tree bucket false schedule options none plan).run
      ([], before) = (run', state) := by
    rw [StateT.run] at hcrew ⊢
    simp only [Client.uploadAll, StateT.run, hcrew]
  rw [hcrew] at hends
  cases hsame.symm.trans hrun
  obtain ⟨ledger, hmoments, htells⟩ := hends
  exact ⟨ledger, tasks, hmoments, htells⟩

/-- An upload that is told to have ended has delivered its file, if all requests have succeeded. -/
theorem UploadTasks.Tells.exists_delivery {link : Link σ} {ledger : Ledger} {tasks : UploadTasks}
    {objects : Objects} {start : Stock}
    (h : Tells link stock (plan.map (UploadFile.target bucket))
      (DeliversFileOf tree bucket plan objects) start ledger (tasks, (log, after)))
    (hgranted : AllGranted log) {time place : Nat} {key : String} {result : Except Error UInt64}
    (hmem : .completed time place key result ∈ ledger.moments) :
    ∃ file content bytes, plan[place]? = some file ∧ tree.readBytes file.source = .ok content ∧
      content.size = file.size ∧ result = .ok (.ofNat bytes) ∧
      Delivers (file.target bucket) content (objects (file.target bucket))
        (entriesAbout (file.target bucket) log) bytes
        ((stock after).objects (file.target bucket)) := by
  obtain ⟨path, bytes, hpath, rfl, hgoal⟩ := h.goal_reached hgranted hmem
  rw [List.getElem?_map] at hpath
  obtain ⟨file, hfile, rfl⟩ := Option.map_eq_some_iff.mp hpath
  obtain ⟨content, hcontent, hsize, hdelivers⟩ := hgoal file (List.mem_of_getElem? hfile) rfl
  exact ⟨file, content, bytes, hfile, hcontent, hsize, rfl, hdelivers⟩

/-- The bytes that the uploads of some files take. -/
theorem ofNat_sum_toNat (files : List UploadFile) (share : UploadFile → Nat) :
    UInt64.ofNat ((files.map fun file => (UInt64.ofNat (share file)).toNat).sum) =
      .ofNat (files.map share).sum := by
  induction files with
  | nil => rfl
  | cons file files ih =>
    rw [List.map_cons, List.sum_cons, UInt64.ofNat_add, ih, UInt64.ofNat_toNat, List.map_cons,
      List.sum_cons, UInt64.ofNat_add]

theorem totalSize_eq_sum (files : List UploadFile) :
    Command.totalSize files = (files.map UploadFile.size).sum := by
  rw [List.sum_eq_foldl, List.foldl_map]
  rfl

/-- What counts nothing may be left out of a sum. -/
theorem sum_ite_size (files : List UploadFile) (counts : UploadFile → Bool) :
    (files.map fun file => if counts file then file.size else 0).sum =
      Command.totalSize (files.filter counts) := by
  rw [totalSize_eq_sum]
  induction files with
  | nil => rfl
  | cons file files ih =>
    rw [List.map_cons, List.sum_cons, ih, List.filter_cons]
    split
    · rfl
    · exact Nat.zero_add _

/-- The bytes of some files do not depend on their order. -/
theorem totalSize_perm {files others : List UploadFile} (h : files.Perm others) :
    Command.totalSize files = Command.totalSize others := by
  rw [totalSize_eq_sum, totalSize_eq_sum, (h.map UploadFile.size).sum_nat]

/-- A run in which every request succeeds delivers all files, and its report says so. -/
theorem Client.uploadAll_delivers (hstores : client.link.Stores stock)
    (hchunk : 0 < client.multipart.chunk) (hread : Readable tree plan)
    (hkeys : (plan.map UploadFile.key).Nodup) (hthreads : 1 ≤ options.threads)
    (hrun : (client.logged.uploadAll tree bucket false schedule options none plan).run
      ([], before) = (run, (log, after))) (hgranted : AllGranted log) :
    Delivered tree bucket plan (stock before).objects log (stock after).objects ∧
      ∃ report, run.result = .ok report ∧ report.IsComplete plan.length
        (Command.totalSize (plan.filter (UploadFile.isAbsent bucket (stock before).objects))) := by
  obtain ⟨ledger, tasks, hmoments, htells⟩ :=
    client.uploadAll_tells hstores hchunk hread hkeys hthreads hrun
  have hsharing := htells.shares hgranted
  have hended {time place : Nat} {key : String} {result : Except Error UInt64}
      (hmem : .completed time place key result ∈ run.moments) :=
    htells.exists_delivery hgranted (hmoments ▸ hmem)
  have hnone : ∀ time place key error,
      .completed time place key (.error error) ∉ run.moments := by
    intro time place key error hmem
    obtain ⟨file, content, bytes, -, -, -, hresult, -⟩ := hended hmem
    cases hresult
  -- None of them failed, so all of them have ended.
  obtain ⟨hperm, report, hreport, hcomplete⟩ := client.logged.uploadAll_of_written tree bucket false
    schedule options plan ([], before) hthreads (congrArg Prod.fst hrun) hnone
  refine ⟨⟨fun file hmem => ?_, fun path hother => ?_, fun entry hmem => ?_⟩, report, hreport, ?_⟩
  · obtain ⟨place, hfile⟩ := List.mem_iff_getElem?.mp hmem
    obtain ⟨time, result, hcompleted⟩ := exists_completed hperm hfile
    obtain ⟨other, content, bytes, hother, hcontent, -, -, hdelivers⟩ := hended hcompleted
    obtain rfl : file = other := Option.some.inj (hfile.symm.trans hother)
    exact ⟨content, bytes, hcontent, hdelivers⟩
  · refine congrArg Deposit.object (hsharing.untouched path fun place _ hplace => ?_)
    obtain ⟨file, hfile, htarget⟩ := List.mem_map.mp (List.mem_of_getElem? hplace)
    exact hother file hfile htarget
  · obtain ⟨place, -, path, hplace, hentry⟩ := hsharing.about entry hmem
    obtain ⟨file, hfile, rfl⟩ := List.mem_map.mp (List.mem_of_getElem? hplace)
    exact ⟨file, hfile, hentry⟩
  · have hshare : ∀ time place key result, .completed time place key result ∈ run.moments →
        ∃ file, plan[place]? = some file ∧ result = .ok (.ofNat
          (if file.isAbsent bucket (stock before).objects then file.size else 0)) := by
      intro time place key result hmem
      obtain ⟨file, content, bytes, hfile, -, hsize, rfl, hdelivers⟩ := hended hmem
      exact ⟨file, hfile, by rw [hdelivers.bytes_eq, hsize]⟩
    apply hcomplete.of_ofNat_eq
    rw [UploadRun.events, totalBytes_of_completed hperm hshare, ofNat_sum_toNat, sum_ite_size]

end Runs

end BucketCare

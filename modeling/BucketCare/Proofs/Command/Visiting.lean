import BucketCare.Command.Pending
import BucketCare.Command.Recovery
import BucketCare.Proofs.Command.Keeping

/-!
# What the visitors of a listing keep

The commands on versions and pending uploads read a listing page by page. What they find there they
prune, undelete, copy back or gather for an abort, and they do so entry by entry: a property that is
kept when one entry is handled is kept over a page, and by `Source.Gives.walk` over a listing.

## Main results

* `VersionState.Holds.visit`, `UndeleteState.Holds.visit` — pruning and undeleting a page
* `RestoreState.Holds.visit` — copying back what a page shows to be deleted
* `PendingState.Holds.visit`, `keeps_abortAll` — gathering the uploads of a page, and aborting them
-/

namespace BucketCare.Command

variable {σ : Type} {inv : σ → Prop}

/-! ## Listings and reports in files -/

theorem keeps_openOut (out : Option String) : Run.Keeps inv (fun _ => True) (openOut out) := by
  cases out with
  | none => exact .pure trivial
  | some path => exact .createFile path

theorem keeps_deliver (out : Option String) (text : String) :
    Run.Keeps inv (fun _ => True) (deliver out text) := by
  cases out with
  | none => exact .print text
  | some path => exact .fillFile path text

theorem keeps_openReport (path : Option String) (separator : UInt8) :
    Run.Keeps inv (fun _ => True) (openReport path separator) := by
  cases path with
  | none => exact .pure trivial
  | some path =>
    exact (Run.Keeps.createFile path).bind fun _ _ =>
      (Run.Keeps.ofExcept _).bind fun _ _ => .pure trivial

theorem keeps_deliverReport (path : Option String) (csv : Option Csv.Report) :
    Run.Keeps inv (fun _ => True) (deliverReport path csv) := by
  cases path with
  | none => exact .pure trivial
  | some path =>
    cases csv with
    | none => exact .pure trivial
    | some csv => exact .fillFile path csv.text

/-! ## Versions -/

section Deleting

variable {allowed : Candidate → Prop} {deleter : Deleter σ}

/-- The candidates that a listing of versions has gathered are allowed. -/
def VersionState.Holds (allowed : Candidate → Prop) (state : VersionState) : Prop :=
  ∀ batcher, state.batcher = some batcher → batcher.Holds allowed

theorem VersionState.report_batcher (query : VersionQuery) (state : VersionState)
    (entry : VersionEntry) : (state.report query entry).2.batcher = state.batcher := by
  unfold VersionState.report
  split
  · rfl
  · split <;> rfl

theorem VersionState.Holds.prune {state : VersionState} (h : state.Holds allowed)
    (hdeleter : deleter.Takes inv allowed) {entry : VersionEntry}
    (hentry : entry.isPrunable = true → allowed entry.candidate) :
    Keeps inv (fun answer => answer.2.Holds allowed) (state.prune deleter entry) := by
  unfold VersionState.prune
  split
  · exact .pure h
  next batcher hbatcher =>
    split
    next hprunable =>
      refine ((h batcher hbatcher).push hdeleter (hentry hprunable)).bind ?_
      rintro ⟨answer, batcher'⟩ hholds
      have hnext : ∀ other, some batcher' = some other → other.Holds allowed := by
        rintro other hother
        obtain rfl := Option.some.inj hother
        exact hholds
      cases answer <;> exact .pure hnext
    · exact .pure h

/-- A page of versions is pruned of entries that are allowed. -/
theorem VersionState.Holds.visit (hdeleter : deleter.Takes inv allowed) (query : VersionQuery)
    {entries : List VersionEntry}
    (hentries : ∀ entry ∈ entries, entry.isPrunable = true → allowed entry.candidate)
    {state : VersionState} (h : state.Holds allowed) :
    Keeps inv (fun answer => answer.2.state.Holds allowed)
      (VersionState.visit query deleter entries state) := by
  induction entries generalizing state with
  | nil => exact .pure h
  | cons entry rest ih =>
    obtain ⟨hentry, hrest⟩ := List.forall_mem_cons.mp hentries
    rw [VersionState.visit]
    split
    · exact .pure h
    split
    · exact ih hrest h
    -- Counting an entry and writing its row leave the batcher alone.
    have hreport : ((state.add query entry).report query entry).2.Holds allowed := by
      intro batcher hbatcher
      rw [VersionState.report_batcher] at hbatcher
      exact h batcher hbatcher
    split
    next heq =>
      rw [heq] at hreport
      exact .pure hreport
    next heq =>
      rw [heq] at hreport
      refine (hreport.prune hdeleter hentry).bind ?_
      rintro ⟨failure, state'⟩ hstate'
      cases failure with
      | none => exact ih hrest hstate'
      | some e => exact .pure hstate'

/-- The delete markers that wait for their removal are allowed. -/
def UndeleteState.Holds (allowed : Candidate → Prop) (state : UndeleteState) : Prop :=
  state.batcher.Holds allowed

/-- Delete markers of a page are removed that are allowed. -/
theorem UndeleteState.Holds.visit (hdeleter : deleter.Takes inv allowed) (bucket : String)
    (accept : VersionEntry → Bool) {entries : List VersionEntry}
    (hentries : ∀ entry ∈ entries, entry.isUndeletable = true → allowed entry.candidate)
    {state : UndeleteState} (h : state.Holds allowed) :
    Keeps inv (fun answer => answer.2.state.Holds allowed)
      (UndeleteState.visit bucket accept deleter entries state) := by
  induction entries generalizing state with
  | nil => exact .pure h
  | cons entry rest ih =>
    obtain ⟨hentry, hrest⟩ := List.forall_mem_cons.mp hentries
    rw [UndeleteState.visit]
    split
    next hremoved =>
      have hundeletable : entry.isUndeletable = true := (Bool.and_eq_true_iff.mp hremoved).1
      refine (Batcher.Holds.push hdeleter h (hentry hundeletable)).bind ?_
      rintro ⟨answer, batcher⟩ hbatcher
      cases answer with
      | error e => exact .pure hbatcher
      | ok _ => exact ih hrest hbatcher
    · exact ih hrest h

/-- Deleting what a batcher still holds. -/
theorem keeps_finishBatcher (hdeleter : deleter.Takes inv allowed) {batcher : Option Batcher}
    (h : ∀ held, batcher = some held → held.Holds allowed) :
    Run.Keeps inv (fun _ => True) (finishBatcher deleter batcher) := by
  cases batcher with
  | none => exact .pure trivial
  | some held =>
    exact (Run.Keeps.onLink ((h held rfl).finish hdeleter)).bind fun _ _ => .pure trivial

end Deleting

section Copying

variable {allowed : RestoreTarget → Prop}

/-- The targets that wait are those of entries that are allowed. -/
theorem observe_targets {accept : VersionEntry → Bool} {planner : RestorePlanner}
    (h : ∀ target ∈ planner.targets, allowed target) {entry : VersionEntry}
    (hentry : ∀ version, allowed ⟨entry.key, version⟩) :
    ∀ target ∈ (planner.observe accept entry).targets, allowed target := by
  unfold RestorePlanner.observe
  split
  · exact h
  split
  · split
    next version _ =>
      intro target htarget
      rcases List.mem_append.mp htarget with htarget | htarget
      · exact h target htarget
      · rw [List.mem_singleton.mp htarget]
        exact hentry version
    · exact h
  · exact h

theorem foldl_observe_targets (accept : VersionEntry → Bool) {entries : List VersionEntry}
    (hentries : ∀ entry ∈ entries, ∀ version, allowed ⟨entry.key, version⟩)
    {planner : RestorePlanner} (h : ∀ target ∈ planner.targets, allowed target) :
    ∀ target ∈ (entries.foldl (RestorePlanner.observe accept) planner).targets, allowed target := by
  induction entries generalizing planner with
  | nil => exact h
  | cons entry rest ih =>
    obtain ⟨hentry, hrest⟩ := List.forall_mem_cons.mp hentries
    exact ih hrest (observe_targets h hentry)

variable {copy : RestoreTarget → StateM σ (Except Error Unit)}

/-- The copies that wait are allowed. -/
def CopyPool.Holds (allowed : RestoreTarget → Prop) (pool : CopyPool) : Prop :=
  ∀ target ∈ pool.waiting, allowed target

/-- A step of a copy is one that is allowed, and leaves no other copies to wait. -/
theorem CopyPool.Holds.step
    (hcopy : ∀ target, allowed target → Keeps inv (fun _ => True) (copy target))
    {pool : CopyPool} (h : CopyPool.Holds allowed pool) (step : CopyStep) :
    Keeps inv (CopyPool.Holds allowed) (pool.step copy step) := by
  cases step with
  | send place =>
    rw [BucketCare.CopyPool.step]
    split
    next => exact .pure h
    next target htarget =>
      refine (hcopy target (h target (List.mem_of_getElem? htarget))).bind fun result _ => ?_
      exact .pure fun other hother => h other (List.mem_of_mem_eraseIdx hother)
  | finish place =>
    rw [BucketCare.CopyPool.step]
    split
    next => exact .pure h
    next => exact .pure h

theorem CopyPool.Holds.run
    (hcopy : ∀ target, allowed target → Keeps inv (fun _ => True) (copy target))
    {pool : CopyPool} (h : CopyPool.Holds allowed pool) (steps : List CopyStep) :
    Keeps inv (CopyPool.Holds allowed) (pool.run copy steps) := by
  induction steps generalizing pool with
  | nil => exact .pure h
  | cons step rest ih => exact (h.step hcopy step).bind fun _ hnext => ih hnext

/-- No target waits to be taken from the planner, and the copies that wait are allowed. -/
structure RestoreState.Holds (allowed : RestoreTarget → Prop) (state : RestoreState) : Prop where
  drained : state.planner.targets = []
  copies : CopyPool.Holds allowed state.copies

theorem RestoreState.holds_start : RestoreState.start.Holds allowed := ⟨rfl, nofun⟩

theorem RestoreState.Holds.foldl_add (bucket : String) (dryRun : Bool) {state : RestoreState}
    (h : state.Holds allowed) {targets : List RestoreTarget}
    (htargets : ∀ target ∈ targets, allowed target) :
    (targets.foldl (RestoreState.add bucket dryRun) state).Holds allowed := by
  induction targets generalizing state with
  | nil => exact h
  | cons target rest ih =>
    obtain ⟨htarget, hrest⟩ := List.forall_mem_cons.mp htargets
    refine ih ?_ hrest
    cases dryRun with
    | true => exact ⟨h.drained, h.copies⟩
    | false =>
      refine ⟨h.drained, fun other hother => ?_⟩
      rcases List.mem_append.mp hother with hearlier | hlast
      · exact h.copies other hearlier
      · rwa [List.mem_singleton.mp hlast]

/-- A page of versions leads to copies that are allowed, and leaves no target behind. -/
theorem RestoreState.Holds.visit
    (hcopy : ∀ target, allowed target → Keeps inv (fun _ => True) (copy target))
    (schedule : CopySchedule) (bucket : String) (dryRun : Bool) (accept : VersionEntry → Bool)
    {entries : List VersionEntry}
    (hentries : ∀ entry ∈ entries, ∀ version, allowed ⟨entry.key, version⟩)
    {state : RestoreState} (h : state.Holds allowed) :
    Keeps inv (fun answer => answer.2.state.Holds allowed)
      (RestoreState.visit copy schedule bucket dryRun accept entries state) := by
  have hnone : ∀ target ∈ state.planner.targets, allowed target := by
    rw [h.drained]
    exact nofun
  have htargets := foldl_observe_targets accept hentries hnone
  -- The targets are taken from the planner before the copies go on.
  let planner := (entries.foldl (RestorePlanner.observe accept) state.planner).drain.2
  have hdrained : RestoreState.Holds allowed { state with planner, pages := state.pages + 1 } :=
    ⟨rfl, h.copies⟩
  have hadded := hdrained.foldl_add bucket dryRun htargets
  refine (hadded.copies.run hcopy _).bind fun copies hcopies => ?_
  exact .pure ⟨hadded.drained, hcopies⟩

end Copying

section Aborting

variable {allowed : UploadEntry → Prop} {client : Client σ} {bucket : String}

theorem PendingState.addParts_matched (parts : List PartEntry) (state : PendingState) :
    (PendingState.addParts parts state).matched = state.matched := by
  induction parts generalizing state with
  | nil => rfl
  | cons part rest ih => exact ih _

/-- Listing the parts of an upload leaves the uploads that were listed as they are. -/
theorem PendingState.keeps_listParts
    (hparts : ∀ listing, (PartListing.source client listing).Gives inv fun _ => True)
    (upload : UploadEntry) (state : PendingState) :
    Keeps inv (fun answer => answer.2.matched = state.matched)
      (PendingState.listParts client bucket upload state) := by
  have hsource := hparts ⟨bucket, upload.key, upload.uploadId⟩
  refine hsource.start.bind ?_
  intro answer hanswer
  cases answer with
  | error e => exact .pure rfl
  | ok cursor =>
    have hvisit : ∀ parts (current : PendingState), True → current.matched = state.matched →
        Keeps inv
          (fun answer : Option Error × Visit PendingState =>
            answer.2.state.matched = state.matched)
          (Pure.pure (none, Visit.more (PendingState.addParts parts current))) :=
      fun parts current _ hcurrent =>
        .pure ((PendingState.addParts_matched parts current).trans hcurrent)
    refine (hsource.walk hvisit Run.allPages (hanswer cursor rfl) rfl).bind ?_
    exact fun outcome houtcome => .pure houtcome

/-- The uploads that were listed are allowed. -/
def PendingState.Holds (allowed : UploadEntry → Prop) (state : PendingState) : Prop :=
  ∀ upload ∈ state.matched, allowed upload

theorem PendingState.holds_start : PendingState.start.Holds allowed := nofun

/-- Uploads of a page are gathered that are allowed. -/
theorem PendingState.Holds.visit
    (hparts : ∀ listing, (PartListing.source client listing).Gives inv fun _ => True)
    (accept : UploadEntry → Bool) (parts : Bool) {uploads : List UploadEntry}
    (huploads : ∀ upload ∈ uploads, allowed upload) {state : PendingState}
    (h : state.Holds allowed) :
    Keeps inv (fun answer => answer.2.state.Holds allowed)
      (PendingState.visit client bucket accept parts uploads state) := by
  induction uploads generalizing state with
  | nil => exact .pure h
  | cons upload rest ih =>
    obtain ⟨hupload, hrest⟩ := List.forall_mem_cons.mp huploads
    rw [PendingState.visit]
    split
    · exact ih hrest h
    dsimp only
    have hmore : ∀ current : PendingState, current.Holds allowed →
        Keeps inv (fun answer => answer.2.state.Holds allowed)
          (PendingState.visit client bucket accept parts rest
            { current with matched := upload :: current.matched }) := by
      intro current hcurrent
      apply ih hrest
      exact List.forall_mem_cons.mpr ⟨hupload, hcurrent⟩
    split
    · refine (PendingState.keeps_listParts hparts upload _).bind ?_
      rintro ⟨failure, current⟩ hsame
      have hcurrent : current.Holds allowed := by
        unfold PendingState.Holds
        rwa [hsame]
      cases failure with
      | some e => exact .pure hcurrent
      | none => exact hmore current hcurrent
    · exact hmore _ h

theorem keeps_abortAll
    (habort : ∀ upload, allowed upload →
      Keeps inv (fun _ => True) (client.abortUpload bucket upload.key upload.uploadId).run)
    {uploads : List UploadEntry} (huploads : ∀ upload ∈ uploads, allowed upload)
    (tally : AbortTally) :
    Keeps inv (fun _ => True) (abortAll client bucket tally uploads) := by
  induction uploads generalizing tally with
  | nil => exact .pure trivial
  | cons upload rest ih =>
    obtain ⟨hupload, hrest⟩ := List.forall_mem_cons.mp huploads
    -- The next upload is aborted whatever the answer for this one.
    exact (habort upload hupload).bind fun _ _ => ih hrest _

end Aborting

end BucketCare.Command

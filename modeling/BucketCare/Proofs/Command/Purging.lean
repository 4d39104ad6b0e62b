import BucketCare.Proofs.Command.Outputs
import BucketCare.Proofs.Command.Replies

/-!
# Aborting what is pending

The command that aborts pending uploads first reads the whole listing and gathers the uploads of the
wanted age. Then it aborts them one after the other, and no answer keeps it from the next upload. An
upload that is gone is neither counted nor a failure; of the other failures the first is kept until
all uploads were tried.

## Main definitions

* `Link.ListsUploads` — a store that answers listings of uploads with some replies
* `Lists` — a log that goes on with answered requests for pages
* `PendingState.Reads` — how a listing stands that is being read
* `abortFailure?` — the failure that an answer to an abort stands for

## Main results

* `PendingState.visit_keeps` — the uploads of a page are gathered
* `abortAll_run` — each upload is aborted once
* `pending_aborts_each_once` — the command
-/

namespace BucketCare

/-- A link to a store that answers listings of uploads with some replies and, if parts are wanted,
each listing of parts with a page. What else is sent it may answer in any way. -/
structure Link.ListsUploads {σ : Type} (link : Link σ) (left : σ → List UploadsReply)
    (parts : Bool) : Prop where
  uploads : ∀ bucket start limit keyMarker uploadMarker state reply rest,
    left state = reply :: rest →
    ∃ state', (link.send (.listUploads bucket start limit keyMarker uploadMarker)).run state =
      (.ok reply, state') ∧ left state' = rest
  parts : parts = true → ∀ bucket key uploadId limit marker state, ∃ reply state',
    (link.send (.listParts bucket key uploadId limit marker)).run state = (.ok reply, state') ∧
      left state' = left state

/-- A request is for a page of uploads. -/
def Request.listsUploads : Request → Bool
  | .listUploads .. => true
  | _ => false

/-- A request is for a page of parts. -/
def Request.listsParts : Request → Bool
  | .listParts .. => true
  | _ => false

/-- The uploads of some replies. -/
def listedUploads (replies : List UploadsReply) : List UploadEntry :=
  replies.flatMap fun reply => (UploadListing.pageOf reply).content

namespace Command

/-! ## The listing -/

/-- A log goes on with requests for pages that were answered, as many of them for pages of
uploads. -/
def Lists (before : RequestLog) (pages : Nat) (log : RequestLog) : Prop :=
  ∃ reads, log = before ++ reads ∧
    (∀ read ∈ reads, read.2 = none ∧
      (read.1.listsUploads || read.1.listsParts) = true) ∧
    reads.countP (fun read => read.1.listsUploads) = pages

section Listing

variable {σ : Type} {link : Link σ} {left : σ → List UploadsReply} {parts : Bool}
variable {client : Client (RequestLog × σ)} {before log : RequestLog} {pages : Nat}

theorem lists_self : Lists before 0 before :=
  ⟨[], (List.append_nil before).symm, List.forall_mem_nil _, rfl⟩

/-- One more request is answered. -/
theorem Lists.add (h : Lists before pages log) {request : Request}
    (hrequest : (request.listsUploads || request.listsParts) = true) :
    Lists before (pages + request.listsUploads.toNat) (log ++ [(request, none)]) := by
  obtain ⟨reads, rfl, hreads, hcount⟩ := h
  refine ⟨reads ++ [(request, none)], List.append_assoc _ _ _, ?_, ?_⟩
  · rw [List.forall_mem_append]
    exact ⟨hreads, by simpa using hrequest⟩
  · rw [List.countP_append, hcount]
    cases hlists : request.listsUploads <;> simp [hlists]

/-- The parts of an upload are listed without a failure, and the listing of uploads is where it
was. -/
theorem parts_unfailing (hlink : client.link = link.logged) (hlists : link.ListsUploads left true)
    (replies : List UploadsReply) (listing : PartListing) :
    (PartListing.source client listing).Unfailing
      fun state => left state.2 = replies ∧ Lists before pages state.1 := by
  rintro token ⟨log, state⟩ ⟨hleft, hlog⟩
  obtain ⟨reply, state', hsend, hsame⟩ :=
    hlists.parts rfl listing.bucket listing.key listing.uploadId client.pageSize token state
  have hrun := Client.request_logged hlink hsend log
  rw [PartListing.source, StateT.run_bind, hrun]
  exact ⟨⟨_, rfl⟩, hsame.trans hleft, hlog.add rfl⟩

variable {inv : RequestLog × σ → Prop} {bucket : String}

theorem PendingState.listParts_keeps
    (hparts : ∀ listing, (PartListing.source client listing).Unfailing inv) (upload : UploadEntry)
    (state : PendingState) :
    Keeps inv (fun answer => answer.1 = none ∧ answer.2.matched = state.matched)
      (PendingState.listParts client bucket upload state) := by
  have hsource := hparts ⟨bucket, upload.key, upload.uploadId⟩
  refine hsource.start.bind ?_
  rintro _ ⟨cursor, rfl⟩
  have hvisit : ∀ entries (current : PendingState), current.matched = state.matched →
      Keeps inv
        (fun answer : Option Error × Visit PendingState =>
          ∃ next, answer = (none, .more next) ∧ next.matched = state.matched)
        (Pure.pure (none, Visit.more (PendingState.addParts entries current))) :=
    fun entries current hcurrent =>
      .pure ⟨_, rfl, (addParts_matched entries current).trans hcurrent⟩
  refine (hsource.walk hvisit Run.allPages cursor rfl).bind ?_
  exact fun _ hanswer => .pure hanswer

/-- The uploads of a page that are accepted are gathered behind those before them. -/
theorem PendingState.visit_keeps (accept : UploadEntry → Bool)
    (hparts : parts = true → ∀ listing, (PartListing.source client listing).Unfailing inv)
    (uploads : List UploadEntry) (state : PendingState) :
    Keeps inv
      (fun answer => ∃ next, answer = (none, .more next) ∧
        next.matched.reverse = state.matched.reverse ++ uploads.filter accept)
      (PendingState.visit client bucket accept parts uploads state) := by
  induction uploads generalizing state with
  | nil => exact .pure ⟨state, rfl, by simp⟩
  | cons upload rest ih =>
    rw [PendingState.visit]
    cases haccept : accept upload with
    | false =>
      rw [List.filter_cons_of_neg (by simp [haccept])]
      exact ih state
    | true =>
      rw [List.filter_cons_of_pos haccept]
      simp only [Bool.not_true, Bool.false_eq_true, if_false]
      -- The parts of an upload may be listed before it is gathered, which gathers nothing.
      have hmore : ∀ current : PendingState, current.matched = state.matched →
          Keeps inv
            (fun answer => ∃ next, answer = (none, .more next) ∧
              next.matched.reverse = state.matched.reverse ++ upload :: rest.filter accept)
            (PendingState.visit client bucket accept parts rest
              { current with matched := upload :: current.matched }) := by
        intro current hcurrent
        refine (ih { current with matched := upload :: current.matched }).mono ?_
        rintro _ ⟨next, rfl, hnext⟩
        exact ⟨next, rfl, by simpa [hcurrent] using hnext⟩
      split
      next hwanted =>
        refine (PendingState.listParts_keeps (hparts hwanted) upload _).bind ?_
        rintro ⟨_, current⟩ ⟨rfl, hcurrent⟩
        exact hmore current hcurrent
      next => exact hmore _ rfl

/-- What was gathered and what is accepted of some replies to come is what a listing comes to. -/
def PendingState.Gathers (accept : UploadEntry → Bool) (replies coming : List UploadsReply)
    (state : PendingState) : Prop :=
  state.matched.reverse ++ (listedUploads coming).filter accept =
    (listedUploads replies).filter accept

/-- A listing is being read: the replies `coming` are still to be visited, and the store has `rest`
of them left to give. The two differ while a page was fetched and not visited yet. -/
def PendingState.Reads (left : σ → List UploadsReply) (before : RequestLog)
    (accept : UploadEntry → Bool) (replies coming rest : List UploadsReply) (state : PendingState)
    (link : RequestLog × σ) : Prop :=
  ∃ pages, pages + rest.length = replies.length ∧ state.Gathers accept replies coming ∧
    left link.2 = rest ∧ Lists before pages link.1

/-- The listing is read to its end, and the uploads that are accepted are gathered. -/
theorem visiting_uploads (hlink : client.link = link.logged)
    (hlists : link.ListsUploads left parts) (before : RequestLog) (bucket : String)
    (accept : UploadEntry → Bool) (listing : UploadListing) {replies : List UploadsReply}
    (hlisting : MakeListing (replies.map UploadListing.pageOf))
    (hcount : replies.length ≤ Run.allPages) :
    LeadsTo (fun state => left state.2 = replies ∧ state.1 = before)
      (visiting (listing.source client) (PendingState.visit client bucket accept parts) .start)
      fun visited state => visited.failure = none ∧
        visited.state.matched.reverse = (listedUploads replies).filter accept ∧
        Lists before replies.length state.1 := by
  have hsource : ∀ reply rest token state, LeadsTo
      (PendingState.Reads left before accept replies (reply :: rest) (reply :: rest) state)
      (listing.source client token)
      fun answer link => answer = .ok (UploadListing.pageOf reply) ∧
        state.Reads left before accept replies (reply :: rest) rest link := by
    rintro reply rest token state ⟨log, link'⟩ ⟨pages, hpages, hgathered, hleft, hlog⟩
    obtain ⟨next, hsend, hrest⟩ := hlists.uploads listing.bucket listing.start client.pageSize
      (token.map (·.key)) (token.bind (·.uploadId)) link' reply rest hleft
    have hrun := Client.request_logged hlink hsend log
    rw [UploadListing.source, StateT.run_bind, hrun]
    refine ⟨rfl, pages + 1, ?_, hgathered, hrest, hlog.add rfl⟩
    rw [List.length_cons] at hpages
    omega
  have hvisit : ∀ reply rest state, LeadsTo
      (PendingState.Reads left before accept replies (reply :: rest) rest state)
      (PendingState.visit client bucket accept parts (UploadListing.pageOf reply).content state)
      fun answer link => ∃ next, answer = (none, .more next) ∧
        next.Reads left before accept replies rest rest link := by
    rintro reply rest state link' ⟨pages, hpages, hgathered, hlink'⟩
    have hparts : parts = true → ∀ listing, (PartListing.source client listing).Unfailing
        fun state => left state.2 = rest ∧ Lists before pages state.1 := by
      rintro rfl
      exact parts_unfailing hlink hlists rest
    obtain ⟨⟨next, hanswer, hnext⟩, hkept⟩ :=
      PendingState.visit_keeps accept hparts (UploadListing.pageOf reply).content state link' hlink'
    refine ⟨next, hanswer, pages, hpages, ?_, hkept⟩
    change next.matched.reverse ++ _ = _
    rw [hnext, List.append_assoc, ← List.filter_append]
    exact hgathered
  have hread := visiting_replies
    (fun rest => PendingState.Reads left before accept replies rest rest)
    (fun reply rest => PendingState.Reads left before accept replies (reply :: rest) rest)
    hsource hvisit hlisting hcount .start
  refine (hread.weaken ?_).mono ?_
  · rintro ⟨log, link'⟩ ⟨hleft, rfl⟩
    exact ⟨0, Nat.zero_add _, rfl, hleft, lists_self⟩
  · rintro visited link' ⟨hnone, pages, hpages, hgathered, -, hlog⟩
    refine ⟨hnone, ?_, hpages ▸ hlog⟩
    rwa [← List.append_nil visited.state.matched.reverse]

end Listing

/-! ## The aborts -/

/-- The failure that an answer to an abort stands for, by the fault it ended in. An upload that is
gone already is no failure. -/
def abortFailure? : Option Fault → Option Error
  | none => none
  | some fault =>
    match fault.toError with
    | .notFound _ => none
    | error => some error

/-- The record of an abort. -/
def abortOf (bucket : String) (upload : UploadEntry) (fault : Option Fault) :
    Request × Option Fault :=
  (.abortUpload bucket upload.key upload.uploadId, fault)

theorem abortFailure?_eq_none_iff {fault : Fault} :
    abortFailure? (some fault) = none ↔ ∃ text, fault.toError = .notFound text := by
  unfold abortFailure?
  dsimp only
  split
  next text heq => exact ⟨fun _ => ⟨text, heq⟩, fun _ => rfl⟩
  next hother => exact ⟨nofun, fun ⟨text, heq⟩ => (hother text heq).elim⟩

theorem AbortTally.add_endOf (tally : AbortTally) (fault : Option Fault) :
    tally.add (endOf fault) =
      ⟨tally.aborted + fault.isNone.toNat, tally.firstError.or (abortFailure? fault)⟩ := by
  cases fault with
  | none => simp [add, endOf, abortFailure?]
  | some fault =>
    unfold endOf abortFailure?
    dsimp only
    cases fault.toError with
    | notFound text => simp [add]
    | _ => cases hfirst : tally.firstError <;> simp [add, hfirst]

/-- A tally counts the aborts that succeeded, and keeps the first failure. -/
theorem AbortTally.foldl_add (tally : AbortTally) (faults : List (Option Fault)) :
    (faults.map endOf).foldl add tally =
      ⟨tally.aborted + faults.countP Option.isNone,
        tally.firstError.or (faults.findSome? abortFailure?)⟩ := by
  induction faults generalizing tally with
  | nil => simp
  | cons fault rest ih =>
    have hcount : (fault :: rest).countP Option.isNone =
        fault.isNone.toNat + rest.countP Option.isNone := by
      cases fault <;> simp [Nat.add_comm]
    rw [List.map_cons, List.foldl_cons, ih, add_endOf, hcount, findSome?_cons_or]
    simp [Nat.add_assoc, Option.or_assoc]

/-- No failure is kept exactly if all faults were uploads that are gone. -/
theorem findSome?_abortFailure?_eq_none_iff {faults : List (Option Fault)} :
    faults.findSome? abortFailure? = none ↔
      ∀ fault, some fault ∈ faults → ∃ text, fault.toError = .notFound text := by
  rw [List.findSome?_eq_none_iff]
  constructor
  · intro h fault hmem
    exact abortFailure?_eq_none_iff.mp (h _ hmem)
  · intro h fault hmem
    cases fault with
    | none => rfl
    | some fault => exact abortFailure?_eq_none_iff.mpr (h fault hmem)

section Aborting

variable {σ : Type} {link : Link σ} {client : Client (RequestLog × σ)}

/-- Each upload is aborted once, whatever became of those before it. -/
theorem abortAll_run (hlink : client.link = link.logged) (bucket : String)
    (uploads : List UploadEntry) (tally : AbortTally) (log : RequestLog) (state : σ) :
    ∃ faults state', faults.length = uploads.length ∧
      (abortAll client bucket tally uploads).run (log, state) =
        ((faults.map endOf).foldl AbortTally.add tally,
          (log ++ List.zipWith (abortOf bucket) uploads faults, state')) := by
  induction uploads generalizing tally log state with
  | nil => exact ⟨[], state, rfl, by rw [List.zipWith_nil_left, List.append_nil]; rfl⟩
  | cons upload rest ih =>
    obtain ⟨answer, state₁, hsend⟩ : ∃ answer state₁,
        (link.send (.abortUpload bucket upload.key upload.uploadId)).run state =
          (answer, state₁) := ⟨_, _, rfl⟩
    -- The answer goes to the log and to the tally, and the rest is aborted in either case.
    have habort := Client.request_logged hlink hsend log
    rw [mapError_eq_endOf] at habort
    obtain ⟨faults, state', hlength, hrest⟩ := ih (tally.add (endOf (Fault.of? answer)))
      (log ++ [abortOf bucket upload (Fault.of? answer)]) state₁
    refine ⟨Fault.of? answer :: faults, state', by simp [hlength], ?_⟩
    rw [abortAll, StateT.run_bind, Client.abortUpload, habort]
    refine hrest.trans ?_
    simp

end Aborting

/-! ## The command -/

/-- What is written about the uploads that were found. -/
def PendingState.foundText (parts : Bool) (state : PendingState) : String :=
  state.text ++ linesText (["", s!"Found {state.matched.length} pending uploads"] ++
    if parts then ["  Parts uploaded: " ++ Decimal.ByteSize.display state.partBytes.toInt] else [])

/-- What is written about the aborts. -/
def purgeText (uploads aborted : Nat) : String :=
  linesText (if uploads = 0 then []
    else [s!"Aborting {uploads} uploads...", s!"  ✅ Aborted {aborted} uploads"])

/-- How the command ends, by the faults that the aborts ended in. -/
def purgeEnd (faults : List (Option Fault)) : Except Failure Unit :=
  match faults.findSome? abortFailure? with
  | none => .ok ()
  | some error => .error (.ofError error)

theorem purgeEnd_eq_ok_iff {faults : List (Option Fault)} : purgeEnd faults = .ok () ↔
    ∀ fault, some fault ∈ faults → ∃ text, fault.toError = .notFound text := by
  rw [← findSome?_abortFailure?_eq_none_iff, purgeEnd]
  cases faults.findSome? abortFailure? <;> simp

section Purging

variable {σ : Type}

/-- What the command does once the listing was read. -/
def reportPending (client : Client σ) (bucket : String) (options : PendingOptions)
    (visited : Run.Visited PendingState) : Run σ Unit := do
  let state := visited.state
  Run.print state.text
  Run.failIf visited.failure
  Run.printLine ""
  Run.printLine s!"Found {state.matched.length} pending uploads"
  if options.parts then
    Run.printLine ("  Parts uploaded: " ++ Decimal.ByteSize.display state.partBytes.toInt)
  if options.purge && !state.matched.isEmpty then
    purge client bucket state.matched.reverse

/-- The command reads the listing and then reports. -/
theorem pending_run {machine : Machine σ} {settingsPath : Option String} {options : PendingOptions}
    {path : StorePath} {settings : Settings} {world : World σ}
    {visited : Run.Visited PendingState} {link : σ}
    (hpath : StorePath.parse options.path = .ok path)
    (hsettings : Settings.load world.files machine.around.home settingsPath = .ok settings)
    (hvisited :
      let client := Client.connect machine.link machine.around world.files settings
      let accept := fun (upload : UploadEntry) =>
        withinAge upload.time machine.now (ageBound options.age) none
      (visiting ((UploadListing.new path).source client)
        (PendingState.visit client path.bucket accept options.parts) .start).run world.link =
          (visited, link)) :
    (pending machine settingsPath options).run.run world =
      (reportPending (Client.connect machine.link machine.around world.files settings) path.bucket
        options visited).run.run { world with link } := by
  unfold pending
  rw [hpath, Run.run_ofExcept_bind, Run.run_bind_of_ok (Run.connect_run hsettings)]
  dsimp only at hvisited ⊢
  rw [visitPages_eq, Run.run_onLink_bind, hvisited]
  rfl

/-- After a listing that was read to its end the uploads are aborted. -/
theorem reportPending_run {client : Client σ} {bucket : String} {options : PendingOptions}
    (hpurge : options.purge = true) (found : PendingState) (pages : Nat) (world : World σ) :
    (reportPending client bucket options ⟨none, found, pages⟩).run.run world =
      (if !found.matched.reverse.isEmpty then purge client bucket found.matched.reverse
        else pure ()).run.run { world with out := world.out ++ found.foundText options.parts } := by
  have hfound : world.out ++ found.foundText options.parts =
      (if options.parts then
        world.out ++ found.text ++ "" ++ "\n" ++ s!"Found {found.matched.length} pending uploads" ++
          "\n" ++ ("  Parts uploaded: " ++ Decimal.ByteSize.display found.partBytes.toInt) ++ "\n"
      else
        world.out ++ found.text ++ "" ++ "\n" ++ s!"Found {found.matched.length} pending uploads" ++
          "\n") := by
    cases options.parts <;>
      simp [PendingState.foundText, linesText_cons, String.append_assoc]
  rw [hfound, List.isEmpty_reverse, reportPending, hpurge]
  cases options.parts <;> rfl

/-- The aborts and what is written about them; without uploads there is nothing of it. -/
theorem purge_run {link : Link σ} {client : Client (RequestLog × σ)}
    (hlink : client.link = link.logged) (bucket : String) (uploads : List UploadEntry)
    (world : World (RequestLog × σ)) :
    ∃ faults state, faults.length = uploads.length ∧
      ((if !uploads.isEmpty then purge client bucket uploads else pure ()).run.run world) =
        (purgeEnd faults,
          { world with
            out := world.out ++ purgeText uploads.length (faults.countP Option.isNone)
            link := (world.link.1 ++ List.zipWith (abortOf bucket) uploads faults, state) }) := by
  cases uploads with
  | nil =>
    refine ⟨[], world.link.2, rfl, ?_⟩
    have htext : world.out ++ purgeText 0 0 = world.out := String.append_empty
    change _ = (_, { world with
      out := world.out ++ purgeText 0 0, link := (world.link.1 ++ [], world.link.2) })
    rw [htext, List.append_nil]
    rfl
  | cons upload rest =>
    obtain ⟨faults, state, hlength, habort⟩ :=
      abortAll_run hlink bucket (upload :: rest) .start world.link.1 world.link.2
    rw [AbortTally.foldl_add] at habort
    refine ⟨faults, state, hlength, ?_⟩
    have hrun : (abortAll client bucket .start (upload :: rest)).run world.link = _ := habort
    rw [List.isEmpty_cons, Bool.not_false, if_pos rfl, purge, Run.run_printLine_bind,
      Run.run_onLink_bind]
    dsimp only
    rw [hrun, Run.run_printLine_bind]
    have htext : ∀ aborted, world.out ++ purgeText (upload :: rest).length aborted =
        world.out ++ s!"Aborting {(upload :: rest).length} uploads..." ++ "\n" ++
          s!"  ✅ Aborted {aborted} uploads" ++ "\n" := by
      intro aborted
      rw [purgeText, if_neg (by simp)]
      simp only [linesText_cons, linesText_nil, String.append_assoc, String.append_empty]
    rw [htext, purgeEnd, AbortTally.start, Nat.zero_add, Option.none_or]
    cases faults.findSome? abortFailure? <;> rfl

/-- For every listing, and whatever becomes of the aborts: each upload of the wanted age is aborted
once, in the order of the listing and after all of it was read. Those that were aborted are counted,
and the command fails by the first answer that was neither a success nor an upload that is gone. -/
theorem pending_aborts_each_once {machine : Machine σ} {left : σ → List UploadsReply}
    {settingsPath : Option String} {options : PendingOptions} {path : StorePath}
    {settings : Settings} {world : World (RequestLog × σ)}
    (hlists : machine.link.ListsUploads left options.parts)
    (hpath : StorePath.parse options.path = .ok path)
    (hsettings : Settings.load world.files machine.around.home settingsPath = .ok settings)
    (hpurge : options.purge = true)
    (hlisting : MakeListing ((left world.link.2).map UploadListing.pageOf))
    (hcount : (left world.link.2).length ≤ Run.allPages) :
    let uploads := (listedUploads (left world.link.2)).filter fun upload =>
      withinAge upload.time machine.now (ageBound options.age) none
    ∃ (found : PendingState) (reads : RequestLog) (faults : List (Option Fault)) (state : σ),
      found.matched.reverse = uploads ∧
      (∀ read ∈ reads, read.2 = none ∧
        (read.1.listsUploads || read.1.listsParts) = true) ∧
      reads.countP (fun read => read.1.listsUploads) = (left world.link.2).length ∧
      faults.length = uploads.length ∧
      (pending machine.logged settingsPath options).run.run world =
        (purgeEnd faults,
          { world with
            out := world.out ++ found.foundText options.parts ++
              purgeText uploads.length (faults.countP Option.isNone)
            link := (world.link.1 ++ reads ++ List.zipWith (abortOf path.bucket) uploads faults,
              state) }) ∧
      (purgeEnd faults = .ok () ↔
        ∀ fault, some fault ∈ faults → ∃ text, fault.toError = .notFound text) := by
  intro uploads
  let client := Client.connect machine.logged.link machine.logged.around world.files settings
  have hlink : client.link = machine.link.logged := rfl
  let accept (upload : UploadEntry) : Bool :=
    withinAge upload.time machine.now (ageBound options.age) none
  have hvisiting := visiting_uploads hlink hlists world.link.1 path.bucket accept (.new path)
    hlisting hcount world.link ⟨rfl, rfl⟩
  rcases hvisited : (visiting ((UploadListing.new path).source client)
    (PendingState.visit client path.bucket accept options.parts) .start).run world.link
    with ⟨⟨failure, found, pages⟩, log, state⟩
  rw [hvisited] at hvisiting
  obtain ⟨rfl, hfound, reads, rfl, hreads, hpages⟩ := hvisiting
  have hrun : (pending machine.logged settingsPath options).run.run world = _ :=
    pending_run hpath hsettings hvisited
  -- The listing is reported before the first abort is sent.
  let shown : World (RequestLog × σ) :=
    { world with
      out := world.out ++ found.foundText options.parts
      link := (world.link.1 ++ reads, state) }
  obtain ⟨faults, state', hlength, hpurged⟩ :=
    purge_run hlink path.bucket found.matched.reverse shown
  rw [reportPending_run hpurge, hpurged] at hrun
  have huploads : found.matched.reverse = uploads := hfound
  rw [huploads] at hlength hrun
  exact ⟨found, reads, faults, state', huploads, hreads, hpages, hlength, hrun,
    purgeEnd_eq_ok_iff⟩

end Purging

end Command

/-- A store that answers listings of uploads with the replies that are left. One upload is gone when
it is to be aborted, and another must not be aborted. -/
def Link.holding : Link (List UploadsReply) where
  send
    | .listUploads .. => fun
      | reply :: rest => (.ok reply, rest)
      | [] => (.error .timeout, [])
    | .listParts .. => return .ok ⟨[], none, none⟩
    | .abortUpload _ _ uploadId => return match uploadId with
      | "gone" => .error (.answered 404 (some "NoSuchUpload") none none "gone")
      | "held" => .error (.answered 403 (some "AccessDenied") none none "held")
      | _ => .ok ()
    | _ => return .error .timeout
  clock _ := ⟨0⟩

theorem Link.holding_lists : Link.holding.ListsUploads id true where
  uploads := by
    rintro bucket start limit keyMarker uploadMarker state reply rest rfl
    exact ⟨rest, rfl, rfl⟩
  parts _ bucket key uploadId limit marker state := ⟨_, state, rfl, rfl⟩

namespace Command

/-- Of four uploads on two pages the first is gone and the second must not be aborted. All four are
tried, and the command fails by the second. -/
theorem pending_aborts_each_once_refused :
    let upload (uploadId : String) : ListedUpload := ⟨some "a", some uploadId, none⟩
    let replies : List UploadsReply :=
      [⟨[upload "gone", upload "held"], some true, some "a", some "held"⟩,
        ⟨[upload "u1", upload "u2"], some false, none, none⟩]
    let world : World (RequestLog × List UploadsReply) := ⟨.empty, "", "", ([], replies)⟩
    let options : PendingOptions := ⟨"s3://b/data/", none, true, true⟩
    ∃ (found : PendingState) (reads : RequestLog) (faults : List (Option Fault))
      (state : List UploadsReply),
      (pending (Machine.plain .holding).logged none options).run.run world =
        (.error (.ofError (.permissionDenied "held")),
          { world with
            out := found.foundText true ++ purgeText 4 (faults.countP Option.isNone)
            link := (reads ++ List.zipWith (abortOf "b") found.matched.reverse faults, state) }) ∧
      found.matched.reverse.map UploadEntry.uploadId = ["gone", "held", "u1", "u2"] ∧
      faults.length = 4 := by
  intro upload replies world options
  have hlists : (Machine.plain .holding).link.ListsUploads id options.parts := Link.holding_lists
  have hpath : StorePath.parse "s3://b/data/" = .ok ⟨"b", "data/"⟩ := rfl
  have hsettings : Settings.load world.files "/home/user" none = .ok .default := rfl
  have hlisting : MakeListing (replies.map UploadListing.pageOf) := by decide +kernel
  obtain ⟨found, reads, faults, state, hfound, -, -, hlength, hrun, -⟩ :=
    pending_aborts_each_once hlists (show StorePath.parse options.path = _ from hpath) hsettings
      (show options.purge = true from rfl) hlisting (by decide)
  have hfails : (match ((pending (Machine.plain .holding).logged none options).run.run world).1 with
      | .ok _ => none
      | .error failure => some failure) = some (.ofError (.permissionDenied "held")) := by
    decide +kernel
  have hend : purgeEnd faults = .error (.ofError (.permissionDenied "held")) := by
    rw [hrun] at hfails
    cases hend : purgeEnd faults with
    | ok _ =>
      rw [hend] at hfails
      cases hfails
    | error failure =>
      rw [hend] at hfails
      rw [Option.some.inj hfails]
  rw [hend] at hrun
  refine ⟨found, reads, faults, state, ?_, ?_, hlength⟩
  · rw [hfound]
    exact hrun
  · rw [hfound]
    rfl

end Command

end BucketCare

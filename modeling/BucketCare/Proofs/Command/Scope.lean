import BucketCare.Command.Program
import BucketCare.Proofs.Command.Visiting

/-!
# What the commands on versions and pending uploads may change

Pruning, undeleting, restoring and aborting are asked for below a path. What belongs to a path is
its own key and the keys below it, that is below its folder. But versions and pending uploads are
listed by the key of the path as it is written, and what is listed is changed: with a store that
lists by the start of keys, all that is changed begins with the key of the path. That is enough
where the path is written as a folder, with a slash at its end, or is a whole bucket. A path that is
written without the slash takes in whatever merely begins like it, and `data` reaches `data2/a`.

## Main definitions

* `Request.changes` — the keys that a request changes
* `StorePath.Owns` — a key belongs to a path
* `Link.ListsByStart` — a store that lists by the start of keys
* `Command.Action.requests` — the requests that a command sends
* `Link.shelf` — a store that holds some versions, delete markers and pending uploads

## Main results

* `Command.Action.requests_begin_with_key` — what is changed begins with the key of the path, and
  belongs to the path where that is written as a folder
* `Command.Action.requests_beyond_path` — it need not belong to any other path
-/

namespace BucketCare

/-- A key begins with a text. -/
def BeginsWith (start key : String) : Prop := start.toList <+: key.toList

instance (start key : String) : Decidable (BeginsWith start key) :=
  inferInstanceAs (Decidable (start.toList <+: key.toList))

/-- A key belongs to a path: it is the key of the path, or it lies below the path. -/
def StorePath.Owns (path : StorePath) (key : String) : Prop :=
  key = path.key ∨ BeginsWith path.folder key

instance (path : StorePath) (key : String) : Decidable (path.Owns key) :=
  inferInstanceAs (Decidable (key = path.key ∨ BeginsWith path.folder key))

/-- The keys of the objects, versions and pending uploads that a request changes. -/
def Request.changes : Request → List String
  | .deleteObjects _ objects => objects.map Candidate.key
  | .copyObject _ key _ | .putObject _ key .. | .createUpload _ key _ | .uploadPart _ key ..
  | .completeUpload _ key .. | .abortUpload _ key _ => [key]
  | _ => []

/-- All that a request changes begins with a text. -/
def Request.StaysIn (start : String) (request : Request) : Prop :=
  ∀ key ∈ request.changes, BeginsWith start key

/-- A link to a store that lists what begins with the text that is asked for, and nothing else. -/
structure Link.ListsByStart {σ : Type} (link : Link σ) : Prop where
  versions : ∀ {bucket start limit keyMarker versionMarker reply},
    link.Answers (.listVersions bucket start limit keyMarker versionMarker) reply →
      ∀ listed ∈ reply.versions ++ reply.markers,
        ∃ key, listed.key = some key ∧ BeginsWith start key
  uploads : ∀ {bucket start limit keyMarker uploadMarker reply},
    link.Answers (.listUploads bucket start limit keyMarker uploadMarker) reply →
      ∀ listed ∈ reply.uploads, ∃ key, listed.key = some key ∧ BeginsWith start key

/-! ## Listings and requests -/

section Listings

variable {σ : Type} {link : Link σ} {client : Client (List Request × σ)}

/-- The pages of a listing hold what the link lists, where it is allowed to ask. -/
theorem VersionListing.source_gives {allowed : Request → Prop} {listed : VersionEntry → Prop}
    (hlink : client.link = link.recorded) (listing : VersionListing)
    (hallowed : ∀ limit keyMarker versionMarker,
      allowed (.listVersions listing.bucket listing.start limit keyMarker versionMarker))
    (hlists : ∀ {limit keyMarker versionMarker reply},
      link.Answers (.listVersions listing.bucket listing.start limit keyMarker versionMarker)
        reply → ∀ entry ∈ (pageOf reply).content, listed entry) :
    (listing.source client).Gives (Sent allowed) fun entries =>
      ∀ entry ∈ entries, listed entry := by
  intro token
  unfold VersionListing.source
  refine (Client.keeps_request hlink (hallowed _ _ _)).bind ?_
  intro answer hanswer
  apply Keeps.pure
  cases answer with
  | error e => exact nofun
  | ok reply =>
    rintro page hpage entry hentry
    obtain rfl := Except.ok.inj hpage
    exact hlists (hanswer reply rfl) entry hentry

/-- The entries of a page are those of its reply. -/
theorem VersionListing.mem_pageOf {reply : VersionsReply} {entry : VersionEntry} :
    entry ∈ (pageOf reply).content ↔
      entry ∈ reply.versions.map versionEntry ++ reply.markers.map markerEntry :=
  (List.mergeSort_perm _ _).mem_iff

theorem Link.ListsByStart.begins (hlists : link.ListsByStart)
    {bucket start : String} {limit : Int} {keyMarker versionMarker : Option String}
    {reply : VersionsReply}
    (h : link.Answers (.listVersions bucket start limit keyMarker versionMarker) reply) :
    ∀ entry ∈ (VersionListing.pageOf reply).content, BeginsWith start entry.key := by
  intro entry hentry
  have hall := hlists.versions h
  rcases List.mem_append.mp (VersionListing.mem_pageOf.mp hentry) with hlisted | hlisted
  · obtain ⟨listed, hmem, rfl⟩ := List.mem_map.mp hlisted
    obtain ⟨key, hkey, hbegins⟩ := hall listed (List.mem_append_left _ hmem)
    simpa [VersionListing.versionEntry, hkey] using hbegins
  · obtain ⟨listed, hmem, rfl⟩ := List.mem_map.mp hlisted
    obtain ⟨key, hkey, hbegins⟩ := hall listed (List.mem_append_right _ hmem)
    simpa [VersionListing.markerEntry, hkey] using hbegins

theorem UploadListing.source_gives (hlink : client.link = link.recorded)
    (hlists : link.ListsByStart) {start : String} (listing : UploadListing) :
    (listing.source client).Gives (Sent (Request.StaysIn start))
      (fun uploads => ∀ upload ∈ uploads, BeginsWith listing.start upload.key) := by
  intro token
  unfold UploadListing.source
  refine (Client.keeps_request hlink nofun).bind ?_
  intro answer hanswer
  apply Keeps.pure
  cases answer with
  | error e => exact nofun
  | ok reply =>
    rintro page hpage upload hupload
    obtain rfl := Except.ok.inj hpage
    obtain ⟨listed, hmem, rfl⟩ := List.mem_map.mp hupload
    obtain ⟨key, hkey, hbegins⟩ := hlists.uploads (hanswer reply rfl) listed hmem
    simpa [entry, hkey] using hbegins

theorem PartListing.source_gives (hlink : client.link = link.recorded) {start : String}
    (listing : PartListing) :
    (listing.source client).Gives (Sent (Request.StaysIn start)) (fun _ => True) := by
  intro token
  unfold PartListing.source
  exact (Client.keeps_request hlink nofun).bind fun _ _ => .pure fun _ _ => trivial

/-- A request that changes one key. -/
theorem Client.keeps_change (hlink : client.link = link.recorded) {request : Request}
    {start key : String} (hchanges : request.changes = [key]) (hkey : BeginsWith start key) :
    Keeps (Sent (Request.StaysIn start)) (fun _ => True) (client.request request).run := by
  refine (Client.keeps_request hlink ?_).mono fun _ _ => trivial
  intro other hother
  rw [hchanges, List.mem_singleton] at hother
  rwa [hother]

/-- A deletion is sent where it is allowed for its candidates. -/
theorem Client.deleter_takes {allowed : Request → Prop} {good : Candidate → Prop}
    (hlink : client.link = link.recorded) (bucket : String)
    (h : ∀ objects, (∀ candidate ∈ objects, good candidate) →
      allowed (.deleteObjects bucket objects)) :
    (client.deleter bucket).Takes (Sent allowed) good := by
  intro batch hbatch
  unfold Client.deleter
  split
  · exact .pure trivial
  exact (Client.keeps_request hlink (h batch hbatch)).bind fun _ _ => .pure trivial

/-- A deletion changes the keys of its candidates. -/
theorem Request.deleteObjects_staysIn (bucket start : String) (objects : List Candidate)
    (h : ∀ candidate ∈ objects, BeginsWith start candidate.key) :
    (Request.deleteObjects bucket objects).StaysIn start := by
  intro key hkey
  obtain ⟨candidate, hmem, rfl⟩ := List.mem_map.mp hkey
  exact h candidate hmem

end Listings

namespace Command

variable {σ : Type}

theorem chooseDeleter_takes {link : Link σ} {client : Client (List Request × σ)}
    {allowed : Request → Prop} {good : Candidate → Prop} (hlink : client.link = link.recorded)
    (bucket : String) (dryRun : Bool)
    (h : ∀ objects, (∀ candidate ∈ objects, good candidate) →
      allowed (.deleteObjects bucket objects)) :
    (chooseDeleter client bucket dryRun).Takes (Sent allowed) good := by
  unfold chooseDeleter
  split
  · exact Deleter.dryRun_takes
  · exact client.deleter_takes hlink bucket h

/-! ## The commands

Each command lists what begins with the key of its path, and what it deletes, copies or aborts was
listed. Its other steps print, write files or fail, and send nothing. -/

/-- A machine with a link and nothing else around it. -/
def Machine.plain (link : Link σ) : Machine σ where
  around := ⟨"/home/user", []⟩
  link
  now := ⟨0⟩
  freshName := "session"
  seed := 0
  interrupt := none
  edit := fun _ _ files => (.done, files)

/-- The same machine with a link that keeps a list of the requests it carried. -/
def Machine.recorded (machine : Machine σ) : Machine (List Request × σ) :=
  { machine with link := machine.link.recorded }

variable {machine : Machine σ} {path : StorePath}

section Deleting

variable {inv : List Request × σ → Prop} {listed : VersionEntry → Prop} {good : Candidate → Prop}

/-- What a listing of versions deletes is good when that can be pruned which is listed. -/
theorem keeps_listVersions (settingsPath : Option String) {options : VersionOptions}
    (hpath : StorePath.parse options.path = .ok path)
    (hsource : ∀ client : Client (List Request × σ), client.link = machine.link.recorded →
      ((VersionListing.new path).source client).Gives inv fun entries =>
        ∀ entry ∈ entries, listed entry)
    (hdeletes : ∀ client : Client (List Request × σ), client.link = machine.link.recorded →
      (chooseDeleter client path.bucket options.dryRun).Takes inv good)
    (hgood : ∀ entry, listed entry → entry.isPrunable = true → good entry.candidate) :
    Run.Keeps inv (fun _ => True) (listVersions machine.recorded settingsPath options) := by
  unfold listVersions
  refine Run.Keeps.onPath hpath ?_
  rintro ⟨settings, client⟩ hlink
  refine (Run.Keeps.ofExcept _).bind fun separator _ => ?_
  refine (keeps_openOut _).bind fun _ _ => ?_
  refine (keeps_openReport _ _).bind fun csv _ => ?_
  extract_lets deleter proceed
  have hdeleter := hdeletes client hlink
  -- Whatever is gathered at first, what is gathered and deleted later was listed.
  have hproceed : ∀ start : VersionState, start.Holds good →
      Run.Keeps inv (fun _ => True) (proceed start) := by
    intro start hstart
    refine (Run.Keeps.visitPages (hsource client hlink) (fun entries state hentries hstate =>
      hstate.visit hdeleter _ fun entry hentry => hgood entry (hentries entry hentry))
      hstart).bind ?_
    intro visited hvisited
    extract_lets state report
    have hreport : ∀ deleted, Run.Keeps inv (fun _ => True) (report deleted) := by
      intro deleted
      cases deleted with
      | error e =>
        exact (keeps_deliverReport _ _).bind fun _ _ => (keeps_deliver _ _).bind fun _ _ => .fail e
      | ok deleted =>
        exact (keeps_deliver _ _).bind fun _ _ => (keeps_deliverReport _ _).bind fun _ _ =>
          .printSummary _
    split
    next e _ => exact hreport (.error e)
    · exact (keeps_finishBatcher hdeleter hvisited).bind fun deleted _ => hreport deleted
  split
  · exact hproceed _ nofun
  next batcher hbatcher =>
    refine hproceed _ ?_
    rintro held hheld
    obtain rfl := Option.some.inj hheld
    exact Batcher.holds_of_new hbatcher
  · exact (keeps_deliverReport _ _).bind fun _ _ => (Run.Keeps.fail _).bind hproceed

/-- What undeleting deletes is good when that can be undeleted which is listed. -/
theorem keeps_undelete (settingsPath : Option String) {options : UndeleteOptions}
    (hpath : StorePath.parse options.path = .ok path)
    (hsource : ∀ client : Client (List Request × σ), client.link = machine.link.recorded →
      ((VersionListing.new path).source client).Gives inv fun entries =>
        ∀ entry ∈ entries, listed entry)
    (hdeletes : ∀ client : Client (List Request × σ), client.link = machine.link.recorded →
      (chooseDeleter client path.bucket options.dryRun).Takes inv good)
    (hgood : ∀ entry, listed entry → entry.isUndeletable = true → good entry.candidate) :
    Run.Keeps inv (fun _ => True) (Command.undelete machine.recorded settingsPath options) := by
  unfold Command.undelete
  refine Run.Keeps.onPath hpath ?_
  rintro ⟨settings, client⟩ hlink
  have hdeleter := hdeletes client hlink
  refine (Run.Keeps.ofExcept _).bind fun batcher hbatcher => ?_
  refine (Run.Keeps.printLine _).bind fun _ _ => ?_
  refine (Run.Keeps.visitPages (hsource client hlink) (fun entries state hentries hstate =>
    UndeleteState.Holds.visit hdeleter _ _
      (fun entry hentry => hgood entry (hentries entry hentry)) hstate)
    (Batcher.holds_of_new hbatcher)).bind ?_
  intro visited hvisited
  refine (Run.Keeps.print _).bind fun _ _ => ?_
  refine (Run.Keeps.failIf _).bind fun _ _ => ?_
  refine (Run.Keeps.onLink (Batcher.Holds.finish hdeleter hvisited)).bind fun answer _ => ?_
  refine (Run.Keeps.ofExcept answer).bind fun summary _ => ?_
  split
  · exact .printLine _
  · exact .printLine _

end Deleting

theorem keeps_restore (hlists : machine.link.ListsByStart) (schedule : CopySchedule)
    (settingsPath : Option String) {options : RestoreOptions}
    (hpath : StorePath.parse options.path = .ok path) :
    Run.Keeps (Sent (Request.StaysIn path.key)) (fun _ => True)
      (Command.restore schedule machine.recorded settingsPath options) := by
  unfold Command.restore
  refine Run.Keeps.onPath hpath ?_
  rintro ⟨settings, client⟩ hlink
  have hcopy : ∀ target : RestoreTarget, BeginsWith path.key target.key →
      Keeps (Sent (Request.StaysIn path.key)) (fun _ => True)
        (client.copyVersion path.bucket target.key target.version).run :=
    fun target htarget => client.keeps_change hlink rfl htarget
  refine (Run.Keeps.printLine _).bind fun _ _ => ?_
  refine (Run.Keeps.visitPages
    (VersionListing.source_gives hlink (.new path) (fun _ _ _ => nofun) hlists.begins)
    (fun entries state hentries hstate => RestoreState.Holds.visit hcopy _ _ _ _
      (fun entry hentry _ => hentries entry hentry) hstate)
    RestoreState.holds_start).bind ?_
  intro visited hvisited
  refine (Run.Keeps.print _).bind fun _ _ => ?_
  refine (Run.Keeps.failIf _).bind fun _ _ => ?_
  refine (Run.Keeps.onLink (hvisited.copies.run hcopy _)).bind fun _ _ => ?_
  split
  · exact .printLine _
  refine (Run.Keeps.printLine _).bind fun _ _ => ?_
  split
  · exact .pure trivial
  · exact (Run.Keeps.printLine _).bind fun _ _ => .fail _

theorem keeps_pending (hlists : machine.link.ListsByStart) (settingsPath : Option String)
    {options : PendingOptions} (hpath : StorePath.parse options.path = .ok path) :
    Run.Keeps (Sent (Request.StaysIn path.key)) (fun _ => True)
      (Command.pending machine.recorded settingsPath options) := by
  unfold Command.pending
  refine Run.Keeps.onPath hpath ?_
  rintro ⟨settings, client⟩ hlink
  have habort : ∀ upload : UploadEntry, BeginsWith path.key upload.key →
      Keeps (Sent (Request.StaysIn path.key)) (fun _ => True)
        (client.abortUpload path.bucket upload.key upload.uploadId).run :=
    fun upload hupload => client.keeps_change hlink rfl hupload
  refine (Run.Keeps.visitPages (UploadListing.source_gives hlink hlists _)
    (fun uploads state huploads hstate => PendingState.Holds.visit
      (PartListing.source_gives hlink) _ _ huploads hstate) PendingState.holds_start).bind ?_
  intro visited hvisited
  refine (Run.Keeps.print _).bind fun _ _ => ?_
  refine (Run.Keeps.failIf _).bind fun _ _ => ?_
  refine (Run.Keeps.printLine _).bind fun _ _ => ?_
  refine (Run.Keeps.printLine _).bind fun _ _ => ?_
  extract_lets abort
  have hdone : Run.Keeps (Sent (Request.StaysIn path.key)) (fun _ => True) (abort ()) := by
    simp only [abort]
    split
    · refine (Run.Keeps.printLine _).bind fun _ _ => ?_
      have hmatched : ∀ upload ∈ visited.state.matched.reverse, BeginsWith path.key upload.key :=
        fun upload hupload => hvisited upload (List.mem_reverse.mp hupload)
      refine (Run.Keeps.onLink (keeps_abortAll habort hmatched _)).bind fun tally _ => ?_
      exact (Run.Keeps.printLine _).bind fun _ _ => .failIf _
    · exact .pure trivial
  split
  · exact (Run.Keeps.printLine _).bind fun _ _ => hdone
  · exact hdone

/-- The place below which a command lists versions or pending uploads, as it is written. -/
def Action.place? : Action → Option String
  | .versions options => some options.path
  | .undelete options => some options.path
  | .restore options => some options.path
  | .pending options => some options.path
  | _ => none

/-- The requests that a command sends when it runs in a world. -/
def Action.requests (machine : Machine σ) (settingsPath : Option String) (action : Action)
    (world : World σ) : List Request :=
  ((action.run machine.recorded settingsPath).run.run
    ⟨world.files, world.out, world.notes, ([], world.link)⟩).2.link.1

theorem Action.keeps_run (hlists : machine.link.ListsByStart) (settingsPath : Option String)
    {action : Action} {uri : String} (haction : action.place? = some uri)
    (hpath : StorePath.parse uri = .ok path) :
    Run.Keeps (Sent (Request.StaysIn path.key)) (fun _ => True)
      (action.run machine.recorded settingsPath) := by
  have hsource : ∀ client : Client (List Request × σ), client.link = machine.link.recorded →
      ((VersionListing.new path).source client).Gives (Sent (Request.StaysIn path.key)) _ :=
    fun client hlink =>
      VersionListing.source_gives hlink (.new path) (fun _ _ _ => nofun) hlists.begins
  have hdeletes : ∀ dryRun, ∀ client : Client (List Request × σ),
      client.link = machine.link.recorded →
      (chooseDeleter client path.bucket dryRun).Takes (Sent (Request.StaysIn path.key)) _ :=
    fun dryRun client hlink => chooseDeleter_takes hlink path.bucket dryRun
      (Request.deleteObjects_staysIn path.bucket path.key)
  cases action with
  | versions options =>
    obtain rfl := Option.some.inj haction
    exact keeps_listVersions settingsPath hpath hsource (hdeletes _) fun entry h _ => h
  | undelete options =>
    obtain rfl := Option.some.inj haction
    exact keeps_undelete settingsPath hpath hsource (hdeletes _) fun entry h _ => h
  | restore options =>
    obtain rfl := Option.some.inj haction
    exact keeps_restore hlists .atOnce settingsPath hpath
  | pending options =>
    obtain rfl := Option.some.inj haction
    exact keeps_pending hlists settingsPath hpath
  | _ => cases haction

/-- With a store that lists by the start of keys, all that a command on versions or pending uploads
changes begins with the key of its path. It belongs to the path where that is written as a folder or
is a whole bucket. -/
theorem Action.requests_begin_with_key (hlists : machine.link.ListsByStart)
    (settingsPath : Option String) (action : Action) (uri : String)
    (haction : action.place? = some uri) (hpath : StorePath.parse uri = .ok path)
    (world : World σ) :
    ∀ request ∈ action.requests machine settingsPath world, ∀ key ∈ request.changes,
      BeginsWith path.key key ∧ (path.folder = path.key → path.Owns key) := by
  intro request hrequest key hkey
  obtain ⟨-, hsent⟩ := Action.keeps_run hlists settingsPath haction hpath
    ⟨world.files, world.out, world.notes, ([], world.link)⟩ nofun
  have hbegins : BeginsWith path.key key := hsent request hrequest key hkey
  refine ⟨hbegins, ?_⟩
  intro hfolder
  exact .inr (hfolder ▸ hbegins)

end Command

/-- A listed key begins with a text. -/
def listedBy (start : String) : Option String → Bool
  | some key => BeginsWith start key
  | none => false

theorem exists_of_listedBy {start : String} {key : Option String} (h : listedBy start key = true) :
    ∃ found, key = some found ∧ BeginsWith start found := by
  cases key with
  | none => cases h
  | some found => exact ⟨found, rfl, of_decide_eq_true h⟩

/-- A store that holds some versions, delete markers and pending uploads. It lists exactly those
whose key begins with the text that is asked for, and does what else the commands on them ask. -/
def Link.shelf (versions markers : List ListedVersion) (uploads : List ListedUpload) :
    Link Unit where
  send
    | .listVersions _ start .. => return .ok ⟨versions.filter (listedBy start ·.key),
        markers.filter (listedBy start ·.key), some false, none, none⟩
    | .listUploads _ start .. =>
      return .ok ⟨uploads.filter (listedBy start ·.key), some false, none, none⟩
    | .copyObject .. => return .ok ()
    | .abortUpload .. => return .ok ()
    | .deleteObjects .. => return .ok []
    | _ => return .error .timeout
  clock _ := ⟨0⟩

theorem Link.shelf_listsByStart (versions markers : List ListedVersion)
    (uploads : List ListedUpload) : (Link.shelf versions markers uploads).ListsByStart where
  versions := by
    rintro bucket start limit keyMarker versionMarker reply ⟨state, hreply⟩ listed hlisted
    obtain rfl := Except.ok.inj hreply
    rw [← List.filter_append] at hlisted
    exact exists_of_listedBy (List.mem_filter.mp hlisted).2
  uploads := by
    rintro bucket start limit keyMarker uploadMarker reply ⟨state, hreply⟩ listed hlisted
    obtain rfl := Except.ok.inj hreply
    exact exists_of_listedBy (List.mem_filter.mp hlisted).2

namespace Command

/-- A machine with a store that holds a delete marker below `data2/`, and pending uploads below
`data/` and `data2/`. -/
def Machine.twoFolders : Machine Unit where
  around := ⟨"/home/user", []⟩
  link := .shelf [] [⟨some "data2/a", some "m1", none, none, some true⟩]
    [⟨some "data/part", some "u1", none⟩, ⟨some "data2/part", some "u2", none⟩]
  now := ⟨0⟩
  freshName := "session"
  seed := 0
  interrupt := none
  edit := fun _ _ files => (.done, files)

/-- What prunes, undeletes and aborts below a place. -/
def clearingActions (uri : String) : List Action :=
  [.versions ⟨uri, none, none, none, false, false, none, none, none, true, false, none⟩,
    .undelete ⟨uri, none, false, none⟩, .pending ⟨uri, none, true, false⟩]

/-- Below `data2/`, which is written as a folder, each of the commands changes something, and all
that they change belongs to the path. -/
theorem Action.requests_begin_with_key_of_folder :
    let path : StorePath := ⟨"b", "data2/"⟩
    let world : World Unit := ⟨.empty, "", "", ()⟩
    Machine.twoFolders.link.ListsByStart ∧ StorePath.parse "s3://b/data2/" = .ok path ∧
      path.folder = path.key ∧ ∀ action ∈ clearingActions "s3://b/data2/",
        let requests := action.requests .twoFolders none world
        requests.flatMap Request.changes ≠ [] ∧
          ∀ request ∈ requests, ∀ key ∈ request.changes, path.Owns key := by
  intro path world
  have hlists : Machine.twoFolders.link.ListsByStart := Link.shelf_listsByStart _ _ _
  have hpath : StorePath.parse "s3://b/data2/" = .ok path := rfl
  have hfolder : path.folder = path.key := by decide
  have hplace : ∀ action ∈ clearingActions "s3://b/data2/",
      action.place? = some "s3://b/data2/" := by decide
  have hsome : ∀ action ∈ clearingActions "s3://b/data2/",
      (action.requests .twoFolders none world).flatMap Request.changes ≠ [] := by decide +kernel
  refine ⟨hlists, hpath, hfolder, ?_⟩
  intro action haction requests
  refine ⟨hsome action haction, ?_⟩
  intro request hrequest key hkey
  exact (Action.requests_begin_with_key hlists none action _ (hplace action haction) hpath world
    request hrequest key hkey).2 hfolder

/-- Below `data`, which is not written as a folder, each of them changes something below `data2/`,
which does not belong to the path. -/
theorem Action.requests_beyond_path :
    let path : StorePath := ⟨"b", "data"⟩
    let world : World Unit := ⟨.empty, "", "", ()⟩
    Machine.twoFolders.link.ListsByStart ∧ StorePath.parse "s3://b/data" = .ok path ∧
      ∀ action ∈ clearingActions "s3://b/data", action.place? = some "s3://b/data" ∧
        ∃ request ∈ action.requests .twoFolders none world,
          ∃ key ∈ request.changes, ¬path.Owns key :=
  ⟨Link.shelf_listsByStart _ _ _, rfl, by decide +kernel⟩

end Command

end BucketCare

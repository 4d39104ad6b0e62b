import BucketCare.Proofs.Command.Outputs

/-!
# Which version a deletion names

Pruning and undeleting delete entries of a listing, and a deletion without a version deletes the
key itself. An entry is deleted by the name it was listed with: what is sent are the candidates of
listed entries that can be removed. So each names its version when the store names the versions it
lists. But neither the choice of entries nor the candidate made of one looks at the version. Of an
entry that is listed without one, the current object is deleted instead.

## Main definitions

* `Link.ListsEntry` — a store lists an entry
* `Command.Action.removes?` — which entries a command removes

## Main results

* `Command.Action.deletions_name_versions` — what is deleted was listed, and names its version when
  the store does
* `Command.Action.deletions_without_version` — otherwise the key itself is deleted
-/

namespace BucketCare

/-- A link lists an entry of a bucket among those that begin with a text. -/
def Link.ListsEntry {σ : Type} (link : Link σ) (bucket start : String) (entry : VersionEntry) :
    Prop :=
  ∃ limit keyMarker versionMarker reply,
    link.Answers (.listVersions bucket start limit keyMarker versionMarker) reply ∧
      entry ∈ (VersionListing.pageOf reply).content

/-- What a request deletes is in a bucket and satisfies a condition. -/
def Request.Deletes (bucket : String) (good : Candidate → Prop) (request : Request) : Prop :=
  ∀ deletion, request.deletion? = some deletion →
    deletion.1 = bucket ∧ ∀ candidate ∈ deletion.2, good candidate

theorem Request.deletes_of_none {bucket : String} {good : Candidate → Prop} {request : Request}
    (h : request.deletion? = none) : request.Deletes bucket good := by
  intro deletion hdeletion
  rw [h] at hdeletion
  cases hdeletion

theorem Request.deletes_deleteObjects (bucket : String) {good : Candidate → Prop}
    (objects : List Candidate) (h : ∀ candidate ∈ objects, good candidate) :
    (Request.deleteObjects bucket objects).Deletes bucket good := by
  intro deletion hdeletion
  obtain rfl := Option.some.inj hdeletion
  exact ⟨rfl, h⟩

namespace Command

variable {σ : Type} {machine : Machine σ} {path : StorePath}

/-- Which of the entries that it lists a command removes. -/
def Action.removes? : Action → Option (VersionEntry → Bool)
  | .versions _ => some VersionEntry.isPrunable
  | .undelete _ => some VersionEntry.isUndeletable
  | _ => none

/-- A candidate names an entry that was listed and that can be removed. -/
def NamesListed (link : Link σ) (path : StorePath) (removes : VersionEntry → Bool)
    (candidate : Candidate) : Prop :=
  ∃ entry, link.ListsEntry path.bucket path.key entry ∧ removes entry = true ∧
    candidate = entry.candidate

theorem Action.keeps_naming (settingsPath : Option String) {action : Action} {uri : String}
    {removes : VersionEntry → Bool} (hremoves : action.removes? = some removes)
    (hplace : action.place? = some uri) (hpath : StorePath.parse uri = .ok path) :
    Run.Keeps
      (Sent (Request.Deletes path.bucket (NamesListed machine.link path removes))) (fun _ => True)
      (action.run machine.recorded settingsPath) := by
  have hsource : ∀ client : Client (List Request × σ), client.link = machine.link.recorded →
      ((VersionListing.new path).source client).Gives
        (Sent (Request.Deletes path.bucket (NamesListed machine.link path removes)))
        fun entries => ∀ entry ∈ entries, machine.link.ListsEntry path.bucket path.key entry :=
    fun client hlink => VersionListing.source_gives hlink (.new path)
      (fun _ _ _ => Request.deletes_of_none rfl)
      (fun hanswers entry hentry => ⟨_, _, _, _, hanswers, hentry⟩)
  have hdeletes : ∀ dryRun, ∀ client : Client (List Request × σ),
      client.link = machine.link.recorded →
      (chooseDeleter client path.bucket dryRun).Takes
        (Sent (Request.Deletes path.bucket (NamesListed machine.link path removes))) _ :=
    fun dryRun client hlink => chooseDeleter_takes hlink path.bucket dryRun
      (Request.deletes_deleteObjects path.bucket)
  cases action with
  | versions options =>
    obtain rfl := Option.some.inj hplace
    obtain rfl := Option.some.inj hremoves
    exact keeps_listVersions settingsPath hpath hsource (hdeletes _)
      fun entry hlisted hprunable => ⟨entry, hlisted, hprunable, rfl⟩
  | undelete options =>
    obtain rfl := Option.some.inj hplace
    obtain rfl := Option.some.inj hremoves
    exact keeps_undelete settingsPath hpath hsource (hdeletes _)
      fun entry hlisted hundeletable => ⟨entry, hlisted, hundeletable, rfl⟩
  | _ => cases hremoves

/-- Whatever pruning or undeleting deletes, it is listed and can be removed, and it is deleted by
the name it is listed with. So no deletion is one of a key itself when the store names the versions
of what it lists. -/
theorem Action.deletions_name_versions (settingsPath : Option String) (action : Action)
    (uri : String) (removes : VersionEntry → Bool) (hremoves : action.removes? = some removes)
    (hplace : action.place? = some uri) (hpath : StorePath.parse uri = .ok path)
    (hnames : ∀ entry, machine.link.ListsEntry path.bucket path.key entry →
      removes entry = true → entry.version.isSome = true)
    (world : World σ) :
    ∀ deletion ∈ deletions (action.requests machine settingsPath world),
      deletion.1 = path.bucket ∧ ∀ candidate ∈ deletion.2,
        NamesListed machine.link path removes candidate ∧ candidate.version.isSome = true := by
  intro deletion hdeletion
  obtain ⟨request, hrequest, hdeletes⟩ := List.mem_filterMap.mp hdeletion
  obtain ⟨-, hsent⟩ := Action.keeps_naming settingsPath hremoves hplace hpath
    ⟨world.files, world.out, world.notes, ([], world.link)⟩ nofun
  obtain ⟨hbucket, hall⟩ := hsent request hrequest deletion hdeletes
  refine ⟨hbucket, ?_⟩
  intro candidate hcandidate
  obtain ⟨entry, hlisted, hremoved, rfl⟩ := hall candidate hcandidate
  exact ⟨⟨entry, hlisted, hremoved, rfl⟩, hnames entry hlisted hremoved⟩

/-- Pruning and undeleting below `data/`. -/
def removingActions : List Action :=
  [.versions ⟨"s3://b/data/", none, none, none, false, false, none, none, none, true, false, none⟩,
    .undelete ⟨"s3://b/data/", none, false, none⟩]

/-- A delete marker that is listed with its version is deleted by that name. -/
theorem Action.deletions_name_versions_of_marker :
    let link := Link.shelf [] [⟨some "data/a", some "m1", none, none, some true⟩] []
    let world : World Unit := ⟨.empty, "", "", ()⟩
    ∀ action ∈ removingActions,
      let deleted := deletions (action.requests (.plain link) none world)
      deleted = [("b", [⟨"data/a", some "m1"⟩])] ∧
        ∀ deletion ∈ deleted, ∀ candidate ∈ deletion.2, candidate.version.isSome = true := by
  intro link world action haction deleted
  have hpath : StorePath.parse "s3://b/data/" = .ok ⟨"b", "data/"⟩ := rfl
  have hplace : ∀ action ∈ removingActions, action.place? = some "s3://b/data/" := by decide
  have hdeleted : ∀ action ∈ removingActions,
      deletions (action.requests (.plain link) none world) = [("b", [⟨"data/a", some "m1"⟩])] := by
    decide +kernel
  obtain ⟨removes, hremoves⟩ : ∃ removes, action.removes? = some removes := by
    rcases List.mem_cons.mp haction with rfl | haction
    · exact ⟨_, rfl⟩
    · obtain rfl := List.mem_singleton.mp haction
      exact ⟨_, rfl⟩
  have hnames : ∀ entry, link.ListsEntry "b" "data/" entry → removes entry = true →
      entry.version.isSome = true := by
    rintro entry ⟨limit, keyMarker, versionMarker, reply, ⟨state, hreply⟩, hentry⟩ -
    obtain rfl := Except.ok.inj hreply
    have hall : ∀ entry ∈ [VersionEntry.mk "data/a" (some "m1") 0 none true true],
        entry.version.isSome = true := by decide
    exact hall entry (VersionListing.mem_pageOf.mp hentry)
  refine ⟨hdeleted action haction, ?_⟩
  intro deletion hdeletion candidate hcandidate
  exact ((Action.deletions_name_versions none action _ removes hremoves (hplace action haction)
    hpath hnames world deletion hdeletion).2 candidate hcandidate).2

/-- Of a delete marker that is listed without a version, the key itself is deleted. -/
theorem Action.deletions_without_version :
    let link := Link.shelf [] [⟨some "data/a", none, none, none, some true⟩] []
    let world : World Unit := ⟨.empty, "", "", ()⟩
    ∀ action ∈ removingActions,
      deletions (action.requests (.plain link) none world) = [("b", [⟨"data/a", none⟩])] := by
  decide +kernel

end Command

end BucketCare

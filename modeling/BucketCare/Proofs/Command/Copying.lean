import BucketCare.Proofs.Command.Outputs
import BucketCare.Proofs.Command.Replies
import BucketCare.Proofs.Version.Copying
import BucketCare.Proofs.Version.Restoring

/-!
# Copying objects back

The command that restores objects copies while it still lists. What it copies are the targets of the
whole listing, each once, in whatever order the copies are sent and end: no copy keeps another one
from being made. When all have ended the command counts the copies that succeeded and those that
failed, and if any failed it fails by the one of them that ended first. On trial it copies nothing,
and it finds the same targets.

## Main definitions

* `Link.ListsVersions` — a store that answers listings of versions with some replies
* `RestorePlanner.found` — the targets of some entries
* `RestoreState.Plans` — what a restore has come to when it has read some entries
* `RestoreState.Reads` — how it stands while the listing is read
* `restoring` — what a restore asks of the store

## Main results

* `RestoreState.visit_leads` — what a page adds
* `restore_copies_each_once` — the command
-/

namespace BucketCare

/-- A link to a store that answers listings of versions with some replies, whatever is copied in
between. Copies it may answer in any way. -/
structure Link.ListsVersions {σ : Type} (link : Link σ) (left : σ → List VersionsReply) : Prop where
  lists : ∀ bucket start limit keyMarker versionMarker state reply rest,
    left state = reply :: rest →
    ∃ state', (link.send (.listVersions bucket start limit keyMarker versionMarker)).run state =
      (.ok reply, state') ∧ left state' = rest
  copies : ∀ bucket key source state,
    left ((link.send (.copyObject bucket key source)).run state).2 = left state

/-- A request copies an object. -/
def Request.copies : Request → Bool
  | .copyObject .. => true
  | _ => false

/-- A request is for a page of versions. -/
def Request.listsVersions : Request → Bool
  | .listVersions .. => true
  | _ => false

/-- The copies among what was carried. -/
def copiesIn (log : RequestLog) : RequestLog := log.filter fun record => record.1.copies

/-- The record of a copy. -/
def copyOf (bucket : String) (target : RestoreTarget) (fault : Option Fault) :
    Request × Option Fault :=
  (.copyObject bucket target.key (copySource bucket target.key (some target.version)), fault)

/-! ## The targets of a listing -/

namespace RestorePlanner

/-- The targets of some entries. -/
def found (accept : VersionEntry → Bool) (entries : List VersionEntry) : List RestoreTarget :=
  (entries.foldl (observe accept) new).targets

/-- What is left of the planner that has read some entries when its targets are taken. -/
def after (accept : VersionEntry → Bool) (entries : List VersionEntry) : RestorePlanner :=
  (entries.foldl (observe accept) new).drain.2

variable (accept : VersionEntry → Bool) (read entries : List VersionEntry)

/-- Taking the targets does not change which ones are found later. -/
theorem foldl_append : (read ++ entries).foldl (observe accept) new =
    (entries.foldl (observe accept) (after accept read)).behind (found accept read) := by
  have hbehind : (after accept read).behind (found accept read) =
      read.foldl (observe accept) new := by
    simp [after, found, behind, drain]
  rw [List.foldl_append, ← hbehind, List.foldl_hom (behind _) (observe_behind _)]

theorem found_append : found accept (read ++ entries) =
    found accept read ++ (entries.foldl (observe accept) (after accept read)).drain.1 := by
  rw [found, foldl_append]
  rfl

theorem after_append : after accept (read ++ entries) =
    (entries.foldl (observe accept) (after accept read)).drain.2 := by
  rw [after, foldl_append]
  rfl

end RestorePlanner

namespace Command

/-! ## One page -/

/-- The line of a target that would be copied. -/
def restoreLine (bucket : String) (target : RestoreTarget) : String :=
  "  would restore " ++ (StorePath.mk bucket target.key).display ++ " (version " ++
    target.version ++ ")"

/-- What a restore has come to when it has found some targets: on trial it has their lines, and
otherwise they are shared out among its copies. -/
structure RestoreState.Finds {σ : Type}
    (inv : List (RestoreTarget × Except Error Unit) → σ → Prop) (bucket : String) (dryRun : Bool)
    (targets : List RestoreTarget) (state : RestoreState) (link : σ) : Prop where
  found_eq : state.found = targets.length
  lines_eq : state.lines.reverse = if dryRun then targets.map (restoreLine bucket) else []
  copies : state.copies.Shares inv (if dryRun then [] else targets) link

section Visiting

variable {σ : Type} {inv : List (RestoreTarget × Except Error Unit) → σ → Prop}
variable {copy : RestoreTarget → StateM σ (Except Error Unit)} {bucket : String} {dryRun : Bool}

namespace RestoreState

theorem finds_start {link : σ} (h : inv [] link) : start.Finds inv bucket dryRun [] link where
  found_eq := rfl
  lines_eq := by cases dryRun <;> rfl
  copies := by
    rw [ite_self]
    exact CopyPool.shares_empty h

theorem Finds.add {targets : List RestoreTarget} {state : RestoreState} {link : σ}
    (h : state.Finds inv bucket dryRun targets link) (target : RestoreTarget) :
    (state.add bucket dryRun target).Finds inv bucket dryRun (targets ++ [target]) link := by
  have hfound : (state.add bucket dryRun target).found = (targets ++ [target]).length := by
    rw [List.length_append, ← h.found_eq]
    cases dryRun <;> rfl
  cases dryRun with
  | true =>
    refine ⟨hfound, ?_, h.copies⟩
    have hlines := h.lines_eq
    rw [if_pos rfl] at hlines ⊢
    rw [List.map_append, ← hlines]
    exact List.reverse_cons
  | false => exact ⟨hfound, h.lines_eq, h.copies.add target⟩

theorem Finds.foldl_add {targets : List RestoreTarget} {state : RestoreState} {link : σ}
    (h : state.Finds inv bucket dryRun targets link) (more : List RestoreTarget) :
    (more.foldl (RestoreState.add bucket dryRun) state).Finds inv bucket dryRun (targets ++ more)
      link := by
  induction more generalizing targets state with
  | nil => rwa [List.append_nil]
  | cons target rest ih =>
    rw [List.foldl_cons, List.append_cons]
    exact ih (h.add target)

theorem foldl_add_planner (more : List RestoreTarget) (state : RestoreState) :
    (more.foldl (RestoreState.add bucket dryRun) state).planner = state.planner := by
  induction more generalizing state with
  | nil => rfl
  | cons target rest ih =>
    rw [List.foldl_cons, ih]
    cases dryRun <;> rfl

/-- A restore has read some entries: its planner is behind them, and their targets are found. -/
def Plans (inv : List (RestoreTarget × Except Error Unit) → σ → Prop) (bucket : String)
    (dryRun : Bool) (accept : VersionEntry → Bool) (read : List VersionEntry) (state : RestoreState)
    (link : σ) : Prop :=
  state.planner = RestorePlanner.after accept read ∧
    state.Finds inv bucket dryRun (RestorePlanner.found accept read) link

theorem Plans.mono {other : List (RestoreTarget × Except Error Unit) → σ → Prop}
    {accept : VersionEntry → Bool} {read : List VersionEntry} {state : RestoreState}
    {link link' : σ} (h : state.Plans inv bucket dryRun accept read link)
    (himp : ∀ made, inv made link → other made link') :
    state.Plans other bucket dryRun accept read link' :=
  ⟨h.1, h.2.found_eq, h.2.lines_eq, h.2.copies.mono himp⟩

/-- A page is read behind what was read before it, and its targets are found. -/
theorem visit_leads (hcopy : Copies inv copy) (schedule : CopySchedule)
    (accept : VersionEntry → Bool) (read entries : List VersionEntry) (state : RestoreState) :
    LeadsTo (state.Plans inv bucket dryRun accept read)
      (visit copy schedule bucket dryRun accept entries state)
      fun answer link => ∃ next, answer = (none, .more next) ∧
        next.Plans inv bucket dryRun accept (read ++ entries) link := by
  apply LeadsTo.of_forall
  rintro link ⟨hplanner, hfinds⟩
  let planner := entries.foldl (RestorePlanner.observe accept) state.planner
  let opened : RestoreState :=
    { state with planner := planner.drain.2, pages := state.pages + 1 }
  let added := planner.drain.1.foldl (RestoreState.add bucket dryRun) opened
  -- No copy runs before all targets of the page were added, so the schedule meets them all.
  have hopened : opened.Finds inv bucket dryRun (RestorePlanner.found accept read) link :=
    ⟨hfinds.found_eq, hfinds.lines_eq, hfinds.copies⟩
  have hadded : added.Finds inv bucket dryRun (RestorePlanner.found accept (read ++ entries))
      link := by
    rw [RestorePlanner.found_append, ← hplanner]
    exact hopened.foldl_add _
  have hafter : added.planner = RestorePlanner.after accept (read ++ entries) := by
    rw [foldl_add_planner, RestorePlanner.after_append, ← hplanner]
  refine ((CopyPool.Shares.run hcopy added.copies _).at_state hadded.copies).bind fun copies =>
    .pure fun link' hcopies => ?_
  exact ⟨_, rfl, hafter, hadded.found_eq, hadded.lines_eq, hcopies⟩

end RestoreState

end Visiting

/-! ## The listing -/

/-- A log goes on with some copies, and beside them with answered requests for pages of versions. -/
def Records (bucket : String) (before : RequestLog) (copies : List (RestoreTarget × Option Fault))
    (log : RequestLog) : Prop :=
  ∃ more, log = before ++ more ∧
    (∀ record ∈ more, record.1.copies = true ∨
      record.1.listsVersions = true ∧ record.2 = none) ∧
    copiesIn more = copies.map fun copy => copyOf bucket copy.1 copy.2

section Listing

variable {σ : Type} {link : Link σ} {left : σ → List VersionsReply}
variable {client : Client (RequestLog × σ)} {bucket : String} {before log : RequestLog}
variable {copies : List (RestoreTarget × Option Fault)}

theorem records_self : Records bucket before [] before :=
  ⟨[], (List.append_nil before).symm, List.forall_mem_nil _, rfl⟩

theorem Records.list (h : Records bucket before copies log) {request : Request}
    (hrequest : request.listsVersions = true) :
    Records bucket before copies (log ++ [(request, none)]) := by
  obtain ⟨more, rfl, hmore, hcopies⟩ := h
  have hother : request.copies = false := by
    cases request <;> first | rfl | cases hrequest
  refine ⟨more ++ [(request, none)], List.append_assoc _ _ _, ?_, ?_⟩
  · rw [List.forall_mem_append]
    exact ⟨hmore, by simp [hrequest]⟩
  · rw [← hcopies, copiesIn, List.filter_append]
    simp [copiesIn, hother]

theorem Records.copy (h : Records bucket before copies log) (target : RestoreTarget)
    (fault : Option Fault) :
    Records bucket before (copies ++ [(target, fault)]) (log ++ [copyOf bucket target fault]) := by
  obtain ⟨more, rfl, hmore, hcopies⟩ := h
  refine ⟨more ++ [copyOf bucket target fault], List.append_assoc _ _ _, ?_, ?_⟩
  · rw [List.forall_mem_append]
    exact ⟨hmore, by simp [copyOf, Request.copies]⟩
  · rw [List.map_append, ← hcopies, copiesIn, List.filter_append]
    rfl

/-- Some replies are still to come, and the copies that were made are on record. -/
def Copied (left : σ → List VersionsReply) (bucket : String) (before : RequestLog)
    (rest : List VersionsReply) (made : List (RestoreTarget × Except Error Unit))
    (state : RequestLog × σ) : Prop :=
  left state.2 = rest ∧ ∃ copies, Records bucket before copies state.1 ∧
    made = copies.map fun copy => (copy.1, endOf copy.2)

theorem copies_copyBack (hlink : client.link = link.logged) (hlists : link.ListsVersions left)
    (rest : List VersionsReply) :
    Copies (Copied left bucket before rest) (copyBack client bucket) := by
  rintro made target ⟨log, state⟩ ⟨hleft, copies, hrecords, rfl⟩
  have hkept := hlists.copies bucket target.key
    (copySource bucket target.key (some target.version)) state
  rcases hsend : (link.send (.copyObject bucket target.key
    (copySource bucket target.key (some target.version)))).run state with ⟨answer, state'⟩
  rw [hsend] at hkept
  have hrun := Client.request_logged hlink hsend log
  rw [mapError_eq_endOf] at hrun
  rw [copyBack, Client.copyVersion, hrun]
  refine ⟨hkept.trans hleft, copies ++ [(target, Fault.of? answer)], hrecords.copy target _, ?_⟩
  rw [List.map_append]
  rfl

theorem isListing_iff {replies : List VersionsReply} :
    IsListing replies ↔ MakeListing (replies.map VersionListing.pageOf) := by
  induction replies with
  | nil => exact Iff.rfl
  | cons reply rest ih =>
    cases rest with
    | nil => exact Iff.rfl
    | cons next rest => exact and_congr_right fun _ => ih

/-- A listing is being read beside the copies: the replies `coming` are still to be visited, and the
store has `rest` of them left to give. The two differ while a page was fetched and not visited
yet. -/
def RestoreState.Reads (left : σ → List VersionsReply) (bucket : String) (before : RequestLog)
    (dryRun : Bool) (accept : VersionEntry → Bool) (replies coming rest : List VersionsReply)
    (state : RestoreState) (link : RequestLog × σ) : Prop :=
  ∃ read, read ++ listedEntries coming = listedEntries replies ∧
    state.Plans (Copied left bucket before rest) bucket dryRun accept read link

/-- The listing is read to its end beside the copies, and the targets of all entries are found. -/
theorem visiting_versions (hlink : client.link = link.logged) (hlists : link.ListsVersions left)
    (before : RequestLog) (bucket : String) (dryRun : Bool) (schedule : CopySchedule)
    (accept : VersionEntry → Bool) (listing : VersionListing) {replies : List VersionsReply}
    (hlisting : IsListing replies) (hcount : replies.length ≤ Run.allPages) :
    LeadsTo (fun state => left state.2 = replies ∧ state.1 = before)
      (visiting (listing.source client)
        (RestoreState.visit (copyBack client bucket) schedule bucket dryRun accept) .start)
      fun visited state => visited.failure = none ∧
        visited.state.Plans (Copied left bucket before []) bucket dryRun accept
          (listedEntries replies) state := by
  have hsource : ∀ reply rest token state, LeadsTo
      (RestoreState.Reads left bucket before dryRun accept replies (reply :: rest) (reply :: rest)
        state)
      (listing.source client token)
      fun answer link => answer = .ok (VersionListing.pageOf reply) ∧
        state.Reads left bucket before dryRun accept replies (reply :: rest) rest link := by
    rintro reply rest token state ⟨log, link'⟩ ⟨read, hread, hplans⟩
    obtain ⟨made, ⟨hleft, -⟩, -⟩ := hplans.2.copies
    obtain ⟨next, hsend, hrest⟩ := hlists.lists listing.bucket listing.start client.pageSize
      (token.map (·.key)) (token.bind (·.version)) link' reply rest hleft
    have hrun := Client.request_logged hlink hsend log
    rw [VersionListing.source, StateT.run_bind, hrun]
    refine ⟨rfl, read, hread, hplans.mono ?_⟩
    rintro made ⟨-, copies, hrecords, hmade⟩
    exact ⟨hrest, copies, hrecords.list rfl, hmade⟩
  have hvisit : ∀ reply rest state, LeadsTo
      (RestoreState.Reads left bucket before dryRun accept replies (reply :: rest) rest state)
      (RestoreState.visit (copyBack client bucket) schedule bucket dryRun accept
        (VersionListing.pageOf reply).content state)
      fun answer link => ∃ next, answer = (none, .more next) ∧
        next.Reads left bucket before dryRun accept replies rest rest link := by
    rintro reply rest state link' ⟨read, hread, hplans⟩
    obtain ⟨next, hanswer, hnext⟩ :=
      RestoreState.visit_leads (copies_copyBack hlink hlists rest) schedule accept read
        (VersionListing.pageOf reply).content state link' hplans
    refine ⟨next, hanswer, _, ?_, hnext⟩
    rw [List.append_assoc]
    exact hread
  have hread := visiting_replies
    (fun rest => RestoreState.Reads left bucket before dryRun accept replies rest rest)
    (fun reply rest =>
      RestoreState.Reads left bucket before dryRun accept replies (reply :: rest) rest)
    hsource hvisit (isListing_iff.mp hlisting) hcount .start
  refine (hread.weaken ?_).mono ?_
  · rintro ⟨log, link'⟩ ⟨hleft, rfl⟩
    exact ⟨[], rfl, rfl, RestoreState.finds_start ⟨hleft, [], records_self, rfl⟩⟩
  · rintro visited link' ⟨hnone, read, hread, hplans⟩
    rw [listedEntries, List.flatMap_nil, List.append_nil] at hread
    exact ⟨hnone, hread ▸ hplans⟩

end Listing

/-! ## The tally -/

/-- The failure that a result is. -/
def errorOf : Except Error Unit → Option Error
  | .ok _ => none
  | .error e => some e

theorem errorOf_endOf_eq_none_iff {fault : Option Fault} :
    errorOf (endOf fault) = none ↔ fault = none := by
  cases fault <;> simp [errorOf, endOf]

theorem isOk_endOf (fault : Option Fault) : (endOf fault).isOk = fault.isNone := by
  cases fault <;> rfl

namespace RestoreTally

theorem add_eq (tally : RestoreTally) (result : Except Error Unit) :
    tally.add result = ⟨tally.restored + result.isOk.toNat, tally.failed + (!result.isOk).toNat,
      tally.firstError.or (errorOf result)⟩ := by
  cases result with
  | ok _ => simp [add, errorOf, Except.isOk, Except.toBool]
  | error e =>
    cases hfirst : tally.firstError <;>
      simp [add, errorOf, Except.isOk, Except.toBool, hfirst]

theorem foldl_add (tally : RestoreTally) (results : List (Except Error Unit)) :
    results.foldl add tally =
      ⟨tally.restored + results.countP Except.isOk,
        tally.failed + results.countP (fun result => !result.isOk),
        tally.firstError.or (results.findSome? errorOf)⟩ := by
  induction results generalizing tally with
  | nil => simp
  | cons result rest ih =>
    rw [List.foldl_cons, ih, add_eq, findSome?_cons_or]
    cases hok : result.isOk <;> simp [hok, Nat.add_assoc, Nat.add_comm 1, Option.or_assoc]

/-- A tally counts the copies that succeeded and those that failed, and keeps the first failure. -/
theorem ofResults_eq (results : List (Except Error Unit)) :
    ofResults results = ⟨results.countP Except.isOk,
      results.countP (fun result => !result.isOk), results.findSome? errorOf⟩ := by
  rw [ofResults, foldl_add]
  simp [start]

theorem restored_add_failed (results : List (Except Error Unit)) :
    (ofResults results).restored + (ofResults results).failed = results.length := by
  rw [ofResults_eq, List.length_eq_countP_add_countP Except.isOk]
  simp

end RestoreTally

/-! ## The command -/

/-- What a restore asks of the store: its listing is read, and then the copies are joined. -/
def restoring {σ : Type} (client : Client σ) (path : StorePath) (schedule : CopySchedule)
    (dryRun : Bool) (accept : VersionEntry → Bool) :
    StateM σ (Run.Visited RestoreState × CopyPool) := do
  let visited ← visiting ((VersionListing.new path).source client)
    (RestoreState.visit (copyBack client path.bucket) schedule path.bucket dryRun accept) .start
  match visited.failure with
  | some _ => return (visited, visited.state.copies)
  | none => return (visited, ← visited.state.copies.join (copyBack client path.bucket))

/-- The lines about the targets and the copies. -/
def restoreLines (bucket : String) (dryRun : Bool) (targets : List RestoreTarget)
    (tally : RestoreTally) : List String :=
  if dryRun then
    targets.map (restoreLine bucket) ++
      [s!"  ⚠️  Dry run: {targets.length} objects would be restored"]
  else
    s!"  ✅ Restored {tally.restored} of {targets.length} objects" ::
      if tally.firstError.isSome then [s!"  ❌ {tally.failed} restores failed"] else []

/-- How the command ends. -/
def restoreEnd (dryRun : Bool) (tally : RestoreTally) : Except Failure Unit :=
  if dryRun then .ok ()
  else match tally.firstError with
    | none => .ok ()
    | some error => .error (.ofError error)

section Restoring

variable {σ : Type}

theorem restoring_run {client : Client σ} {path : StorePath} {schedule : CopySchedule}
    {dryRun : Bool} {accept : VersionEntry → Bool} {state : RestoreState} {pages : Nat}
    {pool : CopyPool} {link link₁ link₂ : σ}
    (hvisited : (visiting ((VersionListing.new path).source client)
      (RestoreState.visit (copyBack client path.bucket) schedule path.bucket dryRun accept)
      .start).run link = (⟨none, state, pages⟩, link₁))
    (hjoined : (state.copies.join (copyBack client path.bucket)).run link₁ = (pool, link₂)) :
    (restoring client path schedule dryRun accept).run link =
      ((⟨none, state, pages⟩, pool), link₂) := by
  rw [restoring, StateT.run_bind, hvisited]
  change (state.copies.join (copyBack client path.bucket) >>= fun pool => _).run link₁ = _
  rw [StateT.run_bind, hjoined]
  rfl

/-- The command reads the listing, joins the copies, and reports. -/
theorem restore_run {machine : Machine σ} {settingsPath : Option String} {options : RestoreOptions}
    {schedule : CopySchedule} {path : StorePath} {settings : Settings} {world : World σ}
    {state : RestoreState} {pages : Nat} {pool : CopyPool} {link₁ link₂ : σ}
    {targets : List RestoreTarget} {tally : RestoreTally}
    (hpath : StorePath.parse options.path = .ok path)
    (hsettings : Settings.load world.files machine.around.home settingsPath = .ok settings)
    (hvisited :
      let client := Client.connect machine.link machine.around world.files settings
      let accept := fun (entry : VersionEntry) =>
        withinAge entry.time machine.now none (ageBound options.since)
      (visiting ((VersionListing.new path).source client)
        (RestoreState.visit (copyBack client path.bucket) schedule path.bucket options.dryRun
          accept) .start).run world.link = (⟨none, state, pages⟩, link₁))
    (hjoined :
      let client := Client.connect machine.link machine.around world.files settings
      (state.copies.join (copyBack client path.bucket)).run link₁ = (pool, link₂))
    (hfound : state.found = targets.length)
    (hlines : state.lines.reverse =
      if options.dryRun then targets.map (restoreLine path.bucket) else [])
    (htally : RestoreTally.ofResults (pool.ended.map Prod.snd) = tally) :
    (restore schedule machine settingsPath options).run.run world =
      (restoreEnd options.dryRun tally,
        { world with
          out := world.out ++ linesText (s!"Restoring deleted objects under {path}..." ::
            restoreLines path.bucket options.dryRun targets tally)
          link := link₂ }) := by
  have htext : state.text = linesText
      (if options.dryRun then targets.map (restoreLine path.bucket) else []) :=
    congrArg linesText hlines
  unfold restore
  rw [hpath, Run.run_ofExcept_bind, Run.run_bind_of_ok (Run.connect_run hsettings)]
  dsimp only at hvisited hjoined ⊢
  rw [Run.run_printLine_bind, visitPages_eq, Run.run_onLink_bind, hvisited]
  rw [Run.run_print_bind, Run.failIf]
  dsimp only
  rw [pure_bind, Run.run_onLink_bind]
  dsimp only
  rw [hjoined, hfound, htext, htally]
  cases options.dryRun with
  | true =>
    refine congrArg (fun out => (_, { world with out, link := link₂ })) ?_
    simp [restoreLines, linesText_append, String.append_assoc]
  | false =>
    obtain ⟨restored, failed, firstError⟩ := tally
    cases firstError <;>
    · refine congrArg (fun out => (_, { world with out, link := link₂ })) ?_
      simp [restoreLines, String.append_assoc]

/-- The copies that were made are counted by their ends, in whatever order they ended. -/
theorem tally_of_perm {ended : List (RestoreTarget × Except Error Unit)}
    {copies : List (RestoreTarget × Option Fault)}
    (h : ended.Perm (copies.map fun copy => (copy.1, endOf copy.2))) :
    let tally := RestoreTally.ofResults (ended.map Prod.snd)
    tally.restored = copies.countP (fun copy => copy.2.isNone) ∧
      tally.restored + tally.failed = copies.length ∧
      tally.firstError = ended.findSome? (fun copy => errorOf copy.2) ∧
      (tally.firstError = none ↔ ∀ copy ∈ copies, copy.2 = none) := by
  intro tally
  have hends : (ended.map Prod.snd).Perm (copies.map fun copy => endOf copy.2) := by
    have hmap := h.map Prod.snd
    rwa [List.map_map] at hmap
  have htally : tally = _ := RestoreTally.ofResults_eq (ended.map Prod.snd)
  refine ⟨?_, ?_, ?_, ?_⟩
  · rw [htally]
    refine (hends.countP_eq _).trans ?_
    rw [List.countP_map]
    exact List.countP_congr fun copy _ => by rw [Function.comp_apply, isOk_endOf]
  · rw [RestoreTally.restored_add_failed, hends.length_eq, List.length_map]
  · rw [htally, List.findSome?_map]
    rfl
  · rw [htally, List.findSome?_eq_none_iff]
    constructor
    · intro hnone copy hcopy
      have hmem := hends.symm.subset (List.mem_map_of_mem hcopy)
      exact errorOf_endOf_eq_none_iff.mp (hnone _ hmem)
    · intro hnone result hresult
      obtain ⟨copy, hcopy, rfl⟩ := List.mem_map.mp (hends.subset hresult)
      exact errorOf_endOf_eq_none_iff.mpr (hnone copy hcopy)

theorem restoreEnd_eq_ok_iff {dryRun : Bool} {tally : RestoreTally} :
    restoreEnd dryRun tally = .ok () ↔ dryRun = true ∨ tally.firstError = none := by
  unfold restoreEnd
  cases dryRun <;> cases tally.firstError <;> simp

/-- For every listing and every schedule of the copies: each target that the planner finds is copied
once, or on trial none is, and beside the copies only pages of versions are asked for. The copies
end in the order of the schedule; those that succeeded and those that failed are counted, and if
any failed the command fails by the one that ended first. -/
theorem restore_copies_each_once {machine : Machine σ} {left : σ → List VersionsReply}
    {settingsPath : Option String} {options : RestoreOptions} {path : StorePath}
    {settings : Settings} {world : World (RequestLog × σ)} (schedule : CopySchedule)
    (hlists : machine.link.ListsVersions left)
    (hpath : StorePath.parse options.path = .ok path)
    (hsettings : Settings.load world.files machine.around.home settingsPath = .ok settings)
    (hlisting : IsListing (left world.link.2))
    (hcount : (left world.link.2).length ≤ Run.allPages) :
    let client := Client.connect machine.logged.link machine.around world.files settings
    let accept := fun (entry : VersionEntry) =>
      withinAge entry.time machine.now none (ageBound options.since)
    let targets := RestorePlanner.found accept (listedEntries (left world.link.2))
    let answer := (restoring client path schedule options.dryRun accept).run world.link
    let ended := answer.1.2.ended
    let tally := RestoreTally.ofResults (ended.map Prod.snd)
    ∃ copies : List (RestoreTarget × Option Fault),
      Records path.bucket world.link.1 copies answer.2.1 ∧
      (copies.map Prod.fst).Perm (if options.dryRun then [] else targets) ∧
      ended.Perm (copies.map fun copy => (copy.1, endOf copy.2)) ∧
      (restore schedule machine.logged settingsPath options).run.run world =
        (restoreEnd options.dryRun tally,
          { world with
            out := world.out ++ linesText (s!"Restoring deleted objects under {path}..." ::
              restoreLines path.bucket options.dryRun targets tally)
            link := answer.2 }) ∧
      tally.restored = copies.countP (fun copy => copy.2.isNone) ∧
      (options.dryRun = false → tally.restored + tally.failed = targets.length) ∧
      tally.firstError = ended.findSome? (fun copy => errorOf copy.2) ∧
      (restoreEnd options.dryRun tally = .ok () ↔ ∀ copy ∈ copies, copy.2 = none) := by
  intro client accept targets answer ended tally
  have hlink : client.link = machine.link.logged := rfl
  have hvisiting := visiting_versions hlink hlists world.link.1 path.bucket options.dryRun schedule
    accept (.new path) hlisting hcount world.link ⟨rfl, rfl⟩
  rcases hvisited : (visiting ((VersionListing.new path).source client)
    (RestoreState.visit (copyBack client path.bucket) schedule path.bucket options.dryRun accept)
    .start).run world.link with ⟨⟨failure, state, pages⟩, link₁⟩
  rw [hvisited] at hvisiting
  obtain ⟨rfl, -, hfinds⟩ := hvisiting
  have hjoining := CopyPool.Shares.join (copies_copyBack hlink hlists []) state.copies link₁
    hfinds.copies
  rcases hjoined : (state.copies.join (copyBack client path.bucket)).run link₁ with ⟨pool, link₂⟩
  rw [hjoined] at hjoining
  obtain ⟨made, ⟨-, copies, hrecords, rfl⟩, htargets, hended⟩ := hjoining
  have hanswer : answer = ((⟨none, state, pages⟩, pool), link₂) := restoring_run hvisited hjoined
  have hrun : (restore schedule machine.logged settingsPath options).run.run world = _ :=
    restore_run hpath hsettings hvisited hjoined hfinds.found_eq hfinds.lines_eq rfl
  -- Nothing is known of the answer but these two equations.
  clear_value answer
  subst hanswer
  obtain ⟨hrestored, hlength, hfirst, hnone⟩ := tally_of_perm hended
  have hcopies : (copies.map Prod.fst).Perm (if options.dryRun then [] else targets) := by
    rw [List.map_map] at htargets
    exact htargets
  refine ⟨copies, hrecords, hcopies, hended, hrun, hrestored, fun hreal => ?_, hfirst, ?_⟩
  · have hall : (copies.map Prod.fst).Perm targets := by
      rw [hreal] at hcopies
      exact hcopies
    rw [← hall.length_eq, List.length_map]
    exact hlength
  · refine restoreEnd_eq_ok_iff.trans ((or_iff_right_of_imp fun htrial => ?_).trans hnone)
    -- On trial nothing is copied, so no copy can have failed.
    rw [htrial] at hcopies
    have hempty : copies = [] := List.map_eq_nil_iff.mp (List.perm_nil.mp hcopies)
    exact hnone.mpr (by simp [hempty])

end Restoring

end Command

/-- A store that answers listings of versions with the replies that are left, and refuses copies: it
denies one, and does not find the others. -/
def Link.locked (denied : String) : Link (List VersionsReply) where
  send
    | .listVersions .. => fun
      | reply :: rest => (.ok reply, rest)
      | [] => (.error .timeout, [])
    | .copyObject _ key _ =>
      if key = denied then return .error (.answered 403 (some "AccessDenied") none none key)
      else return .error (.answered 404 (some "NoSuchVersion") none none key)
    | _ => return .error .timeout
  clock _ := ⟨0⟩

theorem Link.locked_lists (denied : String) : (Link.locked denied).ListsVersions id where
  lists := by
    rintro bucket start limit keyMarker versionMarker state reply rest rfl
    exact ⟨rest, rfl, rfl⟩
  copies bucket key source state := by
    unfold Link.locked
    dsimp only
    split <;> rfl

namespace Command

/-- The pages of two deleted objects with one version each. -/
def twoDeleted : List VersionsReply :=
  [onePage "data/a" "m1" none true true true, onePage "data/a" "v1" (some 1) false false true,
    onePage "data/b" "m2" none true true true, onePage "data/b" "v2" (some 2) false false false]

/-- Nothing happens before the last page; then the second copy is sent before the first, and ends
behind it. -/
def crosswise : CopySchedule :=
  fun pages _ => if pages = 4 then [.send 1, .send 0, .finish 1, .finish 0] else []

/-- Both copies fail. The failure is that of the copy that ended first, though it was sent last. -/
theorem restore_copies_each_once_crosswise :
    let world : World (RequestLog × List VersionsReply) := ⟨.empty, "", "", ([], twoDeleted)⟩
    let options : RestoreOptions := ⟨"s3://b/data/", none, false⟩
    ∃ (copies : List (RestoreTarget × Option Fault)) (link : RequestLog × List VersionsReply),
      (restore crosswise (Machine.plain (.locked "data/a")).logged none options).run.run world =
        (.error (.ofError (.permissionDenied "data/a")),
          { world with
            out := linesText ["Restoring deleted objects under s3://b/data/...",
              "  ✅ Restored 0 of 2 objects", "  ❌ 2 restores failed"]
            link }) ∧
      Records "b" [] copies link.1 ∧
      (copies.map Prod.fst).Perm [⟨"data/a", "v1"⟩, ⟨"data/b", "v2"⟩] := by
  intro world options
  let machine : Machine (List VersionsReply) := .plain (.locked "data/a")
  have hlists : machine.link.ListsVersions id := Link.locked_lists "data/a"
  have hpath : StorePath.parse "s3://b/data/" = .ok ⟨"b", "data/"⟩ := rfl
  have hsettings : Settings.load world.files "/home/user" none = .ok .default := rfl
  have hlisting : IsListing twoDeleted := by decide +kernel
  obtain ⟨copies, hrecords, hcopies, -, hrun, -, -, -, -⟩ :=
    restore_copies_each_once crosswise hlists (show StorePath.parse options.path = _ from hpath)
      hsettings hlisting (by decide)
  let path : StorePath := ⟨"b", "data/"⟩
  let client := Client.connect machine.logged.link machine.around world.files .default
  let accept := fun (entry : VersionEntry) =>
    withinAge entry.time machine.now none (ageBound options.since)
  let answer := (restoring client path crosswise options.dryRun accept).run world.link
  have htargets : RestorePlanner.found accept (listedEntries twoDeleted) =
      [⟨"data/a", "v1"⟩, ⟨"data/b", "v2"⟩] := by decide +kernel
  have htally : RestoreTally.ofResults (answer.1.2.ended.map Prod.snd) =
      ⟨0, 2, some (.permissionDenied "data/a")⟩ := by decide +kernel
  have htext : world.out ++ linesText (s!"Restoring deleted objects under {path}..." ::
      restoreLines path.bucket options.dryRun
        (RestorePlanner.found accept (listedEntries twoDeleted))
        (RestoreTally.ofResults (answer.1.2.ended.map Prod.snd))) =
      linesText ["Restoring deleted objects under s3://b/data/...",
        "  ✅ Restored 0 of 2 objects", "  ❌ 2 restores failed"] := by
    rw [htally]
    decide +kernel
  refine ⟨copies, answer.2, hrun.trans (congrArg₂ Prod.mk ?_ ?_), hrecords,
    hcopies.trans (.of_eq htargets)⟩
  · exact congrArg (restoreEnd options.dryRun) htally
  · exact congrArg (fun out => { world with out, link := answer.2 }) htext

end Command

end BucketCare

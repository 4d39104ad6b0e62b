import BucketCare.Proofs.Command.Delivery
import BucketCare.Proofs.Command.Scope

/-!
# What a listing of versions writes and deletes

From a store that answers with some pages and refuses no deletion, what is listed are the picks of
all pages together. The lines, the report, the totals and the deletions are each a function of it,
so a trial run shows what would be deleted, and a quiet one leaves out nothing but the lines.

## Main definitions

* `IsListing` — replies that make up a listing
* `Link.Replays` — a store that answers with some replies
* `Request.deletion?` — what a request deletes
* `Source.beside`, `Deleter.recorded` — the parts of a listing where the batches are on record
* `Command.versionReport`, `Command.versionTable` — what is told of the entries that are listed

## Main results

* `Command.gather_replies` — what is listed are the picks of all pages
* `Command.listVersions_outputs` — what the command writes, reports and deletes
-/

namespace BucketCare

/-- Replies that make up a listing: each of them goes on but the last. -/
def IsListing : List VersionsReply → Prop
  | [] => False
  | [last] => (VersionListing.pageOf last).continues = false
  | reply :: next :: rest =>
    (VersionListing.pageOf reply).continues = true ∧ IsListing (next :: rest)

instance IsListing.decidable : DecidablePred IsListing
  | [] => .isFalse id
  | [last] => inferInstanceAs (Decidable ((VersionListing.pageOf last).continues = false))
  | reply :: next :: rest =>
    have := IsListing.decidable (next :: rest)
    inferInstanceAs
      (Decidable ((VersionListing.pageOf reply).continues = true ∧ IsListing (next :: rest)))

/-- The entries of some replies. -/
def listedEntries (replies : List VersionsReply) : List VersionEntry :=
  replies.flatMap fun reply => (VersionListing.pageOf reply).content

/-- A link to a store that answers listings of versions with some replies, whatever is deleted in
between, and refuses no deletion. -/
structure Link.Replays {σ : Type} (link : Link σ) (left : σ → List VersionsReply) : Prop where
  lists : ∀ bucket start limit keyMarker versionMarker state reply rest,
    left state = reply :: rest →
    ∃ state', (link.send (.listVersions bucket start limit keyMarker versionMarker)).run state =
      (.ok reply, state') ∧ left state' = rest
  deletes : ∀ bucket objects state, ∃ state',
    (link.send (.deleteObjects bucket objects)).run state = (.ok [], state') ∧
      left state' = left state

/-- What a request deletes: a bucket, and objects in it. -/
def Request.deletion? : Request → Option (String × List Candidate)
  | .deleteObjects bucket objects => some (bucket, objects)
  | _ => none

/-- The deletions among some requests. -/
def deletions (sent : List Request) : List (String × List Candidate) :=
  sent.filterMap Request.deletion?

/-- A source that leaves a record beside its state alone. -/
def Source.beside {σ ρ α τ : Type} (source : Source σ α τ) : Source (ρ × σ) α τ :=
  fun token (kept, state) =>
    let (answer, state) := (source token).run state
    (answer, (kept, state))

/-- The request for a page of versions. -/
abbrev VersionListing.request (listing : VersionListing) (limit : Int)
    (token : Option VersionMarker) : Request :=
  .listVersions listing.bucket listing.start limit (token.map (·.key)) (token.bind (·.version))

section Requests

variable {σ : Type} {link : Link σ} {client : Client σ} {request : Request}

theorem Link.recorded_run {answer : Except Fault request.Reply} {state state' : σ}
    (h : (link.send request).run state = (answer, state')) (sent : List Request) :
    (link.recorded.send request).run (sent, state) = (answer, (sent ++ [request], state')) := by
  obtain ⟨rfl, rfl⟩ := Prod.ext_iff.mp h
  rfl

theorem Client.request_run_of_ok {reply : request.Reply} {state state' : σ}
    (h : (client.link.send request).run state = (.ok reply, state')) :
    (client.request request).run.run state = (.ok reply, state') := by
  rw [Client.request_run, h]
  rfl

theorem VersionListing.source_run_of_ok {listing : VersionListing} {token : Option VersionMarker}
    {reply : VersionsReply} {state state' : σ}
    (h : (client.link.send (listing.request client.pageSize token)).run state =
      (.ok reply, state')) :
    (listing.source client token).run state = (.ok (VersionListing.pageOf reply), state') := by
  rw [VersionListing.source, StateT.run_bind, Client.request_run_of_ok h]
  rfl

/-- A deletion that is not refused. -/
theorem Client.deleter_run_of_ok {bucket : String} {batch : List Candidate} {state state' : σ}
    (hsmall : batch.length ≤ maxPageSize)
    (h : (client.link.send (.deleteObjects bucket batch)).run state = (.ok [], state')) :
    (client.deleter bucket batch).run state = (.ok ⟨.ofNat batch.length, []⟩, state') := by
  unfold Client.deleter
  rw [if_neg (Nat.not_lt.mpr hsmall), StateT.run_bind, Client.request_run_of_ok h]
  rfl

end Requests

section Replaying

variable {σ : Type} {link : Link σ} {left : σ → List VersionsReply}
variable {client : Client (List Request × σ)}

/-- Some replies are still to come, and some batches were deleted, unless this is a trial. -/
def Replaying (left : σ → List VersionsReply) (before : List (String × List Candidate))
    (bucket : String) (dryRun : Bool) (replies : List VersionsReply)
    (batches : List (List Candidate)) (state : List Request × σ) : Prop :=
  left state.2 = replies ∧
    deletions state.1 = before ++ if dryRun then [] else batches.map (bucket, ·)

variable {before : List (String × List Candidate)} {bucket : String} {dryRun : Bool}

theorem Replaying.chooseDeleter_sends (hlink : client.link = link.recorded)
    (hreplays : link.Replays left) (replies : List VersionsReply) :
    (Command.chooseDeleter client bucket dryRun).Sends
      (Replaying left before bucket dryRun replies) (fun _ => False) := by
  rintro batches batch hsmall ⟨sent, state⟩ ⟨hleft, hsent⟩
  cases dryRun with
  | true => exact ⟨hleft, hsent⟩
  | false =>
    obtain ⟨state', hrun, hleft'⟩ := hreplays.deletes bucket batch state
    have hrecorded := Link.recorded_run hrun sent
    rw [← hlink] at hrecorded
    have hdelete : (Command.chooseDeleter client bucket false batch).run (sent, state) =
        (.ok ⟨.ofNat batch.length, []⟩, (sent ++ [.deleteObjects bucket batch], state')) :=
      Client.deleter_run_of_ok hsmall hrecorded
    have hmore : deletions (sent ++ [.deleteObjects bucket batch]) =
        before ++ (batches ++ [batch]).map (bucket, ·) := by
      rw [deletions, List.filterMap_append, List.map_append, ← List.append_assoc]
      exact congrArg (· ++ [(bucket, batch)]) hsent
    rw [hdelete]
    exact ⟨hleft'.trans hleft, hmore⟩

theorem Replaying.source_leads (hlink : client.link = link.recorded)
    (hreplays : link.Replays left) (listing : VersionListing) (token : Option VersionMarker)
    (reply : VersionsReply) (rest : List VersionsReply) (batches : List (List Candidate)) :
    LeadsTo (Replaying left before bucket dryRun (reply :: rest) batches)
      (listing.source client token)
      fun answer state => answer = .ok (VersionListing.pageOf reply) ∧
        Replaying left before bucket dryRun rest batches state := by
  rintro ⟨sent, state⟩ ⟨hleft, hsent⟩
  let request := listing.request client.pageSize token
  obtain ⟨state', hrun, hleft'⟩ : ∃ state',
      (link.send request).run state = (.ok reply, state') ∧ left state' = rest :=
    hreplays.lists _ _ _ _ _ state reply rest hleft
  have hrecorded := Link.recorded_run hrun sent
  rw [← hlink] at hrecorded
  have hsame : deletions (sent ++ [request]) = deletions sent := by
    rw [deletions, List.filterMap_append]
    exact List.append_nil _
  rw [VersionListing.source_run_of_ok hrecorded]
  exact ⟨rfl, hleft', hsame.trans hsent⟩

end Replaying

namespace Command

section Gathering

variable {σ : Type} {inv : List VersionsReply → List (List Candidate) → σ → Prop}
variable {source : Source σ (List VersionEntry) VersionMarker} {deleter : Deleter σ}
variable {size : Nat} {pruning : Bool} {query : VersionQuery} {report : Option Char}

/-- Before a request the rest of a listing is still to come. -/
def Awaits (replies : List VersionsReply) (n : Nat) (_ : Option VersionMarker)
    (read : List VersionEntry) (rest : List VersionsReply) : Prop :=
  n = rest.length ∧ IsListing rest ∧ read ++ listedEntries rest = listedEntries replies

/-- All entries were read. -/
def ReadsAll (replies : List VersionsReply) (read : List VersionEntry)
    (_ : List VersionsReply) : Prop := read = listedEntries replies

/-- A reply is behind what was read before it, and leads on to the next. -/
theorem leadsOn_of_awaits {replies rest : List VersionsReply} {reply : VersionsReply} {n : Nat}
    {token : Option VersionMarker} {read : List VersionEntry}
    (h : Awaits replies n token read (reply :: rest)) :
    ∃ m < n, LeadsOn (Awaits replies) (ReadsAll replies) m (VersionListing.pageOf reply) read
      rest := by
  obtain ⟨rfl, hlisting, hread⟩ := h
  refine ⟨rest.length, Nat.lt_succ_self _, ?_⟩
  rw [listedEntries, List.flatMap_cons, ← List.append_assoc] at hread
  unfold LeadsOn
  cases rest with
  | nil =>
    have hlast : (VersionListing.pageOf reply).continues = false := hlisting
    rw [hlast]
    simpa [ReadsAll] using hread
  | cons next rest =>
    obtain ⟨hcontinues, hrest⟩ := hlisting
    rw [hcontinues]
    exact ⟨rfl, hrest, hread⟩

variable (query report pruning)

/-- From a store that answers with some replies and refuses no deletion, what is listed are the
picks of all entries. -/
theorem gather_replies (hdeleter : ∀ replies, deleter.Sends (inv replies) fun _ => False)
    (hsource : ∀ token reply rest batches,
      LeadsTo (inv (reply :: rest) batches) (source token) fun answer link =>
        answer = .ok (VersionListing.pageOf reply) ∧ inv rest batches link)
    (hpos : 1 ≤ size) (hmax : size ≤ maxPageSize) {replies : List VersionsReply}
    (hlisting : IsListing replies) (hcount : replies.length ≤ Run.allPages) :
    LeadsTo (inv replies [])
      (gather source query deleter (.opening report pruning size)) fun answer link =>
      ∃ deleted rest, answer.2 = .ok deleted ∧
        answer.1.state.Lists query report (query.picks (listedEntries replies)) ∧
        inv rest (pruned size pruning (query.picks (listedEntries replies))) link ∧
        Tells size pruning (query.picks (listedEntries replies)) deleted := by
  have hzero : ∀ token read rest, ¬ Awaits replies 0 token read rest := by
    rintro token read rest ⟨hzero, hlisting, -⟩
    rw [List.eq_nil_of_length_eq_zero hzero.symm] at hlisting
    exact hlisting
  have hfetch : ∀ n token read rest batches, Awaits replies n token read rest →
      batches.flatten <+: prunable (query.picks read) →
      LeadsTo (inv rest batches) (source token) fun answer link =>
        Settles (fun _ => False ∧ inv rest batches link)
          (fun page => ∃ next, inv next batches link ∧
            ∃ m < n, LeadsOn (Awaits replies) (ReadsAll replies) m page read next)
          answer := by
    rintro n token read rest batches hawaits -
    cases rest with
    | nil => exact hawaits.2.1.elim
    | cons reply rest =>
      refine (hsource token reply rest batches).mono ?_
      rintro answer link ⟨rfl, hinv⟩
      exact ⟨rest, hinv, leadsOn_of_awaits hawaits⟩
  refine (gather_leads source _ _ hfetch hdeleter hmax hzero hcount ⟨rfl, hlisting, rfl⟩
    hpos).mono ?_
  rintro ⟨visited, answer⟩ link hanswer
  cases answer with
  | error e => exact hanswer.elim
  | ok deleted =>
    obtain ⟨read, rest, hstops, hlists, hinv, htells⟩ := hanswer
    -- Where the limit ended the reading, what was not read adds nothing.
    have hall : query.picks (listedEntries replies) = query.picks read := by
      rcases hstops with hread | ⟨hlimit, n, token, -, -, hread⟩
      · rw [← hread]
      · rw [← hread, VersionQuery.picks_append_of_reached hlimit]
    rw [hall]
    exact ⟨deleted, rest, rfl, hlists, hinv, htells⟩

/-- Batches that are on record beside a state are those that were deleted. -/
def OnRecord (inv : List (List Candidate) → σ → Prop) (batches : List (List Candidate))
    (state : List (List Candidate) × σ) : Prop :=
  state.1 = batches ∧ inv batches state.2

theorem recorded_sends {failed : Error → Prop} {inv : List (List Candidate) → σ → Prop}
    (h : deleter.Sends inv failed) : deleter.recorded.Sends (OnRecord inv) failed := by
  rintro _ batch hsmall ⟨batches, state⟩ ⟨rfl, hinv⟩
  have hone := h batches batch hsmall state hinv
  change Settles failed _ ((deleter batch).run state).1
  revert hone
  cases ((deleter batch).run state).1 with
  | error e => exact id
  | ok outcome =>
    change (outcome.toError batch.length).elim _ _ → (outcome.toError batch.length).elim _ _
    cases outcome.toError batch.length with
    | some e => exact id
    | none => exact fun hone => ⟨rfl, hone⟩

theorem beside_leads {batches : List (List Candidate)} {token : Option VersionMarker}
    {pre : List (List Candidate) → σ → Prop}
    {post : Except Error (Page (List VersionEntry) VersionMarker) → Prop}
    {goal : List (List Candidate) → σ → Prop}
    (h : LeadsTo (pre batches) (source token) fun answer link => post answer ∧ goal batches link) :
    LeadsTo (OnRecord pre batches) (source.beside token) fun answer link =>
      post answer ∧ OnRecord goal batches link := by
  rintro ⟨_, state⟩ ⟨rfl, hpre⟩
  obtain ⟨hpost, hgoal⟩ := h state hpre
  exact ⟨hpost, rfl, hgoal⟩

end Gathering

section Outputs

variable {σ : Type} {machine : Machine σ} {left : σ → List VersionsReply}

/-- The text of some lines. -/
def linesText (lines : List String) : String := String.join (lines.map (· ++ "\n"))

@[simp] theorem linesText_nil : linesText [] = "" := rfl

@[simp] theorem linesText_cons (line : String) (lines : List String) :
    linesText (line :: lines) = line ++ "\n" ++ linesText lines := by
  rw [linesText, List.map_cons, String.join_cons, linesText]

theorem linesText_append (lines more : List String) :
    linesText (lines ++ more) = linesText lines ++ linesText more := by
  induction lines with
  | nil => simp
  | cons line rest ih => simp [ih, String.append_assoc]

theorem VersionState.Lists.text_eq {query : VersionQuery} {report : Option Char}
    {entries : List VersionEntry} {state : VersionState} (h : state.Lists query report entries) :
    state.text = if query.quiet then "" else linesText (entries.map (versionLine query)) := by
  rw [VersionState.text, h.lines_eq]
  cases query.quiet <;> rfl

/-- What is reported of a listing: its totals as a table, below an empty line. -/
def versionReport (options : VersionOptions) (state : VersionState) (pages : Nat)
    (deleted : Option DeleteSummary) : String :=
  "\n" ++ Table.render ["metric", "value"]
    ((versionSummary options state pages deleted).map fun row => [row.1, row.2]) ++ "\n"

/-- The report that a listing writes about some entries. -/
def versionTable (bucket : String) (separator : UInt8) (entries : List VersionEntry) : Csv.Report :=
  .holding (Char.ofNat separator.toNat) versionHeadings (entries.map (versionFields bucket))

/-- A listing that did not fail is delivered and reported. -/
theorem conclude_run (options : VersionOptions) {separator : UInt8} {csv : Option Csv.Report}
    {world opened : World σ}
    (hopen : (openFiles options separator).run.run world = (.ok csv, opened))
    {visited : Run.Visited VersionState} {table : Csv.Report}
    (htable : visited.state.csv = options.csv.map fun _ => table) (deleted : Option DeleteSummary)
    (link : σ) :
    ∃ files, (conclude options visited (.ok deleted)).run.run { opened with link } =
        (.ok (), { world with
          files, link
          out := world.out ++ options.out.elim visited.state.text (fun _ => "") ++
            versionReport options visited.state visited.pages deleted }) ∧
      (options.out = none → options.csv = none → files = world.files) ∧
      ((∀ file other, options.out = some file → options.csv = some other →
          opened.files.locate file ≠ opened.files.locate other) →
        (∀ file, options.out = some file → files.readText file = .ok visited.state.text) ∧
          ∀ file, options.csv = some file → files.readText file = .ok table.text) := by
  obtain ⟨hopened, hsame, hout, hcsv⟩ := of_openFiles_run hopen
  let begun : World σ := { world with files := opened.files, link }
  have hbegun : { opened with link } = begun := by rw [hopened]
  obtain ⟨files, hrun, hkept, htexts⟩ :=
    deliverBoth_run (show ∀ file, _ → ∃ target, begun.files.IsOpen file target .empty from hout)
      hcsv visited.state.text table
  refine ⟨files, ?_, fun hno hnone => (hkept hno hnone).trans (hsame hno hnone), htexts⟩
  rw [hbegun, conclude, htable, ← bind_assoc, Run.run_bind_of_ok hrun, Run.printSummary,
    Run.run_printLine_bind, Run.printTable, String.append_empty, versionReport,
    ← String.append_assoc, ← String.append_assoc]
  rfl

/-- From a store that answers with some pages and refuses no deletion, the command lists the picks
of all pages together: a line for each on the screen or in a file, a row for each in the report, and
their totals below. Neither a trial nor a quiet run changes what they are, nor the report, the
totals or the batches, and a trial deletes nothing. -/
theorem listVersions_outputs (hreplays : machine.link.Replays left) {settingsPath : Option String}
    {options : VersionOptions} {path : StorePath} {settings : Settings} {separator : UInt8}
    {csv : Option Csv.Report} {world opened : World (List Request × σ)}
    (hpath : StorePath.parse options.path = .ok path)
    (hsettings : Settings.load world.files machine.around.home settingsPath = .ok settings)
    (hseparator : parseSeparator (options.separator.getD settings.output.separator) = .ok separator)
    (hpos : 1 ≤ options.batchSize settings) (hmax : options.batchSize settings ≤ 1000)
    (hopen : (openFiles options separator).run.run world = (.ok csv, opened))
    (hlisting : IsListing (left world.link.2))
    (hcount : (left world.link.2).length ≤ Run.allPages) :
    let client := Client.connect machine.recorded.link machine.around world.files settings
    let query := options.query machine.now path separator
    let listed := query.picks (listedEntries (left world.link.2))
    let batches := pruned (options.batchSize settings) options.delete listed
    let table := versionTable path.bucket separator listed
    ∀ dryRun quiet : Bool,
      let options := { options with dryRun, quiet }
      let lines := if quiet then "" else linesText (listed.map (versionLine query))
      ∃ state pages deleted link files,
        (listVersions machine.recorded settingsPath options).run.run world = (.ok (),
          { world with
            files, link
            out := world.out ++ options.out.elim lines (fun _ => "") ++
              versionReport options state pages deleted }) ∧
        (options.out = none → options.csv = none → files = world.files) ∧
        ((∀ file other, options.out = some file → options.csv = some other →
            opened.files.locate file ≠ opened.files.locate other) →
          (∀ file, options.out = some file → files.readText file = .ok lines) ∧
            ∀ file, options.csv = some file → files.readText file = .ok table.text) ∧
        state.csv = options.csv.map (fun _ => table) ∧
        state.stats = .totals listed ∧
        state.stats.versions + state.stats.tombstones = listed.length ∧
        (Int64.minValue.toInt ≤ VersionStats.versionBytes listed →
          VersionStats.versionBytes listed ≤ Int64.maxValue.toInt →
            state.stats.bytes.toInt = VersionStats.versionBytes listed) ∧
        Tells (options.batchSize settings) options.delete listed deleted ∧
        deletions link.1 =
          deletions world.link.1 ++ (if dryRun then [] else batches.map (path.bucket, ·)) ∧
        let source := (VersionListing.new path).source client
        let query := options.query machine.now path separator
        let deleter := chooseDeleter client path.bucket dryRun
        let start := .opening (options.report separator) options.delete (options.batchSize settings)
        ((gather source.beside query deleter.recorded start).run ([], world.link)).2.1 =
          batches := by
  intro client query listed batches table dryRun quiet options' lines
  let inv := Replaying left (deletions world.link.1) path.bucket dryRun
  have hdeleter : ∀ replies, (chooseDeleter client path.bucket dryRun).Sends (inv replies) _ :=
    Replaying.chooseDeleter_sends rfl hreplays
  have hsource : ∀ token reply rest batches,
      LeadsTo (inv (reply :: rest) batches) ((VersionListing.new path).source client token) _ :=
    Replaying.source_leads rfl hreplays (VersionListing.new path)
  have hstart : inv (left world.link.2) [] world.link := ⟨rfl, by simp⟩
  have hgather := gather_replies options.delete (options'.query machine.now path separator)
    (options.report separator) hdeleter hsource hpos hmax hlisting hcount
  -- Once more, with the batches on record beside the state.
  have hrecorded := gather_replies options.delete (options'.query machine.now path separator)
    (options.report separator) (fun replies => recorded_sends (hdeleter replies))
    (fun token reply rest batches => beside_leads (hsource token reply rest batches))
    hpos hmax hlisting hcount
  obtain ⟨-, -, -, -, ⟨hbatches, -⟩, -⟩ := hrecorded ([], world.link) ⟨rfl, hstart⟩
  let asked := (gather ((VersionListing.new path).source client)
    (options'.query machine.now path separator) (chooseDeleter client path.bucket dryRun)
    (.opening (options.report separator) options.delete (options.batchSize settings))).run
      world.link
  have hrun : (listVersions machine.recorded settingsPath options').run.run world =
      (conclude options' asked.1.1 asked.1.2).run.run { opened with link := asked.2 } :=
    listVersions_run hpath hsettings hseparator hpos hmax hopen
  have hasked : ∃ deleted rest, asked.1.2 = .ok deleted ∧
      asked.1.1.state.Lists (options'.query machine.now path separator) (options.report separator)
        listed ∧
      inv rest batches asked.2 ∧ Tells (options.batchSize settings) options.delete listed deleted :=
    hgather world.link hstart
  generalize asked = answer at hrun hasked
  obtain ⟨⟨visited, outcome⟩, link⟩ := answer
  obtain ⟨deleted, rest, rfl, hlists, ⟨-, hsent⟩, htells⟩ := hasked
  have htable := hlists.csv_eq
  rw [VersionOptions.report, Option.map_map] at htable
  obtain ⟨files, hconclude, hsame, htexts⟩ :=
    conclude_run options' hopen htable deleted link
  rw [hlists.text_eq] at hconclude htexts
  refine ⟨visited.state, visited.pages, deleted, link, files, hrun.trans hconclude, hsame, htexts,
    htable, hlists.stats_eq, ?_, ?_, htells, hsent, hbatches⟩
  · rw [hlists.stats_eq]
    exact VersionStats.totals_versions_add_tombstones _
  · rw [hlists.stats_eq]
    exact VersionStats.totals_bytes_toInt

end Outputs

end Command

/-- A store that answers listings of versions with the replies that are left. -/
def Link.replaying : Link (List VersionsReply) where
  send
    | .listVersions .. => fun
      | reply :: rest => (.ok reply, rest)
      | [] => (.error .timeout, [])
    | .deleteObjects .. => return .ok []
    | _ => return .error .timeout
  clock _ := ⟨0⟩

theorem Link.replaying_replays : Link.replaying.Replays id where
  lists := by
    rintro bucket start limit keyMarker versionMarker state reply rest rfl
    exact ⟨rest, rfl, rfl⟩
  deletes bucket objects state := ⟨state, rfl, rfl⟩

namespace Command

/-- A page with one version or delete marker. -/
def onePage (key version : String) (size : Option Int) (isLatest isMarker goesOn : Bool) :
    VersionsReply :=
  let listed := [⟨some key, some version, size, none, some isLatest⟩]
  ⟨if isMarker then [] else listed, if isMarker then listed else [], some goesOn, some key,
    some version⟩

/-- The pages of a deleted object with a superseded version, and of an object that is there. -/
def fourReplies : List VersionsReply :=
  [onePage "data/a" "m1" none true true true, onePage "data/a" "v0" (some 7) false false true,
    onePage "data/b" "v2" (some 5) true false true,
    onePage "data/b" "v1" (some 3) false false false]

/-- Of four entries three are listed, on the screen and in a report, and two of them are pruned by
one request each. -/
theorem listVersions_outputs_of_four_pages :
    let options : VersionOptions := ⟨"s3://b/data/", some 3, none, none, false, false, none,
      some "r.csv", some "tab", true, false, some 1⟩
    let world : World (List Request × List VersionsReply) := ⟨.empty, "", "", ([], fourReplies)⟩
    Link.replaying.Replays id ∧ IsListing fourReplies ∧
      ∃ state pages deleted link files,
        (listVersions (Machine.plain .replaying).recorded none options).run.run world = (.ok (),
          { world with
            files, link
            out := "s3://b/data/a\tm1\ttrue\ttombstone\t0\t-\n" ++
              "s3://b/data/a\tv0\tfalse\tfile\t7\t-\n" ++ "s3://b/data/b\tv2\ttrue\tfile\t5\t-\n" ++
              versionReport options state pages deleted }) ∧
        files.readText "r.csv" = .ok ("path\tversion\tlatest\ttype\tsize\tlast_modified\n" ++
          "s3://b/data/a\tm1\ttrue\ttombstone\t0\t-\n" ++
          "s3://b/data/a\tv0\tfalse\tfile\t7\t-\n" ++
          "s3://b/data/b\tv2\ttrue\tfile\t5\t-\n") ∧
        state.stats = ⟨2, 1, 0, 12⟩ ∧
        deletions link.1 = [("b", [⟨"data/a", some "m1"⟩]), ("b", [⟨"data/a", some "v0"⟩])] := by
  intro options world
  have hreplays : (Machine.plain .replaying).link.Replays id := Link.replaying_replays
  have hpath : StorePath.parse "s3://b/data/" = .ok ⟨"b", "data/"⟩ := rfl
  have hsettings : Settings.load world.files "/home/user" none = .ok .default := rfl
  have hseparator : parseSeparator "tab" = .ok 9 := if_pos (.inr rfl)
  obtain ⟨csv, opened, hopen⟩ : ∃ csv opened,
      (openFiles options 9).run.run world = (.ok csv, opened) := ⟨_, _, rfl⟩
  have hlisting : IsListing fourReplies := by decide +kernel
  let query := options.query ⟨0⟩ ⟨"b", "data/"⟩ 9
  let listed := query.picks (listedEntries fourReplies)
  have hlines : linesText (listed.map (versionLine query)) =
      "s3://b/data/a\tm1\ttrue\ttombstone\t0\t-\n" ++ "s3://b/data/a\tv0\tfalse\tfile\t7\t-\n" ++
        "s3://b/data/b\tv2\ttrue\tfile\t5\t-\n" := by
    decide +kernel
  have hrows : (versionTable "b" 9 listed).text =
      "path\tversion\tlatest\ttype\tsize\tlast_modified\n" ++
        "s3://b/data/a\tm1\ttrue\ttombstone\t0\t-\n" ++ "s3://b/data/a\tv0\tfalse\tfile\t7\t-\n" ++
        "s3://b/data/b\tv2\ttrue\tfile\t5\t-\n" := by
    decide +kernel
  obtain ⟨state, pages, deleted, link, files, hrun, -, htexts, -, hstats, -, -, -, hsent, -⟩ :=
    listVersions_outputs hreplays (show StorePath.parse options.path = _ from hpath) hsettings
      hseparator (by decide) (by decide) hopen hlisting (by decide) false false
  obtain ⟨-, htable⟩ := htexts nofun
  refine ⟨Link.replaying_replays, hlisting, state, pages, deleted, link, files, hrun.trans ?_,
    (htable "r.csv" rfl).trans ?_, hstats.trans ?_, hsent.trans ?_⟩
  · rw [← hlines]
    rfl
  · exact congrArg Except.ok hrows
  · decide +kernel
  · decide +kernel

end Command

end BucketCare

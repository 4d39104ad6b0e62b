import BucketCare.Proofs.Command.Outputs
import BucketCare.Proofs.Paging.Stopping
import Mathlib.Algebra.Ring.Int.Defs

/-!
# What a listing of objects writes

A page lists its folders and then its objects, and the limit is checked before each of them. What
the command has come to, its lines and its totals alike, is a function of the entries that it has
written; and those are the first entries of all pages together, wherever the limit falls. It stops
on the page that holds the first entry past the limit, and asks for no page behind it.

## Main definitions

* `ListedEntry`, `listedIn` — what is listed, on a page and on some pages
* `upTo`, `ReadsTo` — the entries up to a limit, and the page on which a limit stops a listing
* `ListState.written` — what a listing has come to when it has written some entries
* `Asks` — the requests for some pages

## Main results

* `Command.ListState.addAll_written` — entries are written until they go past the limit
* `Command.ListState.across_written` — what a listing comes to over some pages
* `Command.ListState.visiting_written` — what a listing comes to, and what it fetches
* `Command.list_writes` — what the command writes, reports and asks for
-/

namespace BucketCare

/-! ## What is listed -/

/-- An entry of a listing. -/
inductive ListedEntry where
  | folder (name : String)
  | object (entry : ObjectEntry)
  deriving DecidableEq, Repr

namespace ListedEntry

/-- The entry is an object. -/
def isObject : ListedEntry → Bool
  | folder _ => false
  | object _ => true

/-- The bytes of an entry; a folder has none. -/
def size : ListedEntry → Int
  | folder _ => 0
  | object entry => entry.size

end ListedEntry

/-- The bytes of some entries. -/
def listedBytes (entries : List ListedEntry) : Int := (entries.map ListedEntry.size).sum

/-- The entries of a page: its folders and then its objects. -/
def ObjectPage.entries (page : ObjectPage) : List ListedEntry :=
  page.folders.map .folder ++ page.objects.map .object

/-- The entries of some pages. -/
def listedIn (pages : List (Page ObjectPage String)) : List ListedEntry :=
  pages.flatMap fun page => page.content.entries

theorem listedIn_append (pages more : List (Page ObjectPage String)) :
    listedIn (pages ++ more) = listedIn pages ++ listedIn more := List.flatMap_append

theorem listedIn_append_singleton (pages : List (Page ObjectPage String))
    (page : Page ObjectPage String) :
    listedIn (pages ++ [page]) = listedIn pages ++ page.content.entries := by
  simp [listedIn]

/-- So many entries go past a limit. -/
def pastLimit (limit : Option Nat) (entries : Nat) : Bool := limit.any (· < entries)

/-- The entries up to a limit. -/
def upTo (limit : Option Nat) (entries : List ListedEntry) : List ListedEntry :=
  limit.elim entries entries.take

theorem upTo_of_within {limit : Option Nat} {entries : List ListedEntry}
    (h : pastLimit limit entries.length = false) : upTo limit entries = entries := by
  cases limit with
  | none => rfl
  | some limit =>
    have hwithin : entries.length ≤ limit := by simpa [pastLimit] using h
    exact List.take_of_length_le hwithin

/-- Behind a limit there is nothing up to it. -/
theorem upTo_append_of_past {limit : Option Nat} {entries : List ListedEntry}
    (h : pastLimit limit entries.length = true) (more : List ListedEntry) :
    upTo limit (entries ++ more) = upTo limit entries := by
  cases limit with
  | none => cases h
  | some limit =>
    have hpast : limit < entries.length := by simpa [pastLimit] using h
    exact List.take_append_of_le_length (Nat.le_of_lt hpast)

theorem pastLimit_append {limit : Option Nat} {entries : List ListedEntry}
    (h : pastLimit limit entries.length = true) (more : List ListedEntry) :
    pastLimit limit (entries ++ more).length = true := by
  cases limit with
  | none => cases h
  | some limit =>
    simp only [pastLimit, Option.any_some, decide_eq_true_eq, List.length_append] at h ⊢
    omega

/-- How many of some pages a listing reads: up to the page that holds the first entry past the
limit, or all of them if no entry is past it. -/
inductive ReadsTo (limit : Option Nat) : List (Page ObjectPage String) → Nat → Prop
  | past {before after : List (Page ObjectPage String)} {page : Page ObjectPage String}
      (hbefore : pastLimit limit (listedIn before).length = false)
      (hpage : pastLimit limit (listedIn (before ++ [page])).length = true) :
      ReadsTo limit (before ++ page :: after) (before.length + 1)
  | all {pages : List (Page ObjectPage String)}
      (hall : pastLimit limit (listedIn pages).length = false) : ReadsTo limit pages pages.length

theorem within_of_isPrefix {limit : Option Nat} {pages all : List (Page ObjectPage String)}
    (hbegins : pages <+: all) (h : pastLimit limit (listedIn all).length = false) :
    pastLimit limit (listedIn pages).length = false := by
  obtain ⟨more, rfl⟩ := hbegins
  cases hpast : pastLimit limit (listedIn pages).length with
  | false => rfl
  | true =>
    rw [listedIn_append, pastLimit_append hpast] at h
    cases h

namespace ReadsTo

variable {limit : Option Nat} {pages : List (Page ObjectPage String)} {n m : Nat}

/-- Fewer pages than are read are within the limit. -/
theorem within_of_lt (h : ReadsTo limit pages n) (hless : m < n) :
    pastLimit limit (listedIn (pages.take m)).length = false := by
  -- What goes past the limit is the last page that is read.
  cases h with
  | @past before after page hbefore _ =>
    rw [List.take_append_of_le_length (Nat.le_of_lt_succ hless)]
    exact within_of_isPrefix (List.take_prefix m before) hbefore
  | all hall => exact within_of_isPrefix (List.take_prefix m pages) hall

/-- If not all pages are read, those that are read go past the limit. -/
theorem past_of_lt (h : ReadsTo limit pages n) (hless : n < pages.length) :
    pastLimit limit (listedIn (pages.take n)).length = true := by
  cases h with
  | @past before after page _ hpage =>
    rwa [List.append_cons, List.take_left' (by simp)]
  | all => exact absurd hless (Nat.lt_irrefl _)

theorem le_length (h : ReadsTo limit pages n) : n ≤ pages.length := by
  cases h with
  | past => simp
  | all => exact Nat.le_refl _

/-- How many pages are read is settled by their entries. -/
theorem unique (h : ReadsTo limit pages n) (h' : ReadsTo limit pages m) : n = m := by
  have hnot {n m : Nat} (h : ReadsTo limit pages n) (h' : ReadsTo limit pages m) : ¬ n < m := by
    intro hless
    have hpast := h.past_of_lt (Nat.lt_of_lt_of_le hless h'.le_length)
    rw [h'.within_of_lt hless] at hpast
    cases hpast
  exact Nat.le_antisymm (Nat.le_of_not_lt (hnot h' h)) (Nat.le_of_not_lt (hnot h h'))

end ReadsTo

namespace Command

/-! ## One page -/

namespace ListState

variable {limit : Option Nat} {bucket separator : String}

/-- The line of an entry. -/
def line (bucket separator : String) : ListedEntry → String
  | .folder name => folderLine bucket separator name
  | .object entry => objectLine bucket separator entry

/-- One more entry. -/
def add (bucket separator : String) (state : ListState) : ListedEntry → ListState
  | .folder name => state.addFolder bucket separator name
  | .object entry => state.addObject bucket separator entry

/-- What a listing has come to when it has written some entries. -/
def written (bucket separator : String) (entries : List ListedEntry) : ListState where
  objects := entries.countP fun entry => entry.isObject
  folders := entries.countP fun entry => !entry.isObject
  bytes := .ofInt (listedBytes entries)
  lines := (entries.map (line bucket separator)).reverse

theorem entries_written (entries : List ListedEntry) :
    (written bucket separator entries).entries = entries.length := by
  rw [List.length_eq_countP_add_countP ListedEntry.isObject]
  simp [written, ListState.entries]

/-- The total is the number of the bytes when it has room for them. -/
theorem written_bytes_toInt {entries : List ListedEntry}
    (hleast : Int64.minValue.toInt ≤ listedBytes entries)
    (hmost : listedBytes entries ≤ Int64.maxValue.toInt) :
    (written bucket separator entries).bytes.toInt = listedBytes entries :=
  Int64.toInt_ofInt_of_le hleast (Int.lt_of_le_sub_one hmost)

theorem text_written (entries : List ListedEntry) :
    (written bucket separator entries).text =
      linesText (entries.map (line bucket separator)) := by
  rw [text, written, List.reverse_reverse]
  rfl

/-- One more entry is written. -/
theorem add_written (entries : List ListedEntry) (entry : ListedEntry) :
    add bucket separator (written bucket separator entries) entry =
      written bucket separator (entries ++ [entry]) := by
  cases entry <;>
    simp [add, addFolder, addObject, written, line, listedBytes, ListedEntry.isObject,
      ListedEntry.size, List.sum_append, Int64.ofInt_add]

theorem addAll_append {α : Type} (step : ListState → α → ListState) (entries more : List α)
    (state : ListState) : addAll limit step state (entries ++ more) =
      match addAll limit step state entries with
      | .stop state => .stop state
      | .more state => addAll limit step state more := by
  induction entries generalizing state with
  | nil => rfl
  | cons entry rest ih =>
    rw [List.cons_append, addAll, addAll]
    split
    · rfl
    · exact ih _

theorem addAll_map {α β : Type} (step : ListState → β → ListState) (f : α → β) (entries : List α)
    (state : ListState) : addAll limit step state (entries.map f) =
      addAll limit (fun state entry => step state (f entry)) state entries := by
  induction entries generalizing state with
  | nil => rfl
  | cons entry rest ih =>
    rw [List.map_cons, addAll, addAll]
    split
    · rfl
    · exact ih _

/-- When the limit is reached the next entry goes past it. -/
theorem past_of_reached {before : List ListedEntry} (h : pastLimit limit before.length = false)
    (hreached : limitReached limit before.length = true) (entry : ListedEntry)
    (rest : List ListedEntry) : pastLimit limit (before ++ entry :: rest).length = true ∧
      upTo limit (before ++ entry :: rest) = before := by
  cases limit with
  | none => cases hreached
  | some limit =>
    have hfull : limit = before.length := by
      simp only [pastLimit, Option.any_some, decide_eq_false_iff_not, limitReached,
        decide_eq_true_eq] at h hreached
      omega
    subst hfull
    simp [pastLimit, upTo]

theorem within_of_not_reached {before : List ListedEntry}
    (h : limitReached limit before.length = false) (entry : ListedEntry) :
    pastLimit limit (before ++ [entry]).length = false := by
  cases limit with
  | none => rfl
  | some limit =>
    simp only [limitReached, decide_eq_false_iff_not] at h
    simp only [pastLimit, Option.any_some, decide_eq_false_iff_not, List.length_append,
      List.length_singleton]
    omega

/-- The two loops over a page are one over its entries. -/
theorem visit_eq (page : ObjectPage) (state : ListState) :
    visit limit bucket separator page state =
      addAll limit (add bucket separator) state page.entries := by
  simp only [ObjectPage.entries, addAll_append, addAll_map]
  rfl

/-- Entries are written behind others until they go past the limit. -/
theorem addAll_written {before : List ListedEntry} (h : pastLimit limit before.length = false)
    (entries : List ListedEntry) :
    addAll limit (add bucket separator) (written bucket separator before) entries =
      if pastLimit limit (before ++ entries).length then
        .stop (written bucket separator (upTo limit (before ++ entries)))
      else .more (written bucket separator (before ++ entries)) := by
  induction entries generalizing before with
  | nil =>
    rw [List.append_nil, h]
    rfl
  | cons entry rest ih =>
    rw [addAll, entries_written, add_written]
    -- The limit is checked before an entry is written: the first entry past it stops the listing.
    cases hreached : limitReached limit before.length with
    | true =>
      obtain ⟨hpast, hsame⟩ := past_of_reached h hreached entry rest
      rw [hpast, hsame]
      rfl
    | false =>
      rw [if_neg Bool.false_ne_true, ih (within_of_not_reached hreached entry),
        List.append_assoc, List.singleton_append]

/-- A page is written behind other pages until its entries go past the limit. -/
theorem visit_written {before : List (Page ObjectPage String)}
    (h : pastLimit limit (listedIn before).length = false) (page : Page ObjectPage String) :
    visit limit bucket separator page.content (written bucket separator (listedIn before)) =
      if pastLimit limit (listedIn (before ++ [page])).length then
        .stop (written bucket separator (upTo limit (listedIn (before ++ [page]))))
      else .more (written bucket separator (listedIn (before ++ [page]))) := by
  rw [visit_eq, addAll_written h, listedIn_append_singleton]

variable (bucket separator) in
/-- What a listing comes to over some pages, behind others that are within the limit, and how many
of them it is handed. -/
theorem across_written {before : List (Page ObjectPage String)}
    (h : pastLimit limit (listedIn before).length = false) (pages : List (Page ObjectPage String)) :
    ∃ n, ReadsTo limit (before ++ pages) (before.length + n) ∧
      Visit.across (visit limit bucket separator) (pages.map Page.content)
        (written bucket separator (listedIn before)) =
          (if pastLimit limit (listedIn (before ++ pages)).length then
            .stop (written bucket separator (upTo limit (listedIn (before ++ pages))))
          else .more (written bucket separator (listedIn (before ++ pages))), n) := by
  induction pages generalizing before with
  | nil =>
    rw [List.append_nil, h]
    exact ⟨0, .all h, rfl⟩
  | cons page rest ih =>
    have hvisit : visit limit bucket separator page.content _ = _ := visit_written h page
    rw [List.map_cons, List.append_cons]
    cases hpast : pastLimit limit (listedIn (before ++ [page])).length with
    | true =>
      -- The visitor stops here, and the pages behind this one add nothing.
      rw [hpast, if_pos rfl] at hvisit
      refine ⟨1, ?_, ?_⟩
      · rw [List.append_assoc]
        exact .past h hpast
      · rw [Visit.across_cons_of_stop hvisit, listedIn_append (before ++ [page]),
          pastLimit_append hpast, upTo_append_of_past hpast]
        rfl
    | false =>
      rw [hpast, if_neg Bool.false_ne_true] at hvisit
      obtain ⟨n, hreads, hacross⟩ := ih hpast
      refine ⟨n + 1, ?_, ?_⟩
      · rw [List.length_append, List.length_singleton, Nat.add_assoc, Nat.add_comm 1] at hreads
        exact hreads
      · rw [Visit.across_cons_of_more hvisit, hacross]

variable (bucket separator) in
/-- A listing writes the first entries of all pages together, up to the limit. What is fetched is
what it reads. -/
theorem visiting_written {σ : Type} {source : Source σ ObjectPage String}
    {earlier : List (Page ObjectPage String)} {last : Page ObjectPage String} {count : Nat}
    {state final : σ} (hyields : source.Yields none state (earlier ++ [last]) count final)
    (hgoes : ∀ page ∈ earlier, page.continues = true)
    (hends : last.continues = false ∨
      pastLimit limit (listedIn (earlier ++ [last])).length = true)
    (hcount : (earlier ++ [last]).length ≤ Run.allPages) : ∃ pages state' sent,
      ReadsTo limit (earlier ++ [last]) pages ∧
      (visiting source (fun page state => return (none, visit limit bucket separator page state))
        start).run state =
        (⟨none, written bucket separator (upTo limit (listedIn (earlier ++ [last]))), pages⟩,
          state') ∧
      source.Yields none state ((earlier ++ [last]).take pages) sent state' := by
  have hempty : pastLimit limit (listedIn []).length = false := by cases limit <;> rfl
  obtain ⟨pages, hreads, hacross⟩ := across_written bucket separator hempty (earlier ++ [last])
  rw [List.nil_append, List.length_nil, Nat.zero_add] at hreads
  rw [List.nil_append] at hacross
  generalize hall : listedIn (earlier ++ [last]) = all at hends hacross ⊢
  cases hpast : pastLimit limit all.length with
  | true =>
    rw [hpast, if_pos rfl] at hacross
    obtain ⟨state', sent, hvisited, hsent⟩ :=
      visiting_of_yields hyields hgoes (.inr ⟨_, congrArg Prod.fst hacross⟩) hcount
    rw [hacross] at hvisited hsent
    exact ⟨pages, state', sent, hreads, hvisited, hsent⟩
  | false =>
    rw [hpast] at hends hacross
    obtain ⟨state', sent, hvisited, hsent⟩ :=
      visiting_of_yields hyields hgoes (.inl (hends.resolve_right nofun)) hcount
    rw [hacross] at hvisited hsent
    rw [upTo_of_within hpast]
    exact ⟨pages, state', sent, hreads, hvisited, hsent⟩

end ListState

end Command

/-! ## Requests -/

/-- The requests for some pages: each page is asked for behind the page before it, and once more if
the first try failed. -/
inductive Asks {α τ : Type} (request : Option τ → Request) :
    Option τ → List (Page α τ) → List Request → Prop
  | nil {token : Option τ} : Asks request token [] []
  | cons {token : Option τ} {page : Page α τ} {pages : List (Page α τ)} {sent : List Request}
      {tries : Nat} (htries : tries = 1 ∨ tries = 2) (hrest : Asks request page.next pages sent) :
      Asks request token (page :: pages) (List.replicate tries (request token) ++ sent)

/-- A page that was fetched is what the first request gave, or what the second gave behind a failure
of the first. -/
theorem Cursor.fetched_cases {σ α τ : Type} {source : Source σ α τ} {token : Option τ}
    {state after : σ} {page : Page α τ} {tries : Nat}
    (h : (fetch source token).run state = ((.ok page, tries), after)) :
    (tries = 1 ∧ (source token).run state = (.ok page, after)) ∨
      (tries = 2 ∧ ∃ e between, (source token).run state = (.error e, between) ∧
        (source token).run between = (.ok page, after)) := by
  obtain ⟨first, state₁, hfirst⟩ :
      ∃ first state₁, (source token).run state = (first, state₁) := ⟨_, _, rfl⟩
  cases first with
  | ok page' =>
    cases (fetch_of_ok hfirst).symm.trans h
    exact .inl ⟨rfl, hfirst⟩
  | error e =>
    cases hpass : e.isRetryable with
    | false => cases (fetch_of_error hfirst hpass).symm.trans h
    | true =>
      obtain ⟨second, state₂, hsecond⟩ :
          ∃ second state₂, (source token).run state₁ = (second, state₂) := ⟨_, _, rfl⟩
      rw [fetch_of_passing hfirst hpass, hsecond] at h
      cases h
      exact .inr ⟨rfl, e, state₁, hfirst, hsecond⟩

namespace ObjectListing

variable {σ : Type} {link : Link σ} {client : Client (List Request × σ)} {listing : ObjectListing}
variable {token : Option String} {page : Page ObjectPage String} {sent : List Request} {state : σ}

/-- The request for a page of objects, by the version that the client speaks. -/
def request {σ : Type} (client : Client σ) (listing : ObjectListing) (token : Option String) :
    Request :=
  if client.listVersion = 1 then
    .listObjects listing.bucket listing.folder listing.delimiter client.pageSize token
  else .listObjectsV2 listing.bucket listing.folder listing.delimiter client.pageSize token

/-- A request goes on record, whatever is made of its reply. -/
theorem request_recorded {β : Type} (hlink : client.link = link.recorded) (request : Request)
    (read : request.Reply → β) (sent : List Request) (state : σ) : ∃ answer state',
      (do return (← (client.request request).run).map read : StateM _ (Except Error β)).run
        (sent, state) = (answer, (sent ++ [request], state')) := by
  rw [StateT.run_bind, Client.request_run, hlink]
  exact ⟨_, _, rfl⟩

variable (listing) in
/-- A client that speaks a version sends one request for a page. -/
theorem source_recorded (hlink : client.link = link.recorded)
    (hversion : client.listVersion = 1 ∨ client.listVersion = 2) (token : Option String)
    (sent : List Request) (state : σ) : ∃ answer state',
      (listing.source client token).run (sent, state) =
        (answer, (sent ++ [listing.request client token], state')) := by
  rcases hversion with hversion | hversion
  · rw [source, request, hversion, if_pos rfl]
    exact request_recorded hlink (.listObjects _ _ _ _ _) pageV1 sent state
  · rw [source, request, hversion, if_neg (by decide)]
    exact request_recorded hlink (.listObjectsV2 _ _ _ _ _) pageV2 sent state

/-- A client that gets a page speaks one of the two versions. -/
theorem speaks_of_ok {client : Client σ} {state after : σ}
    (h : (listing.source client token).run state = (.ok page, after)) :
    client.listVersion = 1 ∨ client.listVersion = 2 := by
  unfold source at h
  split at h
  next hone => exact .inl hone
  next htwo => exact .inr htwo
  · cases h

/-- A page that was fetched took one request or two, which are on record. -/
theorem fetch_recorded (hlink : client.link = link.recorded) {tries : Nat}
    {after : List Request × σ}
    (h : (Cursor.fetch (listing.source client) token).run (sent, state) =
      ((.ok page, tries), after)) :
    (tries = 1 ∨ tries = 2) ∧
      after.1 = sent ++ List.replicate tries (listing.request client token) := by
  rcases Cursor.fetched_cases h with ⟨rfl, hfirst⟩ | ⟨rfl, e, ⟨log, between⟩, hfirst, hsecond⟩
  · obtain ⟨_, _, hrun⟩ :=
      source_recorded listing hlink (speaks_of_ok hfirst) token sent state
    cases hfirst.symm.trans hrun
    exact ⟨.inl rfl, rfl⟩
  · -- The second try sends the same request again.
    have hversion := speaks_of_ok hsecond
    obtain ⟨_, _, hrun⟩ := source_recorded listing hlink hversion token sent state
    cases hfirst.symm.trans hrun
    obtain ⟨_, _, hagain⟩ := source_recorded listing hlink hversion token
      (sent ++ [listing.request client token]) between
    cases hsecond.symm.trans hagain
    exact ⟨.inr rfl, List.append_assoc ..⟩

/-- The pages that were fetched are those that were asked for. -/
theorem yields_asks (hlink : client.link = link.recorded) {token : Option String}
    {pages : List (Page ObjectPage String)} {count : Nat} {before after : List Request × σ}
    (h : (listing.source client).Yields token before pages count after) :
    ∃ sent, after.1 = before.1 ++ sent ∧ Asks (listing.request client) token pages sent := by
  induction h with
  | nil => exact ⟨[], (List.append_nil _).symm, .nil⟩
  | cons hfetch _ ih =>
    obtain ⟨htries, hlog⟩ := fetch_recorded hlink hfetch
    obtain ⟨sent, hafter, hasks⟩ := ih
    refine ⟨_, ?_, .cons htries hasks⟩
    rw [hafter, hlog, List.append_assoc]

end ObjectListing

/-! ## The command -/

namespace Command

variable {σ : Type}

/-- What is reported of a listing. -/
def listReport (state : ListState) (pages : Nat) : String :=
  s!"Found {state.objects} objects ({Decimal.ByteSize.display state.bytes.toInt}) and " ++
    s!"{state.folders} directories in {pages} pages"

/-- What is told about the file of a listing. -/
def fileReport (state : ListState) (out : Option String) : String :=
  out.elim "" fun file => s!"  ✅ Listing written to {file} ({state.entries} lines)" ++ "\n"

/-- When a listing ends without a failure, it is delivered and reported. -/
theorem list_run (machine : Machine σ) {settingsPath : Option String} {options : ListOptions}
    {path : StorePath} {settings : Settings} {world opened after : World σ}
    (hpath : StorePath.parse options.path = .ok path)
    (hsettings : Settings.load world.files machine.around.home settingsPath = .ok settings)
    (hopen : (openOut options.out).run.run world = (.ok (), opened))
    {state : ListState} {pages : Nat} {link : σ}
    (hvisited : (visiting ((ObjectListing.new path options.recursive).source
      (Client.connect machine.link machine.around world.files settings))
        (fun page state => return (none, ListState.visit options.limit path.bucket
          settings.output.separator page state)) .start).run world.link =
      (⟨none, state, pages⟩, link))
    (hdeliver : (deliver options.out state.text).run.run { opened with link } = (.ok (), after)) :
    (list machine settingsPath options).run.run world = (.ok (), { after with
      out := after.out ++ "\n" ++ listReport state pages ++ "\n" ++
        fileReport state options.out }) := by
  have hkeeps : Run.Keeps (fun link => link = world.link) _ (openOut options.out) :=
    keeps_openOut options.out
  have hlink := (hkeeps world rfl).2
  rw [hopen] at hlink
  rw [list, hpath, Run.run_ofExcept_bind, Run.run_bind_of_ok (Run.connect_run hsettings)]
  dsimp only
  rw [Run.run_bind_of_ok hopen, visitPages_eq, Run.run_onLink_bind]
  dsimp only at hlink ⊢
  rw [hlink, hvisited]
  dsimp only
  have hgoes : (Run.failIf none).run.run after = (.ok (), after) := rfl
  rw [Run.run_bind_of_ok hdeliver, Run.run_bind_of_ok hgoes, Run.run_printLine_bind,
    Run.run_printLine_bind, String.append_empty]
  unfold fileReport
  cases options.out with
  | none =>
    rw [Option.elim_none, String.append_empty]
    rfl
  | some file =>
    have hlast (line : String) : after.out ++ "\n" ++ listReport state pages ++ "\n" ++
        (line ++ "\n") = after.out ++ "\n" ++ listReport state pages ++ "\n" ++ line ++ "\n" :=
      String.append_assoc.symm
    rw [Option.elim_some, hlast]
    rfl

/-- The command writes the first entries of all pages together, up to the limit, a line for each,
and reports their totals and the page on which it stopped. The bytes are told as a number of 64 bits
with a sign, which is their sum when it has room for it. The command asks for no page behind the one
it stopped on. -/
theorem list_writes (machine : Machine σ) {settingsPath : Option String} {options : ListOptions}
    {path : StorePath} {settings : Settings} {world opened : World (List Request × σ)}
    (hpath : StorePath.parse options.path = .ok path)
    (hsettings : Settings.load world.files machine.around.home settingsPath = .ok settings)
    (hopen : (openOut options.out).run.run world = (.ok (), opened))
    {earlier : List (Page ObjectPage String)} {last : Page ObjectPage String} {count : Nat}
    {final : List Request × σ}
    (hyields : ((ObjectListing.new path options.recursive).source
      (Client.connect machine.recorded.link machine.around world.files settings)).Yields none
        world.link (earlier ++ [last]) count final)
    (hgoes : ∀ page ∈ earlier, page.continues = true)
    (hends : last.continues = false ∨
      pastLimit options.limit (listedIn (earlier ++ [last])).length = true)
    (hcount : (earlier ++ [last]).length ≤ Run.allPages) :
    let client := Client.connect machine.recorded.link machine.around world.files settings
    let listed := upTo options.limit (listedIn (earlier ++ [last]))
    let lines := listed.map (ListState.line path.bucket settings.output.separator)
    ∃ state pages sent link files,
      (list machine.recorded settingsPath options).run.run world = (.ok (),
        { world with
          files
          link := (world.link.1 ++ sent, link)
          out := world.out ++ options.out.elim (linesText lines) (fun _ => "") ++ "\n" ++
            listReport state pages ++ "\n" ++ fileReport state options.out }) ∧
      (options.out = none → files = world.files) ∧
      (∀ file, options.out = some file → files.readText file = .ok (linesText lines)) ∧
      state.objects = (listed.filter fun entry => entry.isObject).length ∧
      state.folders = (listed.filter fun entry => !entry.isObject).length ∧
      state.objects + state.folders = listed.length ∧
      state.bytes = .ofInt (listedBytes listed) ∧
      (Int64.minValue.toInt ≤ listedBytes listed → listedBytes listed ≤ Int64.maxValue.toInt →
        state.bytes.toInt = listedBytes listed) ∧
      ReadsTo options.limit (earlier ++ [last]) pages ∧
      Asks ((ObjectListing.new path options.recursive).request client) none
        ((earlier ++ [last]).take pages) sent := by
  intro client listed lines
  obtain ⟨pages, ⟨sent, link⟩, requests, hreads, hvisited, hyielded⟩ :=
    ListState.visiting_written path.bucket settings.output.separator hyields hgoes hends hcount
  obtain ⟨asked, rfl, hasks⟩ := ObjectListing.yields_asks rfl hyielded
  -- The text is delivered before anything is reported, to the file that was made at the start.
  obtain ⟨files, hdeliver, hscreen, hfile⟩ :=
    deliver_run hopen (ListState.written path.bucket settings.output.separator listed).text
      (world.link.1 ++ asked, link)
  have hrun := list_run machine.recorded hpath hsettings hopen hvisited hdeliver
  simp only [ListState.text_written] at hrun hfile
  exact ⟨_, pages, asked, link, files, hrun, hscreen, hfile, List.countP_eq_length_filter,
    List.countP_eq_length_filter, ListState.entries_written listed, rfl,
    ListState.written_bytes_toInt, hreads, hasks⟩

end Command

/-- A store that answers requests for pages of objects, one behind the other. -/
def Link.answering : Link (List (Except Fault ObjectsReply)) where
  send
    | .listObjectsV2 .. => fun
      | answer :: rest => (answer, rest)
      | [] => (.error .timeout, [])
    | _ => return .error .timeout
  clock _ := ⟨0⟩

namespace Command

/-- A page with a folder and an object, which goes on. -/
def onePair (folder key : String) (size : Int) (token : String) : ObjectsReply :=
  ⟨[⟨some key, some size, none, none, none⟩], [some folder], some true, some token⟩

/-- Of two pages, the second of which takes two tries, the first three entries are listed. A third
page is not asked for. -/
theorem list_writes_three :
    let options : ListOptions := ⟨"s3://b/data/", some 3, false, none⟩
    let first := onePair "data/c/" "data/a" 5 "t"
    let second := onePair "data/d/" "data/b" 7 "u"
    let world : World (List Request × List (Except Fault ObjectsReply)) :=
      ⟨.empty, "", "", ([], [.ok first, .error .timeout, .ok second, .ok first])⟩
    ∃ state sent link,
      (list (Machine.plain .answering).recorded none options).run.run world = (.ok (),
        { world with
          link := (sent, link)
          out := "s3://b/data/c/\tDIR\ns3://b/data/a\t5\t-\ns3://b/data/d/\tDIR\n" ++
            "\n" ++ listReport state 2 ++ "\n" }) ∧
      state.objects = 1 ∧ state.folders = 2 ∧ state.bytes.toInt = 5 := by
  intro options first second world
  let page := ObjectListing.pageV2 first
  let last := ObjectListing.pageV2 second
  have hpath : StorePath.parse "s3://b/data/" = .ok ⟨"b", "data/"⟩ := rfl
  have hsettings : Settings.load world.files "/home/user" none = .ok .default := rfl
  have hopen : (openOut options.out).run.run world = (.ok (), world) := rfl
  obtain ⟨final, hyields⟩ : ∃ final, ((ObjectListing.new ⟨"b", "data/"⟩ false).source
      (Client.connect (Machine.plain .answering).recorded.link ⟨"/home/user", []⟩ .empty
        .default)).Yields none world.link ([page] ++ [last]) (1 + (2 + 0)) final :=
    ⟨_, .cons rfl (.cons rfl .nil)⟩
  have hpast : pastLimit (some 3) (listedIn ([page] ++ [last])).length = true := by decide
  have hreads : ReadsTo (some 3) ([page] ++ [last]) 2 := .past (by decide) hpast
  obtain ⟨state, pages, sent, link, files, hrun, hsame, -, hobjects, hfolders, -, -, hbytes, hpages,
    -⟩ := list_writes (.plain .answering) (show StorePath.parse options.path = _ from hpath)
      hsettings hopen hyields (by decide) (.inr hpast) (by decide)
  obtain rfl := hpages.unique hreads
  obtain rfl := hsame rfl
  have hlines : linesText ((upTo options.limit (listedIn ([page] ++ [last]))).map
      (ListState.line "b" Settings.default.output.separator)) =
        "s3://b/data/c/\tDIR\ns3://b/data/a\t5\t-\ns3://b/data/d/\tDIR\n" := by
    decide +kernel
  refine ⟨state, sent, link, hrun.trans ?_, hobjects, hfolders, hbytes (by decide) (by decide)⟩
  rw [hlines]
  simp [options, world, fileReport]

end Command

end BucketCare

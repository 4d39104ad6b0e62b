import BucketCare.Command.Listing
import BucketCare.Proofs.Command.Leading
import BucketCare.Proofs.Command.Visiting
import BucketCare.Proofs.Csv
import Mathlib.Algebra.Ring.Int.Defs

/-!
# What a listing of versions gathers

A listing of versions serves its lines, its report, its totals and its deletions from one loop. The
loop lists the entries that are selected, up to the limit, and each of the four is a function of
what is listed: no page boundary shows in them, and none of them depends on another.

## Main definitions

* `VersionStats.versionBytes`, `VersionStats.totals` — the totals over some entries
* `VersionQuery.picks` — the entries that are listed
* `VersionState.Lists` — what a listing has come to when it has listed some entries
* `gather`, `conclude` — the two halves of a listing: what it asks of the store, and what it writes

## Main results

* `VersionState.visit_leads` — what one page adds
* `gather_leads` — what a whole listing comes to
* `listVersions_eq` — the command is what it asks of the store and then what it writes
-/

namespace BucketCare

/-! ## What is listed -/

namespace VersionStats

/-- The bytes of the versions among some entries. -/
def versionBytes (entries : List VersionEntry) : Int :=
  ((entries.filter fun entry => !entry.isMarker).map fun entry => entry.size).sum

/-- The totals over some entries. -/
def totals (entries : List VersionEntry) : VersionStats where
  versions := entries.countP fun entry => !entry.isMarker
  tombstones := entries.countP fun entry => entry.isMarker
  directoryMarkers := entries.countP fun entry => entry.isDirectory
  bytes := .ofInt (versionBytes entries)

theorem totals_append_singleton (entries : List VersionEntry) (entry : VersionEntry) :
    totals (entries ++ [entry]) = (totals entries).add entry := by
  cases hmarker : entry.isMarker <;>
    simp [totals, versionBytes, add, hmarker, List.countP_append, List.countP_cons,
      List.sum_append, Int64.ofInt_add]

/-- The total is the number of the bytes when it has room for them. -/
theorem totals_bytes_toInt {entries : List VersionEntry}
    (hleast : Int64.minValue.toInt ≤ versionBytes entries)
    (hmost : versionBytes entries ≤ Int64.maxValue.toInt) :
    (totals entries).bytes.toInt = versionBytes entries :=
  Int64.toInt_ofInt_of_le hleast (Int.lt_of_le_sub_one hmost)

/-- Each entry counts as a version or as a tombstone. -/
theorem totals_versions_add_tombstones (entries : List VersionEntry) :
    (totals entries).versions + (totals entries).tombstones = entries.length := by
  rw [Nat.add_comm, List.length_eq_countP_add_countP VersionEntry.isMarker]
  simp [totals]

end VersionStats

namespace Command

/-- The entries that are listed: those that are selected, up to the limit. -/
def VersionQuery.picks (query : VersionQuery) (entries : List VersionEntry) : List VersionEntry :=
  let selected := entries.filter (VersionState.selects query)
  match query.limit with
  | some limit => selected.take limit
  | none => selected

/-- An entry's line. -/
def versionLine (query : VersionQuery) (entry : VersionEntry) : String :=
  query.separator.intercalate (versionFields query.bucket entry)

theorem versionFields_length (bucket : String) (entry : VersionEntry) :
    (versionFields bucket entry).length = versionHeadings.length := rfl

/-- The candidates of the entries that can be pruned. -/
def prunable (entries : List VersionEntry) : List Candidate :=
  (entries.filter VersionEntry.isPrunable).map VersionEntry.candidate

theorem prunable_append (entries more : List VersionEntry) :
    prunable (entries ++ more) = prunable entries ++ prunable more := by
  simp [prunable]

namespace VersionQuery

variable {query : VersionQuery} {read : List VersionEntry} {entry : VersionEntry}

/-- Behind the limit nothing is listed. -/
theorem picks_append_of_reached (h : limitReached query.limit (query.picks read).length = true)
    (more : List VersionEntry) : query.picks (read ++ more) = query.picks read := by
  cases hlimit : query.limit with
  | none => simp [limitReached, hlimit] at h
  | some limit =>
    have hfull : limit ≤ (read.filter (VersionState.selects query)).length := by
      simp only [limitReached, picks, hlimit, List.length_take, decide_eq_true_eq] at h
      omega
    simp [picks, hlimit, List.take_append_of_le_length hfull]

theorem picks_append_of_not_selects (h : VersionState.selects query entry = false) :
    query.picks (read ++ [entry]) = query.picks read := by
  simp [picks, h]

theorem picks_append_of_selects (hroom : limitReached query.limit (query.picks read).length = false)
    (h : VersionState.selects query entry = true) :
    query.picks (read ++ [entry]) = query.picks read ++ [entry] := by
  cases hlimit : query.limit with
  | none => simp [picks, hlimit, h]
  | some limit =>
    have hless : (read.filter (VersionState.selects query)).length + 1 ≤ limit := by
      simp only [limitReached, picks, hlimit, List.length_take, decide_eq_false_iff_not] at hroom
      omega
    simp only [picks, hlimit, List.filter_append, List.filter_cons, h, if_true, List.filter_nil]
    rw [List.take_of_length_le (by simpa using hless), List.take_of_length_le (Nat.le_of_lt hless)]

end VersionQuery

/-! ## One entry, one page -/

/-- What a listing has come to when it has listed some entries: the lines, the totals, and the
report if one is written, with its separator. -/
structure VersionState.Lists (query : VersionQuery) (report : Option Char)
    (entries : List VersionEntry) (state : VersionState) : Prop where
  listed_eq : state.listed = entries.length
  stats_eq : state.stats = .totals entries
  lines_eq : state.lines.reverse = if query.quiet then [] else entries.map (versionLine query)
  csv_eq : state.csv = report.map fun separator =>
    .holding separator versionHeadings (entries.map (versionFields query.bucket))

section Visiting

variable {σ : Type} {inv : List (List Candidate) → σ → Prop} {failed : Error → Prop}
variable {deleter : Deleter σ} {size : Nat} {pruning : Bool}
variable {query : VersionQuery} {report : Option Char}

/-- What it has deleted of them, if anything is pruned. -/
def VersionState.Prunes (inv : List (List Candidate) → σ → Prop) (size : Nat) (pruning : Bool)
    (entries : List VersionEntry) (state : VersionState) (link : σ) : Prop :=
  match state.batcher with
  | none => pruning = false ∧ inv [] link
  | some batcher => pruning = true ∧ batcher.Shares inv size (prunable entries) link

namespace VersionState

/-- What was deleted is the start of what can be pruned, and no other part of the link's state
matters. -/
theorem Prunes.exists_batches {state : VersionState} {entries : List VersionEntry} {link : σ}
    (h : state.Prunes inv size pruning entries link) :
    ∃ batches, inv batches link ∧ batches.flatten <+: prunable entries ∧
      ∀ (inv' : List (List Candidate) → σ → Prop) (link' : σ), inv' batches link' →
        state.Prunes inv' size pruning entries link' := by
  unfold Prunes at h ⊢
  cases hbatcher : state.batcher with
  | none =>
    simp only [hbatcher] at h ⊢
    exact ⟨[], h.2, List.nil_prefix, fun _ _ hinv' => ⟨h.1, hinv'⟩⟩
  | some batcher =>
    simp only [hbatcher] at h ⊢
    obtain ⟨hpruning, batches, hinv, hbatched, htotals⟩ := h
    exact ⟨batches, hinv, ⟨_, hbatched.sent_append_pending⟩,
      fun _ _ hinv' => ⟨hpruning, batches, hinv', hbatched, htotals⟩⟩

/-- One more entry is listed. Its row is never refused. -/
theorem Lists.add {state : VersionState} {entries : List VersionEntry}
    (h : state.Lists query report entries) (entry : VersionEntry) :
    ∃ next : VersionState, (state.add query entry).report query entry = (none, next) ∧
      next.Lists query report (entries ++ [entry]) ∧ next.batcher = state.batcher := by
  have hlisted : (state.add query entry).listed = (entries ++ [entry]).length := by
    simp [VersionState.add, h.listed_eq]
  have hstats : (state.add query entry).stats = .totals (entries ++ [entry]) := by
    rw [VersionStats.totals_append_singleton, ← h.stats_eq]
    rfl
  have hlines : (state.add query entry).lines.reverse =
      if query.quiet then [] else (entries ++ [entry]).map (versionLine query) := by
    have hlines := h.lines_eq
    cases hquiet : query.quiet <;>
      simp_all [VersionState.add, versionLine]
  have hcsv : (state.add query entry).csv = state.csv := rfl
  unfold VersionState.report
  cases hreport : report with
  | none =>
    have hnone : state.csv = none := by simpa [hreport] using h.csv_eq
    rw [hcsv, hnone]
    exact ⟨_, rfl, ⟨hlisted, hstats, hlines, by simp [hcsv, hnone]⟩, rfl⟩
  | some separator =>
    have hsome := h.csv_eq
    rw [hreport] at hsome
    rw [hcsv, hsome]
    dsimp only [Option.map_some]
    -- A row is refused only when its fields are not as many as the headings.
    rw [Csv.Report.row_holding separator _ (versionFields_length query.bucket entry)]
    exact ⟨_, rfl, ⟨hlisted, hstats, hlines, by simp⟩, rfl⟩

variable (pruning)

/-- An entry that was listed is pruned if it can be. -/
theorem prune_leads (hdeleter : deleter.Sends inv failed) (hmax : size ≤ maxPageSize)
    {state : VersionState} {listed : List VersionEntry} (hlists : state.Lists query report listed)
    (entries : List VersionEntry) (entry : VersionEntry) :
    LeadsTo (state.Prunes inv size pruning entries) (state.prune deleter entry)
      fun answer link => answer.1.elim
        (answer.2.Lists query report listed ∧
          answer.2.Prunes inv size pruning (entries ++ [entry]) link)
        failed := by
  unfold VersionState.prune
  cases hbatcher : state.batcher with
  | none =>
    apply LeadsTo.pure
    intro link hprunes
    simp only [Prunes, hbatcher] at hprunes
    simp only [Prunes, hbatcher]
    exact ⟨hlists, hprunes⟩
  | some batcher =>
    dsimp only
    split
    next hprunable =>
      have hcandidates : prunable (entries ++ [entry]) = prunable entries ++ [entry.candidate] := by
        rw [prunable_append]
        simp [prunable, hprunable]
      apply LeadsTo.of_forall
      intro link hprunes
      simp only [Prunes, hbatcher] at hprunes
      obtain ⟨hpruning, hshares⟩ := hprunes
      have hpush :=
        Batcher.Shares.push batcher (prunable entries) hdeleter hmax entry.candidate
      refine (hpush.at_state hshares).bind ?_
      rintro ⟨answer, batcher'⟩
      cases answer with
      | error e => exact .pure fun _ he => he
      | ok _ =>
        apply LeadsTo.pure
        intro link' hshares'
        refine ⟨⟨hlists.listed_eq, hlists.stats_eq, hlists.lines_eq, hlists.csv_eq⟩, ?_⟩
        simp only [Prunes, hcandidates]
        exact ⟨hpruning, hshares'⟩
    next hkept =>
      have hcandidates : prunable (entries ++ [entry]) = prunable entries := by
        rw [prunable_append]
        simp [prunable, hkept]
      apply LeadsTo.pure
      intro link hprunes
      simp only [Prunes, hbatcher] at hprunes
      simp only [Prunes, hbatcher, hcandidates]
      exact ⟨hlists, hprunes⟩

/-- A page is listed behind what was read before it, or the limit is reached on it. -/
theorem visit_leads (hdeleter : deleter.Sends inv failed) (hmax : size ≤ maxPageSize)
    (entries : List VersionEntry) {read : List VersionEntry} {state : VersionState}
    (hlists : state.Lists query report (query.picks read)) :
    LeadsTo (state.Prunes inv size pruning (query.picks read)) (visit query deleter entries state)
      fun answer link => answer.1.elim
        (answer.2.state.Lists query report (query.picks (read ++ entries)) ∧
          answer.2.state.Prunes inv size pruning (query.picks (read ++ entries)) link ∧
          answer.2.Goes
            (fun _ => limitReached query.limit (query.picks (read ++ entries)).length = true)
            (fun _ => True))
        failed := by
  -- The first entry of the page moves over to what was read.
  induction entries generalizing read state with
  | nil =>
    apply LeadsTo.pure
    intro link hprunes
    rw [List.append_nil]
    exact ⟨hlists, hprunes, trivial⟩
  | cons entry rest ih =>
    rw [visit, hlists.listed_eq]
    cases hlimit : limitReached query.limit (query.picks read).length with
    | true =>
      have hsame := VersionQuery.picks_append_of_reached hlimit (entry :: rest)
      apply LeadsTo.pure
      intro link hprunes
      rw [hsame]
      exact ⟨hlists, hprunes, hlimit⟩
    | false =>
      rw [List.append_cons]
      cases hselects : selects query entry with
      | false =>
        have hsame : query.picks (read ++ [entry]) = query.picks read :=
          VersionQuery.picks_append_of_not_selects hselects
        rw [← hsame] at hlists ⊢
        exact ih hlists
      | true =>
        have hmore := VersionQuery.picks_append_of_selects hlimit hselects
        obtain ⟨next, hreport, hnext, hbatcher⟩ := hlists.add entry
        rw [← hmore] at hnext
        simp only [Bool.not_true, Bool.false_eq_true, if_false, hreport]
        have hprune := prune_leads pruning hdeleter hmax hnext (query.picks read) entry
        refine (hprune.weaken ?_).bind ?_
        · intro link hprunes
          rwa [Prunes, hbatcher]
        rintro ⟨failure, pruned⟩
        cases failure with
        | some e => exact .pure fun _ he => he
        | none =>
          apply LeadsTo.of_forall
          rintro link ⟨hpruned, hprunes⟩
          rw [← hmore] at hprunes
          exact (ih hpruned).at_state hprunes

end VersionState

end Visiting

/-! ## A whole listing -/

/-- What a listing asks of the store: it is read to its end or to the limit, and then what still
waits is deleted. -/
def gather {σ : Type} (source : Source σ (List VersionEntry) VersionMarker) (query : VersionQuery)
    (deleter : Deleter σ) (start : VersionState) :
    StateM σ (Run.Visited VersionState × Except Error (Option DeleteSummary)) := do
  let visited ← visiting source (VersionState.visit query deleter) start
  match visited.failure, visited.state.batcher with
  | some e, _ => return (visited, .error e)
  | none, none => return (visited, .ok none)
  | none, some batcher => return (visited, (← batcher.finish deleter).map some)

/-- What is told about the deletions of some entries. -/
def Tells (size : Nat) (pruning : Bool) (entries : List VersionEntry) :
    Option DeleteSummary → Prop
  | none => pruning = false
  | some summary => pruning = true ∧ summary.candidates = (prunable entries).length ∧
      summary.flushes = (inPages size (prunable entries)).length

/-- The batches that are deleted of some entries. -/
def pruned (size : Nat) (pruning : Bool) (entries : List VersionEntry) : List (List Candidate) :=
  if pruning then inPages size (prunable entries) else []

section Gathering

variable {σ ρ : Type} {inv : ρ → List (List Candidate) → σ → Prop} {failed : Error → Prop}
variable {source : Source σ (List VersionEntry) VersionMarker} {deleter : Deleter σ} {size : Nat}
variable {pruning : Bool} {query : VersionQuery} {report : Option Char}
variable {reads : Nat → Option VersionMarker → List VersionEntry → ρ → Prop}
variable {ends : List VersionEntry → ρ → Prop}

/-- A listing has come to what was read before a place. -/
def VersionState.Gathers (inv : ρ → List (List Candidate) → σ → Prop) (size : Nat) (pruning : Bool)
    (query : VersionQuery) (report : Option Char) (place : List VersionEntry → ρ → Prop)
    (state : VersionState) (link : σ) : Prop :=
  ∃ read here, place read here ∧ state.Lists query report (query.picks read) ∧
    state.Prunes (inv here) size pruning (query.picks read) link

/-- What a page leads to, behind what was read before it. -/
def LeadsOn (reads : Nat → Option VersionMarker → List VersionEntry → ρ → Prop)
    (ends : List VersionEntry → ρ → Prop) (n : Nat) (page : Page (List VersionEntry) VersionMarker)
    (read : List VersionEntry) (place : ρ) : Prop :=
  if page.continues then reads n page.next (read ++ page.content) place
  else ends (read ++ page.content) place

/-- The listing ended, or the limit was reached on the way. -/
def Stops (reads : Nat → Option VersionMarker → List VersionEntry → ρ → Prop)
    (ends : List VersionEntry → ρ → Prop) (query : VersionQuery) (read : List VersionEntry)
    (place : ρ) : Prop :=
  ends read place ∨
    limitReached query.limit (query.picks read).length = true ∧ ∃ n token, reads n token read place

/-- What one page adds to what is gathered. -/
theorem VersionState.Gathers.visit (hdeleter : ∀ place, deleter.Sends (inv place) failed)
    (hmax : size ≤ maxPageSize) (n : Nat) (page : Page (List VersionEntry) VersionMarker)
    (state : VersionState) :
    LeadsTo (state.Gathers inv size pruning query report (LeadsOn reads ends n page))
      (VersionState.visit query deleter page.content state) fun answer link =>
      answer.1.elim
        (answer.2.Goes
          (fun next => next.Gathers inv size pruning query report (Stops reads ends query) link)
          fun next =>
            if page.continues then
              next.Gathers inv size pruning query report (reads n page.next) link
            else next.Gathers inv size pruning query report (Stops reads ends query) link)
        failed := by
  apply LeadsTo.of_forall
  rintro link ⟨read, place, hon, hlists, hprunes⟩
  have hvisit := VersionState.visit_leads pruning (hdeleter place) hmax page.content hlists
  refine (hvisit.at_state hprunes).mono ?_
  rintro ⟨failure, outcome⟩ link' hanswer
  cases failure with
  | some e => exact hanswer
  | none =>
    obtain ⟨hlists', hprunes', hgoes⟩ := hanswer
    cases outcome with
    | stop next =>
      refine ⟨_, place, ?_, hlists', hprunes'⟩
      unfold LeadsOn at hon
      split at hon
      · exact .inr ⟨hgoes, n, page.next, hon⟩
      · exact .inl hon
    | more next =>
      unfold LeadsOn at hon
      change if page.continues then _ else _
      split at hon
      next hcontinues =>
        rw [if_pos hcontinues]
        exact ⟨_, place, hon, hlists', hprunes'⟩
      next hlast =>
        rw [if_neg hlast]
        exact ⟨_, place, .inl hon, hlists', hprunes'⟩

variable (source reads ends)

/-- A listing of which nothing was read. -/
def VersionState.opening (report : Option Char) (pruning : Bool) (size : Nat) : VersionState :=
  .start (report.map fun separator => .holding separator versionHeadings [])
    (if pruning then some ⟨size, [], ⟨0, 0, 0⟩⟩ else none)

theorem VersionState.opening_lists (query : VersionQuery) (report : Option Char) (pruning : Bool)
    (size : Nat) : (opening report pruning size).Lists query report [] :=
  ⟨rfl, rfl, by cases query.quiet <;> rfl, rfl⟩

theorem VersionState.opening_prunes {inv : List (List Candidate) → σ → Prop} (report : Option Char)
    (pruning : Bool) {size : Nat} (hpos : 1 ≤ size) {link : σ} (hinv : inv [] link) :
    (opening report pruning size).Prunes inv size pruning [] link := by
  cases pruning with
  | false => exact ⟨rfl, hinv⟩
  | true => exact ⟨rfl, Batcher.shares_new hpos hinv⟩

theorem VersionState.gathers_opening (query : VersionQuery) (report : Option Char) (pruning : Bool)
    (hpos : 1 ≤ size) {place : ρ} {starts : List VersionEntry → ρ → Prop}
    (hstarts : starts [] place) {link : σ} (hinv : inv place [] link) :
    (opening report pruning size).Gathers inv size pruning query report starts link := by
  have hempty : query.picks [] = [] := by
    cases hlimit : query.limit <;> simp [VersionQuery.picks, hlimit]
  refine ⟨[], place, hstarts, ?_, ?_⟩
  · rw [hempty]
    exact opening_lists query report pruning size
  · rw [hempty]
    exact opening_prunes report pruning hpos hinv

section Places

variable (hfetch : ∀ n token read place batches, reads n token read place →
  batches.flatten <+: prunable (query.picks read) →
  LeadsTo (inv place batches) (source token) fun answer link =>
    Settles (fun e => failed e ∧ inv place batches link)
      (fun page => ∃ next, inv next batches link ∧ ∃ m < n, LeadsOn reads ends m page read next)
      answer)
include hfetch

/-- A fetch may change the place, but neither the batches nor what was gathered. -/
theorem VersionState.Gathers.fetch (n : Nat) (token : Option VersionMarker)
    (state : VersionState) :
    LeadsTo (state.Gathers inv size pruning query report (reads n token)) (source token)
      fun answer link =>
      Settles (fun e => failed e ∧ state.Gathers inv size pruning query report (reads n token) link)
        (fun page =>
          ∃ m < n, state.Gathers inv size pruning query report (LeadsOn reads ends m page) link)
        answer := by
  apply LeadsTo.of_forall
  rintro link ⟨read, place, hreads, hlists, hprunes⟩
  obtain ⟨batches, hinv, hprefix, hcarry⟩ := hprunes.exists_batches
  refine ((hfetch n token read place batches hreads hprefix).at_state hinv).mono ?_
  intro answer link' hanswer
  cases answer with
  | error e => exact ⟨hanswer.1, read, place, hreads, hlists, hcarry _ _ hanswer.2⟩
  | ok page =>
    obtain ⟨next, hinv', m, hm, hon⟩ := hanswer
    exact ⟨m, hm, read, next, hon, hlists, hcarry _ _ hinv'⟩

/-- A listing is read page by page, from one place to the next: `reads` says what was read before a
place that is behind a token, with a bound on the pages behind it, and `ends` what was read when it
ended. What is listed are the picks of all that was read, and the batches are theirs. -/
theorem gather_leads (hdeleter : ∀ place, deleter.Sends (inv place) failed)
    (hmax : size ≤ maxPageSize) (hzero : ∀ token read place, ¬ reads 0 token read place)
    {n : Nat} (hn : n ≤ Run.allPages) {place : ρ} (hreads : reads n none [] place)
    (hpos : 1 ≤ size) :
    LeadsTo (inv place [])
      (gather source query deleter (VersionState.opening report pruning size)) fun answer link =>
      Settles failed
        (fun deleted => ∃ read place, Stops reads ends query read place ∧
          answer.1.state.Lists query report (query.picks read) ∧
          inv place (pruned size pruning (query.picks read)) link ∧
          Tells size pruning (query.picks read) deleted)
        answer.2 := by
  have hnever : ∀ token (state : VersionState) link,
      ¬ state.Gathers inv size pruning query report (reads 0 token) link := by
    rintro token state link ⟨read, place, hreads, -⟩
    exact hzero _ _ _ hreads
  have hvisited := visiting_leads
    (fun n token state => VersionState.Gathers inv size pruning query report (reads n token) state)
    (fun n page state => state.Gathers inv size pruning query report (LeadsOn reads ends n page))
    (fun state => state.Gathers inv size pruning query report (Stops reads ends query))
    hnever (VersionState.Gathers.fetch source reads ends hfetch)
    (VersionState.Gathers.visit hdeleter hmax) hn (VersionState.opening report pruning size)
  refine (hvisited.weaken ?_).bind ?_
  · intro link hinv
    exact VersionState.gathers_opening query report pruning hpos hreads hinv
  rintro ⟨failure, state, pages⟩
  cases failure with
  | some e => exact .pure fun _ he => he
  | none =>
    cases hbatcher : state.batcher with
    | none =>
      dsimp only
      apply LeadsTo.pure
      rintro link ⟨read, here, hstops, hlists, hprunes⟩
      simp only [VersionState.Prunes, hbatcher] at hprunes
      obtain ⟨rfl, hinv⟩ := hprunes
      exact ⟨read, here, hstops, hlists, hinv, rfl⟩
    | some batcher =>
      dsimp only
      apply LeadsTo.of_forall
      rintro link ⟨read, here, hstops, hlists, hprunes⟩
      simp only [VersionState.Prunes, hbatcher] at hprunes
      obtain ⟨rfl, hshares⟩ := hprunes
      have hfinish :=
        Batcher.Shares.finish batcher (prunable (query.picks read)) (hdeleter here) hmax
      refine (hfinish.at_state hshares).bind ?_
      intro answer
      cases answer with
      | error e => exact .pure fun _ he => he
      | ok summary =>
        apply LeadsTo.pure
        rintro link' ⟨hinv, hcandidates, hflushes⟩
        exact ⟨read, here, hstops, hlists, hinv, rfl, hcandidates, hflushes⟩

end Places

end Gathering

/-! ## The command -/

section Listing

variable {σ : Type}

/-- A run that is not a trial deletes. -/
theorem chooseDeleter_of_real (client : Client σ) (bucket : String) {dryRun : Bool}
    (hreal : dryRun = false) : chooseDeleter client bucket dryRun = client.deleter bucket := by
  subst hreal
  rfl

/-- What is asked of a listing by the options of the command. -/
def VersionOptions.query (options : VersionOptions) (now : Instant) (path : StorePath)
    (separator : UInt8) : VersionQuery where
  bucket := path.bucket
  separator := (Char.ofNat separator.toNat).toString
  limit := options.limit
  now := now
  olderThan := ageBound options.age
  newerThan := ageBound options.since
  dirs := options.dirs
  quiet := options.quiet

/-- The most entries that are deleted by one request. -/
def VersionOptions.batchSize (options : VersionOptions) (settings : Settings) : Nat :=
  options.pageSize.getD settings.transfer.deletePageSize.toNat

/-- What a listing writes: its lines, its report and its totals, or how it failed. -/
def conclude (options : VersionOptions) (visited : Run.Visited VersionState) :
    Except Error (Option DeleteSummary) → Run σ Unit
  | .error e => do
    deliverReport options.csv visited.state.csv
    deliver options.out visited.state.text
    Run.fail e
  | .ok deleted => do
    deliver options.out visited.state.text
    deliverReport options.csv visited.state.csv
    Run.printSummary (versionSummary options visited.state visited.pages deleted)

theorem keeps_conclude_ok {inv : σ → Prop} (options : VersionOptions)
    (visited : Run.Visited VersionState) (deleted : Option DeleteSummary) :
    Run.Keeps inv (fun _ => True) (conclude options visited (.ok deleted)) :=
  (keeps_deliver _ _).bind fun _ _ => (keeps_deliverReport _ _).bind fun _ _ => .printSummary _

/-- After a failure the command fails. -/
theorem keeps_conclude_error {inv : σ → Prop} (options : VersionOptions)
    (visited : Run.Visited VersionState) (e : Error) :
    Run.Keeps inv (fun _ => False) (conclude options visited (.error e)) :=
  (keeps_deliverReport _ _).bind fun _ _ => (keeps_deliver _ _).bind fun _ _ => .fail e

theorem Run.onLink_bind {α β : Type} (action : StateM σ α) (more : α → StateM σ β) :
    Run.onLink (action >>= more) = Run.onLink action >>= fun a => Run.onLink (more a) := rfl

theorem onLink_gather {α : Type} (source : Source σ (List VersionEntry) VersionMarker)
    (query : VersionQuery) (deleter : Deleter σ) (start : VersionState)
    (tell : Run.Visited VersionState → Except Error (Option DeleteSummary) → Run σ α) :
    (do
      let (visited, deleted) ← Run.onLink (gather source query deleter start)
      tell visited deleted) =
    (do
      let visited ← Run.visitPages source (VersionState.visit query deleter) start
      match visited.failure with
      | some e => tell visited (.error e)
      | none => tell visited (← finishBatcher deleter visited.state.batcher)) := by
  rw [gather, Run.onLink_bind, bind_assoc, visitPages_eq]
  refine congrArg _ (funext fun visited => ?_)
  cases hfailure : visited.failure with
  | some e => rfl
  | none =>
    cases hbatcher : visited.state.batcher with
    | none => rfl
    | some batcher => rfl

/-- Make the files that a listing and its report go to. -/
def openFiles (options : VersionOptions) (separator : UInt8) : Run σ (Option Csv.Report) := do
  openOut options.out
  openReport options.csv separator

/-- Begin a listing. With a page size that is not allowed nothing can be pruned, and the command
fails. -/
def openListing (options : VersionOptions) (size : Nat) (csv : Option Csv.Report) :
    Run σ VersionState :=
  match options.delete, Batcher.new size with
  | false, _ => pure (.start csv none)
  | true, .ok batcher => pure (.start csv (some batcher))
  | true, .error e => do
    deliverReport options.csv csv
    Run.fail e

theorem listVersions_eq (machine : Machine σ) (settingsPath : Option String)
    (options : VersionOptions) :
    listVersions machine settingsPath options = (do
      let path ← Run.ofExcept (StorePath.parse options.path)
      let (settings, client) ← Run.connect machine settingsPath
      let separator ←
        Run.ofExcept (parseSeparator (options.separator.getD settings.output.separator))
      let csv ← openFiles options separator
      let start ← openListing options (options.batchSize settings) csv
      let (visited, deleted) ← Run.onLink (gather ((VersionListing.new path).source client)
        (options.query machine.now path separator) (chooseDeleter client path.bucket options.dryRun)
        start)
      conclude options visited deleted) := by
  unfold listVersions
  refine congrArg _ (funext fun path => congrArg _ (funext fun answer => ?_))
  obtain ⟨settings, client⟩ := answer
  dsimp only
  refine congrArg _ (funext fun separator => ?_)
  rw [openFiles, bind_assoc]
  refine congrArg _ (funext fun _ => congrArg _ (funext fun csv => ?_))
  simp only [onLink_gather, openListing, VersionOptions.batchSize]
  cases options.delete with
  | false => rfl
  | true =>
    cases Batcher.new (options.pageSize.getD settings.transfer.deletePageSize.toNat) with
    | ok batcher => rfl
    | error e =>
      dsimp only
      rw [bind_assoc]
      rfl

/-- The separator of the report, if one is written. -/
def VersionOptions.report (options : VersionOptions) (separator : UInt8) : Option Char :=
  options.csv.map fun _ => Char.ofNat separator.toNat

/-- The report is new, and the link has not changed. -/
theorem keeps_openFiles {inv : σ → Prop} (options : VersionOptions) (separator : UInt8) :
    Run.Keeps inv
      (fun csv => csv = (options.report separator).map fun separator =>
        .holding separator versionHeadings [])
      (openFiles options separator) := by
  refine (keeps_openOut options.out).bind fun _ _ => ?_
  unfold VersionOptions.report
  cases options.csv with
  | none => exact .pure rfl
  | some path =>
    refine (Run.Keeps.createFile path).bind fun _ _ => (Run.Keeps.ofExcept _).bind ?_
    intro report hreport
    obtain rfl := Except.ok.inj ((Csv.Report.new_eq _ _).symm.trans hreport)
    exact .pure rfl

/-- When something is pruned, the page size is allowed. -/
theorem keeps_openListing {inv : σ → Prop} {options : VersionOptions}
    (hdelete : options.delete = true) (size : Nat) (report : Option Char) :
    Run.Keeps inv
      (fun start => start = .opening report true size ∧ 1 ≤ size ∧ size ≤ maxPageSize)
      (openListing options size (report.map fun separator =>
        .holding separator versionHeadings [])) := by
  unfold openListing
  rw [hdelete]
  cases hbatcher : Batcher.new size with
  | error e => exact (keeps_deliverReport _ _).bind fun _ _ => .fail e
  | ok batcher =>
    obtain ⟨rfl, hallowed⟩ := Batcher.of_new hbatcher
    exact .pure ⟨rfl, hallowed⟩

theorem Run.connect_run {machine : Machine σ} {settingsPath : Option String} {settings : Settings}
    {world : World σ}
    (h : Settings.load world.files machine.around.home settingsPath = .ok settings) :
    (Run.connect machine settingsPath).run.run world =
      (.ok (settings, Client.connect machine.link machine.around world.files settings), world) := by
  rw [Run.connect, Run.run_settings_bind _ h]
  rfl

/-- Once its files are open, the command is what it asks of the store and then what it writes. -/
theorem listVersions_run {machine : Machine σ} {settingsPath : Option String}
    {options : VersionOptions} {path : StorePath} {settings : Settings} {separator : UInt8}
    {csv : Option Csv.Report} {world opened : World σ}
    (hpath : StorePath.parse options.path = .ok path)
    (hsettings : Settings.load world.files machine.around.home settingsPath = .ok settings)
    (hseparator : parseSeparator (options.separator.getD settings.output.separator) = .ok separator)
    (hpos : 1 ≤ options.batchSize settings) (hmax : options.batchSize settings ≤ maxPageSize)
    (hopen : (openFiles options separator).run.run world = (.ok csv, opened)) :
    let client := Client.connect machine.link machine.around world.files settings
    let start := VersionState.opening (options.report separator) options.delete
      (options.batchSize settings)
    let answer := (gather ((VersionListing.new path).source client)
      (options.query machine.now path separator) (chooseDeleter client path.bucket options.dryRun)
      start).run world.link
    (listVersions machine settingsPath options).run.run world =
      (conclude options answer.1.1 answer.1.2).run.run { opened with link := answer.2 } := by
  intro client start answer
  have hkeeps : Run.Keeps (fun link => link = world.link) _ (openFiles options separator) :=
    keeps_openFiles options separator
  obtain ⟨hcsv, hlink⟩ := hkeeps world rfl
  rw [hopen] at hcsv hlink
  obtain rfl := hcsv csv rfl
  have hbatcher := Batcher.new_eq_ok hpos hmax
  have hstart : (openListing options (options.batchSize settings)
      ((options.report separator).map fun separator => .holding separator versionHeadings [])
      ).run.run opened =
        (.ok (.opening (options.report separator) options.delete (options.batchSize settings)),
          opened) := by
    unfold openListing
    rw [hbatcher]
    cases options.delete <;> rfl
  rw [listVersions_eq, hpath, Run.run_ofExcept_bind, Run.run_bind_of_ok (Run.connect_run hsettings)]
  dsimp only
  rw [hseparator, Run.run_ofExcept_bind, Run.run_bind_of_ok hopen, Run.run_bind_of_ok hstart]
  simp only [answer, ← hlink]
  rfl

end Listing

end Command

end BucketCare

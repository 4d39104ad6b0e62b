import BucketCare.Proofs.Paging.Exchanges

/-!
# A listing follows its source

Whatever a source replies, and however often a failed call is made again, the pages that a listing
hands out are the pages that the source gave it, in their order. Each request continues behind the
last page that was received, a failed call is as if it had not been made, and a page that ends the
listing ends it for good.

The invariant is that the cursor stands behind the last page received: it holds the token of that
page and whether the listing goes on there, and the listing goes on behind every earlier page.

## Main definitions

* `Cursor.Behind` — a cursor stands behind the last of some pages
* `Source.Serves` — a source gives some pages to who asks with the token of each for the next
* `Cursor.Follows` — how a listing follows its source

## Main results

* `Cursor.Reading.behind` — the cursor of a reading stands behind the last page received
* `Cursor.Reading.ended` — a page that ends the listing is the last one
* `Cursor.read_of_serves` — the listing of a source that serves some pages and no others
* `Cursor.read_follows` — every listing that started follows its source
-/

namespace BucketCare

variable {σ α τ : Type}

/-- A source gives some pages, when it is asked for the first of them with a token and for each
later one with the token of the page before it. -/
def Source.Serves (source : Source σ α τ) : List (Page α τ) → Option τ → σ → Prop
  | [], _, _ => True
  | page :: rest, token, state => ∃ state', (source token).run state = (.ok page, state') ∧
      source.Serves rest page.next state'

theorem Source.Serves.exists_page {source : Source σ α τ} {earlier : List (Page α τ)}
    {last : Page α τ} {token : Option τ} {state : σ}
    (h : source.Serves (earlier ++ [last]) token state) :
    ∃ page state', (source token).run state = (.ok page, state') := by
  cases earlier with
  | nil =>
    obtain ⟨state', hrun, -⟩ := h
    exact ⟨last, state', hrun⟩
  | cons page earlier =>
    obtain ⟨state', hrun, -⟩ := h
    exact ⟨page, state', hrun⟩

theorem Page.continues_eq_false {page : Page α τ} :
    page.continues = false ↔ page.truncated = false ∨ page.next = none := by
  cases htruncated : page.truncated <;> simp [Page.continues, htruncated]

namespace Cursor

variable {token : Option τ} {tries log before after : List (PageExchange α τ)}
variable {exchange : PageExchange α τ} {answer : Except Error (Page α τ)}
variable {answers : List (Except Error (Page α τ))} {cursor cursor' : Cursor α τ}

/-! ## One fetch and one call -/

theorem Fetch.token_eq (h : Fetch token tries answer) (hmem : exchange ∈ tries) :
    exchange.token = token := by
  cases h with
  | once =>
    obtain rfl := List.mem_singleton.mp hmem
    rfl
  | twice =>
    obtain rfl | rfl : exchange = _ ∨ exchange = _ := by simpa using hmem
    · rfl
    · rfl

/-- The page that a fetch receives is its answer. -/
theorem Fetch.received_eq (h : Fetch token tries answer) : received tries = pages [answer] := by
  cases h <;> rfl

/-- A fetch receives no page before its last exchange. -/
theorem Fetch.received_before (h : Fetch token tries answer)
    (hsplit : tries = before ++ exchange :: after) : received before = [] := by
  cases before with
  | nil => rfl
  | cons first rest =>
    cases h with
    | once => simp at hsplit
    | twice =>
      obtain ⟨rfl, hrest⟩ := List.cons.inj hsplit
      cases rest with
      | nil => rfl
      | cons => simp at hrest

/-- What a call hands out waited before or is received by it. -/
theorem Call.pages_eq (h : Call cursor tries answer cursor') :
    pages [answer] ++ cursor'.waiting.toList = cursor.waiting.toList ++ received tries := by
  cases h with
  | first hwait => simp [hwait, received]
  | ended hwait => simp [hwait, received]
  | page hwait hmore hfetch => simp [hwait, hfetch.received_eq]
  | failure hwait hmore hfetch => simp [hwait, hfetch.received_eq]

/-- A call that sends a request makes one fetch. -/
theorem Call.fetch (h : Call cursor tries answer cursor') (hmem : exchange ∈ tries) :
    Fetch cursor.token tries answer := by
  cases h with
  | first | ended => cases hmem
  | page _ _ hfetch | failure _ _ hfetch => exact hfetch

/-- No page waits after a call. -/
theorem Call.waiting_eq (h : Call cursor tries answer cursor') : cursor'.waiting = none := by
  cases h with
  | first | page => rfl
  | ended hwait | failure hwait => exact hwait

/-- A call that fails changes only the count of requests. -/
theorem Call.of_error {error : Error} (h : Call cursor tries (.error error) cursor') :
    cursor' = { cursor with fetches := cursor'.fetches } := by
  cases h <;> rfl

/-! ## The invariant -/

/-- A cursor stands behind the last of some pages, and the listing goes on behind the others. -/
def Behind (cursor : Cursor α τ) (seen : List (Page α τ)) : Prop :=
  ∃ earlier last, seen = earlier ++ [last] ∧ (∀ page ∈ earlier, page.continues = true) ∧
    cursor.token = last.next ∧ cursor.more = last.continues

theorem Call.behind (h : Call cursor tries answer cursor')
    (hbehind : cursor.Behind (received log)) : cursor'.Behind (received (log ++ tries)) := by
  obtain ⟨earlier, last, hlog, hgoes, htoken, hlast⟩ := hbehind
  rw [received_append, hlog]
  cases h with
  | first | ended => exact ⟨earlier, last, by simp [received], hgoes, htoken, hlast⟩
  | failure _ _ hfetch =>
    exact ⟨earlier, last, by simp [hfetch.received_eq], hgoes, htoken, hlast⟩
  | @page tries page _ hmore hfetch =>
    -- The page was fetched because the listing goes on behind the one that was last so far.
    refine ⟨earlier ++ [last], page, by simp [hfetch.received_eq], ?_, rfl, rfl⟩
    rw [hlast] at hmore
    simpa [hmore, or_imp, forall_and] using hgoes

/-- The cursor of a reading stands behind the last page received. -/
theorem Reading.behind (h : Reading log answers cursor) : cursor.Behind (received log) := by
  induction h with
  | start hfetch => exact ⟨[], _, hfetch.received_eq, by simp, rfl, rfl⟩
  | call _ hcall ih => exact hcall.behind ih

/-- The pages handed out, and the one that waits, are the pages received. -/
theorem Reading.pages_eq (h : Reading log answers cursor) :
    pages answers ++ cursor.waiting.toList = received log := by
  induction h with
  | start hfetch => exact hfetch.received_eq.symm
  | call _ hcall ih =>
    rw [pages_append, List.append_assoc, hcall.pages_eq, ← List.append_assoc, ih, received_append]

/-- Only the first page received may wait. -/
theorem Reading.received_of_waiting {page : Page α τ} (h : Reading log answers cursor)
    (hwait : cursor.waiting = some page) : received log = [page] := by
  cases h with
  | start hfetch =>
    obtain rfl := Option.some.inj hwait
    exact hfetch.received_eq
  | call _ hcall => simp [hcall.waiting_eq] at hwait

/-- Each request of a call carries the token of the last page received before the call. -/
theorem Reading.token_of_call (hread : Reading log answers cursor)
    (hcall : Call cursor tries answer cursor') (hsplit : tries = before ++ exchange :: after) :
    exchange.token = (received (log ++ before)).getLast?.bind Page.next := by
  have hmem : exchange ∈ tries := by simp [hsplit]
  have hfetch := hcall.fetch hmem
  obtain ⟨earlier, last, hlog, -, htoken, -⟩ := hread.behind
  rw [received_append, hfetch.received_before hsplit, hlog, List.append_nil, List.getLast?_concat,
    hfetch.token_eq hmem, htoken]
  rfl

/-- Every request carries the token of the last page received before it. -/
theorem Reading.token_eq (h : Reading log answers cursor)
    (hsplit : log = before ++ exchange :: after) :
    exchange.token = (received before).getLast?.bind Page.next := by
  induction h generalizing after with
  | start hfetch =>
    rw [hfetch.received_before hsplit]
    exact hfetch.token_eq (by simp [hsplit])
  | @call log tries _ _ _ _ hread hcall ih =>
    -- The request is one of this call, or one that was made before it.
    rcases List.append_eq_append_iff.mp hsplit with ⟨between, rfl, htries⟩ | ⟨rest, hlog, htries⟩
    · exact hread.token_of_call hcall htries
    · cases rest with
      | nil =>
        have hhead : tries = [] ++ exchange :: after := htries.symm
        rw [← List.append_nil before, ← hlog]
        simpa using hread.token_of_call hcall hhead
      | cons first rest =>
        obtain ⟨rfl, -⟩ := List.cons.inj htries
        exact ih hlog

/-- When a page that ends the listing was handed out, no page waits and the listing does not go
on. -/
theorem Reading.ended {page : Page α τ} (h : Reading log answers cursor)
    (hmem : page ∈ pages answers) (hfinal : page.continues = false) :
    cursor.waiting = none ∧ cursor.more = false := by
  have hall := h.pages_eq
  constructor
  · -- A page that waits is the only one received, so none was handed out before it.
    apply Option.eq_none_iff_forall_ne_some.mpr
    intro first hwait
    rw [h.received_of_waiting hwait, hwait] at hall
    have hnone : pages answers = [] := by simpa using hall
    simp [hnone] at hmem
  · -- The listing goes on behind every page received but the last, so this is the last.
    obtain ⟨earlier, last, hlog, hgoes, -, hlast⟩ := h.behind
    have hreceived : page ∈ earlier ++ [last] := by
      rw [← hlog, ← hall]
      exact List.mem_append_left _ hmem
    rcases List.mem_append.mp hreceived with hearlier | hpage
    · rw [hgoes page hearlier] at hfinal
      cases hfinal
    · rw [hlast, ← List.mem_singleton.mp hpage, hfinal]

/-- A listing that has ended makes no more requests and stays as it is. -/
theorem calls_of_ended (source : Source σ α τ) (state : σ) (n : Nat)
    (hwait : cursor.waiting = none) (hmore : cursor.more = false) :
    (calls source n cursor).run state =
      ((List.replicate n (.error .noMoreElements), cursor), state) := by
  induction n with
  | zero => rfl
  | succ n ih =>
    rw [calls_succ ih (next_of_ended hwait hmore), List.replicate_succ']

/-! ## A source that serves some pages -/

section Serves

variable {source : Source σ α τ} {state : σ} {earlier : List (Page α τ)} {last : Page α τ}

variable (cursor) in
/-- What is handed out behind a page, when the source serves the pages that follow it. -/
theorem calls_of_serves (hwait : cursor.waiting = none) (hmore : cursor.more = true)
    (hserves : source.Serves (earlier ++ [last]) cursor.token state)
    (hgoes : ∀ page ∈ earlier, page.continues = true) (hfinal : last.continues = false)
    (n : Nat) (log : List (PageExchange α τ)) :
    ∃ answers cursor' log' state', (calls source.recorded n cursor).run (log, state) =
        ((answers, cursor'), (log', state')) ∧
      pages answers = (earlier ++ [last]).take n ∧
      (cursor'.hasNext = true ↔ n ≤ earlier.length) ∧
      log'.map PageExchange.token =
        log.map PageExchange.token ++ (cursor.token :: earlier.map Page.next).take n := by
  -- Each call hands out the first of the pages that are left, and leaves a cursor of this kind.
  induction n generalizing cursor earlier state log with
  | zero => exact ⟨[], cursor, log, state, calls_zero, rfl, by simp [hasNext, hmore], by simp⟩
  | succ n ih =>
    cases earlier with
    | nil =>
      obtain ⟨state₁, hrun, -⟩ := hserves
      refine ⟨_, _, _, _, calls_succ'
        (next_of_fetched hwait hmore (fetch_of_ok (recorded_run hrun)))
        (calls_of_ended source.recorded _ n rfl hfinal), ?_, ?_, ?_⟩
      · simp
      · simp [hasNext, hfinal]
      · simp
    | cons page earlier =>
      obtain ⟨state₁, hrun, hrest⟩ := hserves
      obtain ⟨answers, cursor', log', state', hcalls, hpages, hnext, htokens⟩ :=
        ih ⟨none, page.next, page.continues, cursor.fetches + 1, cursor.returned + 1⟩ rfl
          (hgoes page (.head _)) hrest (fun other h => hgoes other (.tail _ h))
          (log ++ [⟨cursor.token, .ok page⟩])
      refine ⟨_, cursor', log', state', calls_succ'
        (next_of_fetched hwait hmore (fetch_of_ok (recorded_run hrun))) hcalls, ?_, ?_, ?_⟩
      · simp [hpages]
      · simp [hnext]
      · simp [htokens]

/-- A listing before its first request. -/
def unread : Cursor α τ := ⟨none, none, true, 0, 0⟩

/-- To start a listing and be handed the page that waits comes to the same as to fetch that page. -/
theorem read_succ {page : Page α τ} {state₁ : σ} {count n : Nat}
    (hfetch : (fetch source none).run state = ((.ok page, count), state₁)) :
    (read source (n + 1)).run state = (.ok ((calls source (n + 1) unread).run state).1,
      ((calls source (n + 1) unread).run state).2) := by
  obtain ⟨answers, cursor, state₂, hcalls⟩ : ∃ answers cursor state₂,
      (calls source n ⟨none, page.next, page.continues, count, 1⟩).run state₁ =
        ((answers, cursor), state₂) := ⟨_, _, _, rfl⟩
  have hnext : (next source unread).run state =
      ((.ok page, ⟨none, page.next, page.continues, count, 1⟩), state₁) := by
    rw [next_of_fetched rfl rfl hfetch]
    simp [unread]
  rw [calls_succ' hnext hcalls]
  exact read_of_started (start_of_fetched hfetch) (calls_succ' (next_of_waiting rfl) hcalls)

/-- The listing of a source that serves some pages, the last of which ends it. -/
theorem read_of_serves (hserves : source.Serves (earlier ++ [last]) none state)
    (hgoes : ∀ page ∈ earlier, page.continues = true) (hfinal : last.continues = false)
    (n : Nat) :
    ∃ answers cursor log state', (read source.recorded n).run ([], state) =
        (.ok (answers, cursor), (log, state')) ∧
      pages answers = (earlier ++ [last]).take n ∧
      (cursor.hasNext = true ↔ n ≤ earlier.length) ∧
      log.map PageExchange.token = (none :: earlier.map Page.next).take (max 1 n) := by
  obtain ⟨page, state₁, hrun⟩ := hserves.exists_page
  have hrecorded : (source.recorded none).run ([], state) =
      (.ok page, ([⟨none, .ok page⟩], state₁)) := recorded_run hrun
  have hfetch := fetch_of_ok hrecorded
  cases n with
  | zero =>
    exact ⟨_, _, _, _, read_of_started (start_of_fetched hfetch) calls_zero, rfl,
      by simp [hasNext], rfl⟩
  | succ n =>
    obtain ⟨answers, cursor, log, state₂, hcalls, hpages, hnext, htokens⟩ :=
      calls_of_serves unread rfl rfl hserves hgoes hfinal (n + 1) []
    exact ⟨answers, cursor, log, state₂, by rw [read_succ hfetch, hcalls], hpages, hnext,
      by simpa [unread] using htokens⟩

end Serves

/-! ## Every listing that started -/

/-- How a listing follows its source, after it was started and asked for a number of pages. -/
structure Follows (source : Source σ α τ) (start : σ) (n : Nat)
    (answers : List (Except Error (Page α τ))) (cursor : Cursor α τ) (log : List (PageExchange α τ))
    (state : σ) : Prop where
  /-- The pages handed out, and the one that waits, are the pages received. -/
  pages_eq : pages answers ++ cursor.waiting.toList = received log
  /-- Only the first page received may wait. -/
  waiting_first : ∀ page, cursor.waiting = some page → received log = [page]
  /-- Every request carries the token of the last page received before it. -/
  token_eq : ∀ before exchange after, log = before ++ exchange :: after →
    exchange.token = (received before).getLast?.bind Page.next
  /-- A call that fails changes neither what can be handed out, nor what was, nor where the next
  request continues. -/
  failure_keeps : ∀ error cursor' rest,
    (next source.recorded cursor).run (log, state) = ((.error error, cursor'), rest) →
      cursor'.hasNext = cursor.hasNext ∧ cursor'.returned = cursor.returned ∧
        cursor'.token = cursor.token
  /-- When a page that ends the listing was handed out, no page is left, and however often the
  listing is asked for one, it makes no request and stays as it is. -/
  ends_for_good : ∀ page ∈ pages answers, page.truncated = false ∨ page.next = none →
    cursor.hasNext = false ∧ ∀ m, (calls source.recorded m cursor).run (log, state) =
      ((List.replicate m (.error .noMoreElements), cursor), (log, state))
  /-- A source that serves some pages, the last of which ends the listing, is asked for each of them
  once. -/
  served : ∀ earlier last, source.Serves (earlier ++ [last]) none start →
    (∀ page ∈ earlier, page.continues = true) → last.continues = false →
      (cursor.hasNext = true ↔ n < (earlier ++ [last]).length) ∧
        log.map PageExchange.token = (none :: earlier.map Page.next).take (max 1 n)

/-- Every listing that started follows its source, after any number of calls. -/
theorem read_follows {source : Source σ α τ} {start state : σ} {n : Nat}
    (h : (read source.recorded n).run ([], start) = (.ok (answers, cursor), (log, state))) :
    Follows source start n answers cursor log state where
  pages_eq := (read_reading h).pages_eq
  waiting_first page := (read_reading h).received_of_waiting
  token_eq before exchange after := (read_reading h).token_eq
  failure_keeps error cursor' rest hnext := by
    obtain ⟨tries, answer, final, state', hcall, hrun⟩ := exists_call source cursor log state
    rw [hrun] at hnext
    cases hnext
    rw [hcall.of_error]
    exact ⟨rfl, rfl, rfl⟩
  ends_for_good page hmem hfinal := by
    obtain ⟨hwait, hmore⟩ := (read_reading h).ended hmem (Page.continues_eq_false.mpr hfinal)
    constructor
    · simp [hasNext, hwait, hmore]
    · intro m
      exact calls_of_ended source.recorded (log, state) m hwait hmore
  served earlier last hserves hgoes hfinal := by
    obtain ⟨answers', cursor', log', state', hrun, -, hnext, htokens⟩ :=
      read_of_serves hserves hgoes hfinal n
    rw [hrun] at h
    cases h
    exact ⟨by rw [hnext, List.length_append, List.length_singleton, Nat.lt_succ_iff], htokens⟩

/-- A listing of two pages whose first request is made again, and whose second page is asked for
again after a failure; and the same listing without failures. -/
theorem read_follows_two_pages :
    Follows (.script fun count =>
        [.error (.serviceUnavailable "slow down"), .ok ⟨"a", true, some 1⟩,
          .error (.permissionDenied "no"), .ok ⟨"b", false, none⟩].getD count
          (.error .noMoreElements)) 0 4
      [.ok ⟨"a", true, some 1⟩, .error (.permissionDenied "no"), .ok ⟨"b", false, none⟩,
        .error .noMoreElements]
      ⟨none, none, false, 4, 2⟩
      [⟨none, .error (.serviceUnavailable "slow down")⟩, ⟨none, .ok ⟨"a", true, some 1⟩⟩,
        ⟨some 1, .error (.permissionDenied "no")⟩, ⟨some 1, .ok ⟨"b", false, none⟩⟩] 4 ∧
    ∃ source : Source Nat String Nat, ∃ answers cursor log state,
      (read source.recorded 2).run ([], 0) = (.ok (answers, cursor), (log, state)) ∧
      cursor.hasNext = false ∧ log.map PageExchange.token = [none, some 1] := by
  let served : Nat → Except Error (Page String Nat) := fun count =>
    [.ok ⟨"a", true, some 1⟩, .ok ⟨"b", false, none⟩].getD count (.error .noMoreElements)
  refine ⟨read_follows rfl, .script served, _, _, _, _, rfl, ?_⟩
  have hfollows : Follows (.script served) 0 2 _ _ _ _ := read_follows rfl
  obtain ⟨hnext, htokens⟩ := hfollows.served [⟨"a", true, some 1⟩] ⟨"b", false, none⟩
    ⟨1, rfl, 2, rfl, trivial⟩ (by decide) rfl
  exact ⟨Bool.eq_false_iff.mpr fun h => absurd (hnext.mp h) (by decide), htokens⟩

end Cursor

end BucketCare

import BucketCare.Paging

/-!
# What a listing asks for

A source of pages can keep every request with its reply. Against such a source a fetch makes one
exchange, or two when the first fails in a passing way, and a call for the next page makes those of
one fetch or none at all. A reading is a listing that was started and then asked for pages any
number of times, whether or not a call failed.

## Main definitions

* `PageExchange` — a request for a page with its reply
* `Source.recorded`, `Source.script` — a source that keeps its exchanges, and one with fixed replies
* `Cursor.read` — a listing that is started and asked for a number of pages
* `Cursor.Fetch`, `Cursor.Call` — how a fetch goes, and a call for the next page
* `Cursor.Reading` — a listing with its exchanges and its answers

## Main results

* `Cursor.exists_call` — every call for the next page goes as `Cursor.Call` says
* `Cursor.read_reading` — every listing that started is a reading
-/

namespace BucketCare

variable {σ α τ : Type}

/-- A request for a page with its reply. -/
structure PageExchange (α τ : Type) where
  token : Option τ
  reply : Except Error (Page α τ)

/-- The pages among some replies. -/
def pages (replies : List (Except Error (Page α τ))) : List (Page α τ) :=
  replies.filterMap Except.toOption

/-- The pages that a source has handed out. -/
def received (log : List (PageExchange α τ)) : List (Page α τ) := pages (log.map PageExchange.reply)

@[simp] theorem pages_nil : pages ([] : List (Except Error (Page α τ))) = [] := rfl

@[simp] theorem pages_append (replies more : List (Except Error (Page α τ))) :
    pages (replies ++ more) = pages replies ++ pages more := List.filterMap_append

@[simp] theorem pages_ok_cons (page : Page α τ) (replies : List (Except Error (Page α τ))) :
    pages (.ok page :: replies) = page :: pages replies := rfl

@[simp] theorem pages_error_cons (error : Error) (replies : List (Except Error (Page α τ))) :
    pages (.error error :: replies) = pages replies := rfl

@[simp] theorem pages_replicate_error (n : Nat) (error : Error) :
    pages (List.replicate n (.error error : Except Error (Page α τ))) = [] :=
  List.filterMap_replicate_of_none rfl

@[simp] theorem received_append (log more : List (PageExchange α τ)) :
    received (log ++ more) = received log ++ received more := by
  simp [received]

/-- A source that keeps its exchanges, the first of them first. -/
def Source.recorded (source : Source σ α τ) : Source (List (PageExchange α τ) × σ) α τ :=
  fun token (log, state) =>
    let (reply, state) := (source token).run state
    (reply, (log ++ [⟨token, reply⟩], state))

/-- A source whose replies are fixed, whatever it is asked for; its state counts the requests. -/
def Source.script (replies : Nat → Except Error (Page α τ)) : Source Nat α τ :=
  fun _ count => (replies count, count + 1)

namespace Cursor

/-- Ask for a number of pages, whether or not a call fails. -/
def calls (source : Source σ α τ) :
    Nat → Cursor α τ → StateM σ (List (Except Error (Page α τ)) × Cursor α τ)
  | 0, cursor => return ([], cursor)
  | n + 1, cursor => do
    let (answers, cursor) ← calls source n cursor
    let (answer, cursor) ← next source cursor
    return (answers ++ [answer], cursor)

/-- Start a listing and ask for a number of pages. -/
def read (source : Source σ α τ) (n : Nat) :
    StateM σ (Except Error (List (Except Error (Page α τ)) × Cursor α τ)) := do
  match ← start source with
  | .ok cursor => return .ok (← calls source n cursor)
  | .error e => return .error e

/-- How a fetch goes: its exchanges and its answer. -/
inductive Fetch (token : Option τ) : List (PageExchange α τ) → Except Error (Page α τ) → Prop
  /-- The first reply is a page, or a failure that does not pass. -/
  | once {reply : Except Error (Page α τ)}
      (hlast : ∀ error, reply = .error error → error.isRetryable = false) :
      Fetch token [⟨token, reply⟩] reply
  /-- The first reply is a failure that may pass, and the second one counts. -/
  | twice {error : Error} {reply : Except Error (Page α τ)} (hpass : error.isRetryable = true) :
      Fetch token [⟨token, .error error⟩, ⟨token, reply⟩] reply

/-- How a call for the next page goes: its exchanges, its answer and the cursor it leaves. -/
inductive Call (cursor : Cursor α τ) :
    List (PageExchange α τ) → Except Error (Page α τ) → Cursor α τ → Prop
  /-- The first page waits, and is handed out. -/
  | first {page : Page α τ} (hwait : cursor.waiting = some page) :
      Call cursor [] (.ok page) { cursor with waiting := none, returned := cursor.returned + 1 }
  /-- The listing has ended. -/
  | ended (hwait : cursor.waiting = none) (hmore : cursor.more = false) :
      Call cursor [] (.error .noMoreElements) cursor
  /-- A page is fetched. -/
  | page {tries : List (PageExchange α τ)} {page : Page α τ} (hwait : cursor.waiting = none)
      (hmore : cursor.more = true) (hfetch : Fetch cursor.token tries (.ok page)) :
      Call cursor tries (.ok page) ⟨none, page.next, page.continues,
        cursor.fetches + tries.length, cursor.returned + 1⟩
  /-- No page could be fetched. -/
  | failure {tries : List (PageExchange α τ)} {error : Error} (hwait : cursor.waiting = none)
      (hmore : cursor.more = true) (hfetch : Fetch cursor.token tries (.error error)) :
      Call cursor tries (.error error) { cursor with fetches := cursor.fetches + tries.length }

/-- A listing that was started and asked for pages: its exchanges, its answers and its cursor. -/
inductive Reading :
    List (PageExchange α τ) → List (Except Error (Page α τ)) → Cursor α τ → Prop
  /-- The first page was fetched. -/
  | start {tries : List (PageExchange α τ)} {page : Page α τ}
      (hfetch : Fetch none tries (.ok page)) :
      Reading tries [] ⟨some page, page.next, page.continues, tries.length, 0⟩
  /-- Another page was asked for. -/
  | call {log tries : List (PageExchange α τ)} {answers : List (Except Error (Page α τ))}
      {answer : Except Error (Page α τ)} {cursor cursor' : Cursor α τ}
      (hread : Reading log answers cursor) (hcall : Call cursor tries answer cursor') :
      Reading (log ++ tries) (answers ++ [answer]) cursor'

/-! ## Every listing that started is a reading -/

section Simulation

variable {source : Source σ α τ} {cursor : Cursor α τ} {token : Option τ}
variable {log : List (PageExchange α τ)} {state state' : σ} {page : Page α τ} {error : Error}
variable {n : Nat}

theorem recorded_run {reply : Except Error (Page α τ)}
    (h : (source token).run state = (reply, state')) :
    (source.recorded token).run (log, state) = (reply, (log ++ [⟨token, reply⟩], state')) := by
  obtain ⟨rfl, rfl⟩ := Prod.ext_iff.mp h
  rfl

theorem fetch_of_ok (h : (source token).run state = (.ok page, state')) :
    (fetch source token).run state = ((.ok page, 1), state') := by
  rw [fetch, StateT.run_bind, h]
  rfl

theorem fetch_of_error (h : (source token).run state = (.error error, state'))
    (hlast : error.isRetryable = false) :
    (fetch source token).run state = ((.error error, 1), state') := by
  rw [fetch, StateT.run_bind, h]
  change StateT.run (if error.isRetryable = true then _ else _) state' = _
  rw [hlast]
  rfl

theorem fetch_of_passing (h : (source token).run state = (.error error, state'))
    (hpass : error.isRetryable = true) :
    (fetch source token).run state =
      ((((source token).run state').1, 2), ((source token).run state').2) := by
  rw [fetch, StateT.run_bind, h]
  change StateT.run (if error.isRetryable = true then _ else _) state' = _
  rw [hpass]
  rfl

theorem start_of_fetched (h : (fetch source none).run state = ((.ok page, n), state')) :
    (start source).run state =
      (.ok ⟨some page, page.next, page.continues, n, 0⟩, state') := by
  rw [start, StateT.run_bind, h]
  rfl

theorem start_of_failed (h : (fetch source none).run state = ((.error error, n), state')) :
    (start source).run state = (.error error, state') := by
  rw [start, StateT.run_bind, h]
  rfl

theorem next_of_waiting (hwait : cursor.waiting = some page) : (next source cursor).run state =
    ((.ok page, { cursor with waiting := none, returned := cursor.returned + 1 }), state) := by
  rw [next, hwait]
  rfl

theorem next_of_ended (hwait : cursor.waiting = none) (hmore : cursor.more = false) :
    (next source cursor).run state = ((.error .noMoreElements, cursor), state) := by
  rw [next, hwait, hmore]
  rfl

theorem next_of_fetched (hwait : cursor.waiting = none) (hmore : cursor.more = true)
    (h : (fetch source cursor.token).run state = ((.ok page, n), state')) :
    (next source cursor).run state = ((.ok page,
      ⟨none, page.next, page.continues, cursor.fetches + n, cursor.returned + 1⟩), state') := by
  rw [next, hwait, hmore]
  dsimp only
  rw [if_neg (by simp), StateT.run_bind, h]
  rfl

theorem next_of_failed (hwait : cursor.waiting = none) (hmore : cursor.more = true)
    (h : (fetch source cursor.token).run state = ((.error error, n), state')) :
    (next source cursor).run state =
      ((.error error, { cursor with fetches := cursor.fetches + n }), state') := by
  rw [next, hwait, hmore]
  dsimp only
  rw [if_neg (by simp), StateT.run_bind, h]
  rfl

variable (source cursor token log state)

/-- Every fetch goes as `Fetch` says. -/
theorem exists_fetch : ∃ tries reply state', Fetch token tries reply ∧
    (fetch source.recorded token).run (log, state) =
      ((reply, tries.length), (log ++ tries, state')) := by
  obtain ⟨reply, state₁, hfirst⟩ : ∃ reply state₁, (source token).run state = (reply, state₁) :=
    ⟨_, _, rfl⟩
  cases reply with
  | ok page => exact ⟨_, .ok page, state₁, .once (by simp), fetch_of_ok (recorded_run hfirst)⟩
  | error error =>
    cases hpass : error.isRetryable with
    | false =>
      have hlast : ∀ e, (.error error : Except Error (Page α τ)) = .error e →
        e.isRetryable = false := by simpa
      exact ⟨_, _, state₁, .once hlast, fetch_of_error (recorded_run hfirst) hpass⟩
    | true =>
      obtain ⟨reply, state₂, hsecond⟩ :
          ∃ reply state₂, (source token).run state₁ = (reply, state₂) := ⟨_, _, rfl⟩
      refine ⟨_, reply, state₂, .twice hpass, ?_⟩
      rw [fetch_of_passing (recorded_run hfirst) hpass, recorded_run hsecond, List.append_assoc]
      rfl

/-- Every call for the next page goes as `Call` says. -/
theorem exists_call : ∃ tries answer cursor' state', Call cursor tries answer cursor' ∧
    (next source.recorded cursor).run (log, state) =
      ((answer, cursor'), (log ++ tries, state')) := by
  cases hwait : cursor.waiting with
  | some page =>
    exact ⟨[], _, _, state, .first hwait, by rw [next_of_waiting hwait, List.append_nil]⟩
  | none =>
    cases hmore : cursor.more with
    | false =>
      exact ⟨[], _, _, state, .ended hwait hmore,
        by rw [next_of_ended hwait hmore, List.append_nil]⟩
    | true =>
      obtain ⟨tries, reply, state', hfetch, hrun⟩ := exists_fetch source cursor.token log state
      cases reply with
      | ok page =>
        exact ⟨tries, _, _, state', .page hwait hmore hfetch, next_of_fetched hwait hmore hrun⟩
      | error error =>
        exact ⟨tries, _, _, state', .failure hwait hmore hfetch, next_of_failed hwait hmore hrun⟩

variable {source cursor token log state}

theorem calls_zero : (calls source 0 cursor).run state = (([], cursor), state) := rfl

/-- One more page is asked for behind the others. -/
theorem calls_succ {answers : List (Except Error (Page α τ))} {answer : Except Error (Page α τ)}
    {cursor₁ cursor₂ : Cursor α τ} {state₁ state₂ : σ}
    (hcalls : (calls source n cursor).run state = ((answers, cursor₁), state₁))
    (hnext : (next source cursor₁).run state₁ = ((answer, cursor₂), state₂)) :
    (calls source (n + 1) cursor).run state = ((answers ++ [answer], cursor₂), state₂) := by
  rw [calls, StateT.run_bind, hcalls]
  change (next source cursor₁ >>= fun _ => _).run state₁ = _
  rw [StateT.run_bind, hnext]
  rfl

/-- One more page is asked for before the others. -/
theorem calls_succ' {answers : List (Except Error (Page α τ))} {answer : Except Error (Page α τ)}
    {cursor₁ cursor₂ : Cursor α τ} {state₁ state₂ : σ}
    (hnext : (next source cursor).run state = ((answer, cursor₁), state₁))
    (hcalls : (calls source n cursor₁).run state₁ = ((answers, cursor₂), state₂)) :
    (calls source (n + 1) cursor).run state = ((answer :: answers, cursor₂), state₂) := by
  induction n generalizing answers cursor₂ state₂ with
  | zero =>
    cases hcalls
    exact calls_succ calls_zero hnext
  | succ n ih =>
    obtain ⟨answers', cursor', state', hearlier⟩ : ∃ answers' cursor' state',
        (calls source n cursor₁).run state₁ = ((answers', cursor'), state') := ⟨_, _, _, rfl⟩
    obtain ⟨last, final, state'', hlast⟩ : ∃ last final state'',
        (next source cursor').run state' = ((last, final), state'') := ⟨_, _, _, rfl⟩
    rw [calls_succ hearlier hlast] at hcalls
    cases hcalls
    exact calls_succ (ih hearlier) hlast

/-- A reading goes on with every page that is asked for. -/
theorem Reading.exists_calls {answers : List (Except Error (Page α τ))}
    (hread : Reading log answers cursor) (source : Source σ α τ) (state : σ) (n : Nat) :
    ∃ log' answers' cursor' state', Reading log' (answers ++ answers') cursor' ∧
      (calls source.recorded n cursor).run (log, state) =
        ((answers', cursor'), (log', state')) := by
  induction n with
  | zero => exact ⟨log, [], cursor, state, by rwa [List.append_nil], calls_zero⟩
  | succ n ih =>
    obtain ⟨log₁, answers₁, cursor₁, state₁, hread₁, hcalls⟩ := ih
    obtain ⟨tries, answer, cursor₂, state₂, hcall, hnext⟩ :=
      exists_call source cursor₁ log₁ state₁
    refine ⟨log₁ ++ tries, answers₁ ++ [answer], cursor₂, state₂, ?_, calls_succ hcalls hnext⟩
    rw [← List.append_assoc]
    exact .call hread₁ hcall

theorem read_of_started {answers : List (Except Error (Page α τ))} {first : Cursor α τ}
    {state₁ state₂ : σ} (hstart : (start source).run state = (.ok first, state₁))
    (hcalls : (calls source n first).run state₁ = ((answers, cursor), state₂)) :
    (read source n).run state = (.ok (answers, cursor), state₂) := by
  rw [read, StateT.run_bind, hstart]
  change (calls source n first >>= fun _ => _).run state₁ = _
  rw [StateT.run_bind, hcalls]
  rfl

theorem read_of_failed (hstart : (start source).run state = (.error error, state')) :
    (read source n).run state = (.error error, state') := by
  rw [read, StateT.run_bind, hstart]
  rfl

/-- Every listing that started is a reading. -/
theorem read_reading {answers : List (Except Error (Page α τ))}
    (h : (read source.recorded n).run ([], state) = (.ok (answers, cursor), (log, state'))) :
    Reading log answers cursor := by
  obtain ⟨tries, reply, state₁, hfetch, hrun⟩ := exists_fetch source none [] state
  rw [List.nil_append] at hrun
  cases reply with
  | error error =>
    rw [read_of_failed (start_of_failed hrun)] at h
    cases h
  | ok page =>
    obtain ⟨log', answers', cursor', state₂, hread, hcalls⟩ :=
      (Reading.start hfetch).exists_calls source state₁ n
    rw [read_of_started (start_of_fetched hrun) hcalls] at h
    cases h
    rwa [List.nil_append] at hread

end Simulation

end Cursor

end BucketCare

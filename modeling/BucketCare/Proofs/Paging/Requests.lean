import BucketCare.Proofs.Paging.Continuation

/-!
# How many requests a listing sends

To start a listing is one fetch, and so is to ask it for a page, unless the first page waits or the
listing has ended: then nothing is sent. A fetch is one request. It is made a second time, with the
same token, when it failed in a way that may pass, and what is replied then is its answer, whatever
that is.

A listing counts its requests and the pages that it hands out. Both counts are right after any
number of calls, failed ones among them. No more pages are handed out than requests were sent, and
no more requests are sent than two for the start and two for each call.

## Main definitions

* `Cursor.Sparing` — what is sent for the start of a listing and for each call, and how it is
  counted

## Main results

* `Cursor.Reading.fetches_eq`, `Cursor.Reading.returned_eq` — the counts of a listing are right
* `Cursor.Reading.length_le` — the most requests that the calls of a listing come to
* `Cursor.listing_sparing` — every listing of every source is sparing
-/

namespace BucketCare

variable {σ α τ : Type}

/-- The failures that may pass. -/
theorem Error.isRetryable_iff {error : Error} : error.isRetryable = true ↔
    (∃ text, error = .serviceUnavailable text) ∨ error = .timeout ∨
      ∃ text, error = .storeOperation text := by
  cases error <;> simp [isRetryable]

/-- There are as many pages as replies that are no failures. -/
theorem length_pages (replies : List (Except Error (Page α τ))) :
    (pages replies).length = (replies.filter Except.isOk).length := by
  induction replies with
  | nil => rfl
  | cons reply replies ih =>
    cases reply with
    | ok page =>
      rw [pages_ok_cons, List.filter_cons_of_pos rfl, List.length_cons, ih, List.length_cons]
    | error error => rw [pages_error_cons, List.filter_cons_of_neg Bool.false_ne_true, ih]

theorem length_pages_le (replies : List (Except Error (Page α τ))) :
    (pages replies).length ≤ replies.length :=
  List.length_filterMap_le _ _

namespace Cursor

variable {source : Source σ α τ} {token : Option τ} {tries log : List (PageExchange α τ)}
variable {answer : Except Error (Page α τ)} {answers : List (Except Error (Page α τ))}
variable {cursor cursor' : Cursor α τ} {state : σ}

/-! ## The requests of a call -/

theorem Fetch.length_le (h : Fetch token tries answer) : tries.length ≤ 2 := by
  cases h with
  | once => exact Nat.le_succ 1
  | twice => exact Nat.le_refl 2

theorem Call.length_le (h : Call cursor tries answer cursor') : tries.length ≤ 2 := by
  cases h with
  | first | ended => exact Nat.zero_le 2
  | page _ _ hfetch | failure _ _ hfetch => exact hfetch.length_le

/-- A call counts its requests. -/
theorem Call.fetches_eq (h : Call cursor tries answer cursor') :
    cursor'.fetches = cursor.fetches + tries.length := by
  cases h <;> rfl

/-- A call counts the page that it hands out. -/
theorem Call.returned_eq (h : Call cursor tries answer cursor') :
    cursor'.returned = cursor.returned + (pages [answer]).length := by
  cases h <;> rfl

/-! ## The requests of a listing -/

theorem Reading.fetches_eq (h : Reading log answers cursor) : cursor.fetches = log.length := by
  induction h with
  | start => rfl
  | call _ hcall ih => rw [hcall.fetches_eq, ih, List.length_append]

theorem Reading.returned_eq (h : Reading log answers cursor) :
    cursor.returned = (pages answers).length := by
  induction h with
  | start => rfl
  | call _ hcall ih => rw [hcall.returned_eq, ih, pages_append, List.length_append]

/-- No more requests are sent than two for the start and two for each call. -/
theorem Reading.length_le (h : Reading log answers cursor) :
    log.length ≤ 2 * (1 + answers.length) := by
  induction h with
  | start hfetch => exact hfetch.length_le
  | call _ hcall ih =>
    have hmore := hcall.length_le
    simp only [List.length_append, List.length_singleton]
    omega

/-- Each page that is handed out was the reply to a request. -/
theorem Reading.length_pages_le (h : Reading log answers cursor) :
    (pages answers).length ≤ log.length := by
  -- What was handed out is among what was received, and that is among the replies.
  calc (pages answers).length
      ≤ (pages answers ++ cursor.waiting.toList).length := by simp
    _ = (received log).length := by rw [h.pages_eq]
    _ ≤ (log.map PageExchange.reply).length := BucketCare.length_pages_le _
    _ = log.length := List.length_map _

/-- Each call has an answer. -/
theorem length_calls {first : Cursor α τ} {state' : σ} {n : Nat}
    (h : (calls source n first).run state = ((answers, cursor), state')) :
    answers.length = n := by
  induction n generalizing answers cursor state' with
  | zero =>
    cases h
    rfl
  | succ n ih =>
    obtain ⟨earlier, cursor₁, state₁, hcalls⟩ : ∃ earlier cursor₁ state₁,
        (calls source n first).run state = ((earlier, cursor₁), state₁) := ⟨_, _, _, rfl⟩
    obtain ⟨answer, cursor₂, state₂, hnext⟩ : ∃ answer cursor₂ state₂,
        (next source cursor₁).run state₁ = ((answer, cursor₂), state₂) := ⟨_, _, _, rfl⟩
    rw [calls_succ hcalls hnext] at h
    cases h
    rw [List.length_append, ih hcalls, List.length_singleton]

theorem length_read {state' : σ} {n : Nat}
    (h : (read source n).run state = (.ok (answers, cursor), state')) : answers.length = n := by
  obtain ⟨started, state₁, hstart⟩ :
      ∃ started state₁, (start source).run state = (started, state₁) := ⟨_, _, rfl⟩
  cases started with
  | error error =>
    rw [read_of_failed hstart] at h
    cases h
  | ok first =>
    obtain ⟨answers', cursor', state₂, hcalls⟩ : ∃ answers' cursor' state₂,
        (calls source n first).run state₁ = ((answers', cursor'), state₂) := ⟨_, _, _, rfl⟩
    rw [read_of_started hstart hcalls] at h
    cases h
    exact length_calls hcalls

/-! ## Every listing -/

/-- What a source is sent when it is listed from some state on, and how that is counted. -/
structure Sparing (source : Source σ α τ) (begun : σ) : Prop where
  /-- These failures may pass, and no others. -/
  may_pass : ∀ error : Error, error.isRetryable = true ↔
    (∃ text, error = .serviceUnavailable text) ∨ error = .timeout ∨
      ∃ text, error = .storeOperation text
  /-- The start is one fetch, of the first page, and fails as that does. -/
  start_fetches : ∃ tries reply state, Fetch none tries reply ∧
    (start source.recorded).run ([], begun) = (reply.map fun page =>
      ⟨some page, page.next, page.continues, tries.length, 0⟩, (tries, state))
  /-- A call sends nothing when the first page waits or the listing has ended. -/
  next_sends_nothing : ∀ (cursor : Cursor α τ) log (state : σ),
    cursor.waiting.isSome = true ∨ cursor.hasNext = false →
      ((next source.recorded cursor).run (log, state)).2 = (log, state)
  /-- Any other call is one fetch, which continues where the cursor does, and has its answer. -/
  next_fetches : ∀ (cursor : Cursor α τ) log (state : σ),
    ¬(cursor.waiting.isSome = true ∨ cursor.hasNext = false) →
      ∃ tries reply cursor' state', Fetch cursor.token tries reply ∧
        cursor'.fetches = cursor.fetches + tries.length ∧
        (next source.recorded cursor).run (log, state) = ((reply, cursor'), (log ++ tries, state'))
  /-- A listing that was started counts the requests that were sent and the calls that succeeded,
  whatever calls were made. -/
  counts : ∀ n answers cursor log state,
    (read source.recorded n).run ([], begun) = (.ok (answers, cursor), (log, state)) →
      answers.length = n ∧ cursor.fetches = log.length ∧
        cursor.returned = (answers.filter Except.isOk).length ∧
        cursor.returned ≤ cursor.fetches ∧ cursor.fetches ≤ 2 * (1 + n)

/-- Every listing is sparing with its requests, whatever the source replies. -/
theorem listing_sparing (source : Source σ α τ) (begun : σ) : Sparing source begun where
  may_pass error := Error.isRetryable_iff
  start_fetches := by
    obtain ⟨tries, reply, state, hfetch, hrun⟩ := exists_fetch source none [] begun
    refine ⟨tries, reply, state, hfetch, ?_⟩
    cases reply with
    | ok page => exact start_of_fetched hrun
    | error error => exact start_of_failed hrun
  next_sends_nothing cursor log state hfree := by
    cases hwait : cursor.waiting with
    | some page => rw [next_of_waiting hwait]
    | none =>
      have hmore : cursor.more = false := by simpa [hasNext, hwait] using hfree
      rw [next_of_ended hwait hmore]
  next_fetches cursor log state hbusy := by
    obtain ⟨tries, answer, cursor', state', hcall, hrun⟩ := exists_call source cursor log state
    refine ⟨tries, answer, cursor', state', ?_, hcall.fetches_eq, hrun⟩
    cases hcall with
    | first hwait => simp [hwait] at hbusy
    | ended hwait hmore => simp [hasNext, hwait, hmore] at hbusy
    | page _ _ hfetch | failure _ _ hfetch => exact hfetch
  counts n answers cursor log state hrun := by
    -- The counts are those of the reading, which has one answer for each call.
    have hread := read_reading hrun
    have hanswers := length_read hrun
    refine ⟨hanswers, hread.fetches_eq, ?_, ?_, ?_⟩
    · rw [hread.returned_eq, length_pages]
    · rw [hread.returned_eq, hread.fetches_eq]
      exact hread.length_pages_le
    · rw [hread.fetches_eq, ← hanswers]
      exact hread.length_le

end Cursor

end BucketCare

import BucketCare.Deletion.Batcher

/-!
# Each candidate is sent once

Whatever a deleter answers, and whether or not the pushes go on after a failure, the batches that
were sent, followed by the candidates that wait, are the candidates in the order they were pushed.
A flush lets go of its batch before it knows the answer, so a failure neither repeats nor loses one.

## Main definitions

* `Batcher.pushEach` — candidates pushed one after the other, also behind a failure
* `Batcher.Batched` — how some candidates are shared out among batches and a batcher
* `Batcher.remainder` — the last batch
* `inPages` — a list cut into pages

## Main results

* `Batcher.Batched.push` — the sharing is kept by every push
* `Batcher.exists_finish` — what finishing sends
* `Batcher.Batched.inPages_eq` — the batches and the remainder are the candidates in pages
* `Batcher.sends_each_once` — every run of pushes sends each candidate once
-/

namespace BucketCare

/-- A list cut into pages of some size; only the last page may hold less. -/
def inPages {α : Type} (size : Nat) (list : List α) : List (List α) :=
  (List.range ((list.length + size - 1) / size)).map fun i => (list.drop (i * size)).take size

theorem inPages_of_lt {α : Type} {size : Nat} {list : List α} (h : list.length < size) :
    inPages size list = if list = [] then [] else [list] := by
  cases list with
  | nil =>
    have hnone : ([] : List α).length + size - 1 < size := by simp at h ⊢; omega
    rw [inPages, Nat.div_eq_of_lt hnone]
    rfl
  | cons a rest =>
    have hone : ((a :: rest).length + size - 1) / size = 1 := by
      apply Nat.div_eq_of_lt_le <;> simp only [List.length_cons] at h ⊢ <;> omega
    rw [inPages, hone]
    simp [List.take_of_length_le (Nat.le_of_lt h)]

theorem inPages_append {α : Type} {size : Nat} {page : List α} (hpos : 0 < size)
    (h : page.length = size) (rest : List α) :
    inPages size (page ++ rest) = page :: inPages size rest := by
  have hcount : ((page ++ rest).length + size - 1) / size =
      (rest.length + size - 1) / size + 1 := by
    have hsum : (page ++ rest).length + size - 1 = rest.length + size - 1 + size := by
      simp only [List.length_append]
      omega
    rw [hsum, Nat.add_div_right _ hpos]
  rw [inPages, hcount, List.range_succ_eq_map, List.map_cons, List.map_map]
  congr 1
  · simp [← h]
  · apply List.map_congr_left
    intro i _
    have hdrop : (i + 1) * size = page.length + i * size := by rw [h, Nat.succ_mul, Nat.add_comm]
    simp [hdrop]

/-- Full pages in front stay as they are. -/
theorem inPages_flatten_append {α : Type} {size : Nat} {pages : List (List α)} (hpos : 0 < size)
    (hfull : ∀ page ∈ pages, page.length = size) (rest : List α) :
    inPages size (pages.flatten ++ rest) = pages ++ inPages size rest := by
  induction pages with
  | nil => rfl
  | cons page pages ih =>
    obtain ⟨hpage, hpages⟩ := List.forall_mem_cons.mp hfull
    rw [List.flatten_cons, List.append_assoc, inPages_append hpos hpage, ih hpages,
      List.cons_append]

theorem inPages_flatten {α : Type} {size : Nat} (hpos : 0 < size) (list : List α) :
    (inPages size list).flatten = list := by
  induction hlength : list.length using Nat.strongRecOn generalizing list with
  | ind length ih =>
    by_cases hless : list.length < size
    · rw [inPages_of_lt hless]
      split
      next hempty => rw [hempty, List.flatten_nil]
      next => exact List.flatten_singleton
    · have hfull : (list.take size).length = size :=
        List.length_take_of_le (Nat.le_of_not_lt hless)
      have hsmaller : (list.drop size).length < length := by
        rw [List.length_drop]
        omega
      rw [← List.take_append_drop size list, inPages_append hpos hfull, List.flatten_cons,
        ih _ hsmaller _ rfl]

namespace Batcher

variable {σ : Type}

/-- Push candidates one after the other, whether or not a push fails. -/
def pushEach (deleter : Deleter σ) :
    Batcher → List Candidate → StateM σ (List (Except Error Unit) × Batcher)
  | batcher, [] => return ([], batcher)
  | batcher, candidate :: rest => do
    let (result, batcher) ← batcher.push deleter candidate
    let (results, batcher) ← pushEach deleter batcher rest
    return (result :: results, batcher)

/-- The batcher with one more candidate that waits. -/
def hold (batcher : Batcher) (candidate : Candidate) : Batcher :=
  { batcher with
    pending := batcher.pending ++ [candidate]
    summary := { batcher.summary with candidates := batcher.summary.candidates + 1 } }

/-- The last batch: all candidates that wait, if there are any. -/
def remainder (batcher : Batcher) : List (List Candidate) :=
  if batcher.pending = [] then [] else [batcher.pending]

@[simp] theorem hold_pending (batcher : Batcher) (candidate : Candidate) :
    (batcher.hold candidate).pending = batcher.pending ++ [candidate] := rfl

/-- A batcher is made for every allowed page size. -/
theorem new_eq_ok {size : Nat} (hpos : 1 ≤ size) (hmax : size ≤ maxPageSize) :
    new size = .ok ⟨size, [], ⟨0, 0, 0⟩⟩ := by
  have hallowed : ¬ (size = 0 ∨ maxPageSize < size) := by omega
  rw [new, checkPageSize, if_neg hallowed]
  rfl

/-! ## One operation -/

section Operations

variable {deleter : Deleter σ} {batcher : Batcher} {candidate : Candidate} {state state' : σ}

theorem flush_of_error {error : Error}
    (h : (deleter batcher.pending).run state = (.error error, state')) :
    (flush deleter batcher).run state =
      ((.error error, ⟨batcher.pageSize, [],
        { batcher.summary with flushes := batcher.summary.flushes + 1 }⟩), state') := by
  rw [flush, StateT.run_bind, h]
  rfl

theorem flush_of_ok {outcome : Outcome}
    (h : (deleter batcher.pending).run state = (.ok outcome, state')) :
    (flush deleter batcher).run state =
      ((match outcome.toError batcher.pending.length with
        | some e => .error e
        | none => .ok (),
        ⟨batcher.pageSize, [],
          { batcher.summary with
            flushes := batcher.summary.flushes + 1
            deleted := batcher.summary.deleted + outcome.deleted }⟩), state') := by
  rw [flush, StateT.run_bind, h]
  rfl

theorem push_of_room (h : batcher.pending.length + 1 < batcher.pageSize) :
    (push deleter batcher candidate).run state = ((.ok (), batcher.hold candidate), state) := by
  have hroom : ¬ batcher.pageSize ≤ (batcher.pending ++ [candidate]).length := by simpa using h
  rw [push]
  dsimp only
  rw [if_neg hroom]
  rfl

theorem push_of_full (h : batcher.pageSize ≤ batcher.pending.length + 1) :
    push deleter batcher candidate = flush deleter (batcher.hold candidate) := by
  have hfull : batcher.pageSize ≤ (batcher.pending ++ [candidate]).length := by simpa using h
  rw [push]
  dsimp only
  rw [if_pos hfull]
  rfl

theorem finish_of_empty (h : batcher.pending = []) :
    (finish deleter batcher).run state = (.ok batcher.summary, state) := by
  rw [finish, h]
  rfl

theorem finish_of_pending {result : Except Error Unit} {batcher' : Batcher}
    (h : batcher.pending ≠ [])
    (hflush : (flush deleter batcher).run state = ((result, batcher'), state')) :
    (finish deleter batcher).run state = (result.map fun _ => batcher'.summary, state') := by
  have hsome : ¬ batcher.pending.isEmpty = true := by simpa using h
  rw [finish, if_neg hsome, StateT.run_bind, hflush]
  cases result <;> rfl

theorem pushEach_cons {result : Except Error Unit} {results : List (Except Error Unit)}
    {rest : List Candidate} {batcher₁ batcher₂ : Batcher} {state₁ state₂ : σ}
    (hpush : (push deleter batcher candidate).run state = ((result, batcher₁), state₁))
    (hrest : (pushEach deleter batcher₁ rest).run state₁ = ((results, batcher₂), state₂)) :
    (pushEach deleter batcher (candidate :: rest)).run state =
      ((result :: results, batcher₂), state₂) := by
  rw [pushEach, StateT.run_bind, hpush]
  change (pushEach deleter batcher₁ rest >>= fun _ => _).run state₁ = _
  rw [StateT.run_bind, hrest]
  rfl

end Operations

/-! ## What is sent -/

section Sent

variable (deleter : Deleter σ) (batcher : Batcher) (batches : List (List Candidate)) (state : σ)

/-- A flush sends what waits, and nothing waits afterwards, whatever the answer. -/
theorem exists_flush : ∃ result summary state',
    (flush deleter.recorded batcher).run (batches, state) =
      ((result, ⟨batcher.pageSize, [], summary⟩), (batches ++ [batcher.pending], state')) := by
  obtain ⟨answer, state', hanswer⟩ :
      ∃ answer state', (deleter batcher.pending).run state = (answer, state') := ⟨_, _, rfl⟩
  have hrecorded : (deleter.recorded batcher.pending).run (batches, state) =
      (answer, (batches ++ [batcher.pending], state')) := by
    obtain ⟨rfl, rfl⟩ := Prod.ext_iff.mp hanswer
    rfl
  cases answer with
  | error error => exact ⟨_, _, state', flush_of_error hrecorded⟩
  | ok outcome => exact ⟨_, _, state', flush_of_ok hrecorded⟩

/-- Finishing sends what waits as one batch, if there is anything. -/
theorem exists_finish : ∃ result state', (finish deleter.recorded batcher).run (batches, state) =
    (result, (batches ++ batcher.remainder, state')) := by
  by_cases hempty : batcher.pending = []
  · refine ⟨.ok batcher.summary, state, ?_⟩
    rw [finish_of_empty hempty, remainder, if_pos hempty, List.append_nil]
  · obtain ⟨result, summary, state', hflush⟩ := exists_flush deleter batcher batches state
    refine ⟨result.map fun _ => summary, state', ?_⟩
    rw [finish_of_pending hempty hflush, remainder, if_neg hempty]

/-- How some candidates are shared out among the batches that were sent and those that wait. -/
structure Batched (size : Nat) (candidates : List Candidate) (batches : List (List Candidate))
    (batcher : Batcher) : Prop where
  pageSize_eq : batcher.pageSize = size
  /-- The batches, followed by what waits, are the candidates in their order. -/
  sent_append_pending : batches.flatten ++ batcher.pending = candidates
  /-- What waits does not fill a page. -/
  pending_lt : batcher.pending.length < size
  /-- Every batch fills a page. -/
  batch_full : ∀ batch ∈ batches, batch.length = size

variable {batcher batches} {size : Nat} {candidates : List Candidate}

/-- A candidate that does not fill the page waits behind the others. -/
theorem Batched.hold (h : Batched size candidates batches batcher) (candidate : Candidate)
    (hroom : batcher.pending.length + 1 < size) :
    Batched size (candidates ++ [candidate]) batches (batcher.hold candidate) where
  pageSize_eq := h.pageSize_eq
  sent_append_pending := by rw [hold_pending, ← List.append_assoc, h.sent_append_pending]
  pending_lt := by simpa using hroom
  batch_full := h.batch_full

/-- A candidate that fills the page, since less than a page waited, is sent with the others. -/
theorem Batched.send (h : Batched size candidates batches batcher) (candidate : Candidate)
    (hpage : size ≤ batcher.pending.length + 1) (summary : DeleteSummary) :
    Batched size (candidates ++ [candidate]) (batches ++ [(batcher.hold candidate).pending])
      ⟨batcher.pageSize, [], summary⟩ where
  pageSize_eq := h.pageSize_eq
  sent_append_pending := by simp [← h.sent_append_pending]
  pending_lt := Nat.zero_lt_of_lt h.pending_lt
  batch_full := by
    intro batch hmem
    rcases List.mem_append.mp hmem with hearlier | hlast
    · exact h.batch_full batch hearlier
    · have hlength : (batcher.hold candidate).pending.length = batcher.pending.length + 1 := by
        simp
      have hless := h.pending_lt
      rw [List.mem_singleton.mp hlast, hlength]
      omega

/-- The sharing is kept by every push. -/
theorem Batched.push (h : Batched size candidates batches batcher) (candidate : Candidate) :
    ∃ result batcher' batches' state',
      (batcher.push deleter.recorded candidate).run (batches, state) =
        ((result, batcher'), (batches', state')) ∧
      Batched size (candidates ++ [candidate]) batches' batcher' := by
  have hsize := h.pageSize_eq
  by_cases hroom : batcher.pending.length + 1 < batcher.pageSize
  · exact ⟨_, _, batches, state, push_of_room hroom, h.hold candidate (hsize ▸ hroom)⟩
  · have hpage := Nat.le_of_not_lt hroom
    obtain ⟨result, summary, state', hflush⟩ :=
      exists_flush deleter (batcher.hold candidate) batches state
    rw [← push_of_full hpage] at hflush
    exact ⟨result, _, _, state', hflush, h.send candidate (hsize ▸ hpage) summary⟩

/-- The sharing is kept by every number of pushes. -/
theorem Batched.pushEach (h : Batched size candidates batches batcher) (more : List Candidate) :
    ∃ results batcher' batches' state',
      (batcher.pushEach deleter.recorded more).run (batches, state) =
        ((results, batcher'), (batches', state')) ∧
      Batched size (candidates ++ more) batches' batcher' := by
  induction more generalizing batcher batches state candidates with
  | nil => exact ⟨[], batcher, batches, state, rfl, by rwa [List.append_nil]⟩
  | cons candidate rest ih =>
    obtain ⟨result, batcher₁, batches₁, state₁, hpush, hone⟩ := h.push deleter state candidate
    obtain ⟨results, batcher₂, batches₂, state₂, hrest, hall⟩ := ih state₁ hone
    refine ⟨result :: results, batcher₂, batches₂, state₂, pushEach_cons hpush hrest, ?_⟩
    rwa [List.append_assoc] at hall

theorem Batched.flatten_remainder (h : Batched size candidates batches batcher) :
    (batches ++ batcher.remainder).flatten = candidates := by
  rw [← h.sent_append_pending, List.flatten_append, remainder]
  split
  next hempty => simp [hempty]
  next => simp

/-- The batches and the remainder are the candidates in pages. -/
theorem Batched.inPages_eq (h : Batched size candidates batches batcher) :
    inPages size candidates = batches ++ batcher.remainder := by
  have hpos : 0 < size := Nat.zero_lt_of_lt h.pending_lt
  rw [← h.sent_append_pending, inPages_flatten_append hpos h.batch_full,
    inPages_of_lt h.pending_lt]
  rfl

/-- No batch is empty or more than a page, the last one included. -/
theorem Batched.length_mem (h : Batched size candidates batches batcher) {batch : List Candidate}
    (hmem : batch ∈ batches ++ batcher.remainder) : 0 < batch.length ∧ batch.length ≤ size := by
  have hpending := h.pending_lt
  rcases List.mem_append.mp hmem with hsent | hlast
  · have hfull := h.batch_full batch hsent
    omega
  · rw [remainder] at hlast
    split at hlast
    next => cases hlast
    next hsome =>
      obtain rfl := List.mem_singleton.mp hlast
      exact ⟨List.length_pos_iff.mpr hsome, Nat.le_of_lt hpending⟩

end Sent

/-- Every run of pushes into a new batcher shares the candidates out, and when it is finished, with
success or not, each candidate was sent once, in the order of the pushes. The candidates are any, so
the sharing holds after each push of a run. -/
theorem sends_each_once {size : Nat} (hpos : 1 ≤ size) (hmax : size ≤ 1000) (deleter : Deleter σ)
    (state : σ) (candidates : List Candidate) :
    ∃ start results batcher batches state₁ result sent state₂,
      new size = .ok start ∧
      (start.pushEach deleter.recorded candidates).run ([], state) =
        ((results, batcher), (batches, state₁)) ∧
      Batched size candidates batches batcher ∧
      (batcher.finish deleter.recorded).run (batches, state₁) = (result, (sent, state₂)) ∧
      sent = batches ++ batcher.remainder ∧ sent.flatten = candidates ∧
      ∀ batch ∈ sent, 0 < batch.length ∧ batch.length ≤ size := by
  have hstart : Batched size [] [] ⟨size, [], ⟨0, 0, 0⟩⟩ := ⟨rfl, rfl, hpos, by simp⟩
  obtain ⟨results, batcher, batches, state₁, hpush, hall⟩ :=
    hstart.pushEach deleter state candidates
  obtain ⟨result, state₂, hfinish⟩ := exists_finish deleter batcher batches state₁
  exact ⟨_, results, batcher, batches, state₁, result, _, state₂, new_eq_ok hpos hmax, hpush, hall,
    hfinish, rfl, hall.flatten_remainder, fun batch hmem => hall.length_mem hmem⟩

/-- Three candidates in pages of two, while every request fails: the last one is sent alone. -/
theorem sends_each_once_while_down :
    Batched 2 [⟨"a", none⟩, ⟨"b", none⟩, ⟨"c", none⟩] [[⟨"a", none⟩, ⟨"b", none⟩]]
      ⟨2, [⟨"c", none⟩], ⟨3, 0, 1⟩⟩ ∧
    (finish (Deleter.recorded fun _ => return .error (.storeOperation "down"))
        ⟨2, [⟨"c", none⟩], ⟨3, 0, 1⟩⟩).run ([[⟨"a", none⟩, ⟨"b", none⟩]], ()) =
      (.error (.storeOperation "down"),
        ([[⟨"a", none⟩, ⟨"b", none⟩], [⟨"c", none⟩]], ())) := by
  obtain ⟨_, _, _, _, _, _, _, _, hnew, hpush, hall, -⟩ :=
    sends_each_once (by decide : 1 ≤ 2) (by decide)
      (fun _ => return .error (.storeOperation "down")) ()
      [⟨"a", none⟩, ⟨"b", none⟩, ⟨"c", none⟩]
  cases hnew
  cases hpush
  exact ⟨hall, rfl⟩

end Batcher

end BucketCare

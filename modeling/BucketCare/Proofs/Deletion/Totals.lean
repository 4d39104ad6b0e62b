import BucketCare.Proofs.Deletion.Batches
import Mathlib.Algebra.GroupWithZero.Nat

/-!
# The totals of a deletion

A push fills a page or does not. If it does, it makes one request, and the answer decides how the
push ends and what is added to the total of deleted entries: a failure is passed on and adds
nothing, an answer with refusals adds what was deleted all the same. The other two totals do not
depend on answers: every push counts its candidate, and every request is counted before it is made.
So the totals of a run are read off the list of its requests, whichever of them failed. The total of
deleted entries has 64 bits, and is the number of these entries as far as they can tell it.

## Main definitions

* `DeleteCall` — a request with its answer
* `DeleteCall.Ends` — how an operation ends by the answer to its request
* `Deleter.Answers` — a deleter answers requests one after the other
* `Batcher.Pushes`, `Batcher.Finishes`, `Batcher.Runs` — what a push, the end of a run and a run of
  pushes do
* `Batcher.Accounted` — the totals of a batcher, by the requests that were made

## Main results

* `Batcher.exists_push`, `Batcher.exists_finishing` — every push and every end of a run is one of
  the described ones
* `Batcher.Accounted.push` — the totals are kept right by every push
* `Batcher.totals_of_run` — the totals of every run
-/

namespace BucketCare

variable {σ : Type}

/-! ## Requests and their answers -/

/-- A request to delete a batch, with its answer. -/
structure DeleteCall where
  batch : List Candidate
  answer : Except Error Outcome

namespace DeleteCall

/-- The entries that were deleted, as the answer reports them. -/
def deleted (call : DeleteCall) : UInt64 :=
  match call.answer with
  | .ok outcome => outcome.deleted
  | .error _ => 0

/-- How an operation ends that made a request. -/
inductive Ends (call : DeleteCall) : Except Error Unit → Prop
  /-- The request failed, and the operation fails with its failure. -/
  | failed {error : Error} (answer_eq : call.answer = .error error) : Ends call (.error error)
  /-- Entries were refused: one failure tells of all of them, by the first. -/
  | refused {deleted : UInt64} {first : Refusal} {others : List Refusal} {denied : Bool}
      (answer_eq : call.answer = .ok ⟨deleted, first :: others⟩)
      (kind_eq : (Error.bulkDelete call.batch.length (first :: others).length
          (first.key ++ ": " ++ first.code ++ " " ++ first.message) denied).kind =
        if ∀ refusal ∈ first :: others, refusal.code = "AccessDenied" then .noAccess
        else .exceptionThrown) :
      Ends call (.error (.bulkDelete call.batch.length (first :: others).length
        (first.key ++ ": " ++ first.code ++ " " ++ first.message) denied))
  /-- Nothing was refused. -/
  | done {deleted : UInt64} (answer_eq : call.answer = .ok ⟨deleted, []⟩) : Ends call (.ok ())

end DeleteCall

/-- The entries deleted by some requests. -/
def deletedBy (calls : List DeleteCall) : Nat := (calls.map fun call => call.deleted.toNat).sum

@[simp] theorem deletedBy_nil : deletedBy [] = 0 := rfl

@[simp] theorem deletedBy_cons (call : DeleteCall) (calls : List DeleteCall) :
    deletedBy (call :: calls) = call.deleted.toNat + deletedBy calls := List.sum_cons

@[simp] theorem deletedBy_append (calls more : List DeleteCall) :
    deletedBy (calls ++ more) = deletedBy calls + deletedBy more := by
  rw [deletedBy, List.map_append, List.sum_append]
  rfl

namespace Deleter

/-- A deleter answers requests one after the other, and goes from one state to another. -/
inductive Answers (deleter : Deleter σ) : σ → List DeleteCall → σ → Prop
  | nil {state : σ} : Answers deleter state [] state
  | cons {state₁ state₂ state₃ : σ} {call : DeleteCall} {calls : List DeleteCall}
      (head : (deleter call.batch).run state₁ = (call.answer, state₂))
      (tail : Answers deleter state₂ calls state₃) : Answers deleter state₁ (call :: calls) state₃

variable {deleter : Deleter σ} {state₁ state₂ state₃ : σ} {calls more : List DeleteCall}

theorem Answers.append (h : deleter.Answers state₁ calls state₂)
    (hmore : deleter.Answers state₂ more state₃) :
    deleter.Answers state₁ (calls ++ more) state₃ := by
  induction h with
  | nil => exact hmore
  | cons head _ ih => exact .cons head (ih hmore)

/-- A deleter that deletes every batch it is given. -/
def DeletesAll (deleter : Deleter σ) : Prop :=
  ∀ batch state, ((deleter batch).run state).1 = .ok ⟨.ofNat batch.length, []⟩

theorem dryRun_deletesAll : (dryRun : Deleter σ).DeletesAll := fun _ _ => rfl

theorem DeletesAll.answer_eq (hall : deleter.DeletesAll) (h : deleter.Answers state₁ calls state₂) :
    ∀ call ∈ calls, call.answer = .ok ⟨.ofNat call.batch.length, []⟩ := by
  induction h with
  | nil => simp
  | @cons state₁ _ _ call _ head _ ih =>
    have hanswer := hall call.batch state₁
    rw [head] at hanswer
    exact List.forall_mem_cons.mpr ⟨hanswer, ih⟩

end Deleter

/-- Requests that delete all they are given delete as many entries as their batches hold, as far as
64 bits can tell. -/
theorem deletedBy_of_all {calls : List DeleteCall}
    (h : ∀ call ∈ calls, call.answer = .ok ⟨.ofNat call.batch.length, []⟩) :
    UInt64.ofNat (deletedBy calls) = .ofNat (calls.map DeleteCall.batch).flatten.length := by
  induction calls with
  | nil => rfl
  | cons call calls ih =>
    obtain ⟨hcall, hcalls⟩ := List.forall_mem_cons.mp h
    have hdeleted : call.deleted = .ofNat call.batch.length := by rw [DeleteCall.deleted, hcall]
    rw [deletedBy_cons, List.map_cons, List.flatten_cons, List.length_append, UInt64.ofNat_add,
      UInt64.ofNat_add, UInt64.ofNat_toNat, hdeleted, ih hcalls]

theorem DeleteCall.Ends.of_all {call : DeleteCall} {result : Except Error Unit}
    (h : call.Ends result) (hcall : call.answer = .ok ⟨.ofNat call.batch.length, []⟩) :
    result = .ok () := by
  cases h with
  | failed answer_eq => simp [hcall] at answer_eq
  | refused answer_eq _ => simp [hcall] at answer_eq
  | done _ => rfl

/-- The failure that stands for refusals is one of access exactly if access was denied to all of
the entries. -/
theorem kind_bulkDelete (attempted failed : Nat) (text : String) (refusals : List Refusal) :
    (Error.bulkDelete attempted failed text
        (refusals.all fun r => r.code == "AccessDenied")).kind =
      if ∀ refusal ∈ refusals, refusal.code = "AccessDenied" then .noAccess
      else .exceptionThrown := by
  by_cases hdenied : ∀ refusal ∈ refusals, refusal.code = "AccessDenied"
  · have hall : (refusals.all fun r => r.code == "AccessDenied") = true := by simpa using hdenied
    rw [if_pos hdenied, hall]
    rfl
  · have hsome : (refusals.all fun r => r.code == "AccessDenied") = false := by
      simpa using hdenied
    rw [if_neg hdenied, hsome]
    rfl

namespace Batcher

/-! ## One operation -/

/-- What the batcher is after the request for what waits. -/
def sent (batcher : Batcher) (call : DeleteCall) : Batcher :=
  ⟨batcher.pageSize, [],
    { batcher.summary with
      flushes := batcher.summary.flushes + 1
      deleted := batcher.summary.deleted + call.deleted }⟩

/-- A request that failed has deleted nothing. -/
theorem sent_of_error (batcher : Batcher) (error : Error) :
    batcher.sent ⟨batcher.pending, .error error⟩ = { batcher with
      pending := []
      summary := { batcher.summary with flushes := batcher.summary.flushes + 1 } } := by
  simp [sent, DeleteCall.deleted]

/-- What a push does: how it ends, the requests it makes and the batcher after it. -/
inductive Pushes (batcher : Batcher) (candidate : Candidate) :
    Except Error Unit → List DeleteCall → Batcher → Prop
  /-- The page is not full yet. -/
  | waits (room : batcher.pending.length + 1 < batcher.pageSize) :
      Pushes batcher candidate (.ok ()) [] (batcher.hold candidate)
  /-- The page is full and is sent. -/
  | sends {call : DeleteCall} {result : Except Error Unit}
      (full : batcher.pageSize ≤ batcher.pending.length + 1)
      (batch_eq : call.batch = batcher.pending ++ [candidate]) (ends : call.Ends result) :
      Pushes batcher candidate result [call] ((batcher.hold candidate).sent call)

/-- What finishing does: the totals or the failure it ends with, and the requests it makes. -/
inductive Finishes (batcher : Batcher) : Except Error DeleteSummary → List DeleteCall → Prop
  /-- Nothing waits. -/
  | empty (pending_eq : batcher.pending = []) : Finishes batcher (.ok batcher.summary) []
  /-- What waits is sent. -/
  | sends {call : DeleteCall} {result : Except Error Unit} (pending_ne : batcher.pending ≠ [])
      (batch_eq : call.batch = batcher.pending) (ends : call.Ends result) :
      Finishes batcher (result.map fun _ => (batcher.sent call).summary) [call]

section Operations

variable (deleter : Deleter σ) (batcher : Batcher) (state : σ)

/-- A flush makes one request, and its answer decides the end and the total. -/
theorem exists_flushing : ∃ result call state',
    (flush deleter batcher).run state = ((result, batcher.sent call), state') ∧
      call.batch = batcher.pending ∧ call.Ends result ∧
      (deleter call.batch).run state = (call.answer, state') := by
  obtain ⟨answer, state', hanswer⟩ :
      ∃ answer state', (deleter batcher.pending).run state = (answer, state') := ⟨_, _, rfl⟩
  -- A request that failed, one that nothing was refused of, and one with refusals.
  match answer with
  | .error error =>
    refine ⟨_, ⟨batcher.pending, .error error⟩, state', ?_, rfl, .failed rfl, hanswer⟩
    rw [sent_of_error, flush_of_error hanswer]
  | .ok ⟨deleted, []⟩ =>
    exact ⟨_, ⟨batcher.pending, .ok ⟨deleted, []⟩⟩, state', flush_of_ok hanswer, rfl, .done rfl,
      hanswer⟩
  | .ok ⟨deleted, first :: others⟩ =>
    exact ⟨_, ⟨batcher.pending, .ok ⟨deleted, first :: others⟩⟩, state', flush_of_ok hanswer, rfl,
      .refused rfl (kind_bulkDelete _ _ _ _), hanswer⟩

theorem exists_push (candidate : Candidate) : ∃ result calls batcher' state',
    (push deleter batcher candidate).run state = ((result, batcher'), state') ∧
      Pushes batcher candidate result calls batcher' ∧ deleter.Answers state calls state' := by
  by_cases hroom : batcher.pending.length + 1 < batcher.pageSize
  · exact ⟨_, _, _, state, push_of_room hroom, .waits hroom, .nil⟩
  · have hfull := Nat.le_of_not_lt hroom
    obtain ⟨result, call, state', hflush, hbatch, hends, hanswer⟩ :=
      exists_flushing deleter (batcher.hold candidate) state
    refine ⟨result, [call], _, state', ?_, .sends hfull hbatch hends, .cons hanswer .nil⟩
    rw [push_of_full hfull, hflush]

theorem exists_finishing : ∃ result calls state',
    (finish deleter batcher).run state = (result, state') ∧ Finishes batcher result calls ∧
      deleter.Answers state calls state' := by
  by_cases hempty : batcher.pending = []
  · exact ⟨_, _, state, finish_of_empty hempty, .empty hempty, .nil⟩
  · obtain ⟨result, call, state', hflush, hbatch, hends, hanswer⟩ :=
      exists_flushing deleter batcher state
    exact ⟨_, _, state', finish_of_pending hempty hflush, .sends hempty hbatch hends,
      .cons hanswer .nil⟩

end Operations

/-! ## Runs of pushes -/

/-- A run of pushes, one after the other, whether or not they fail. -/
inductive Runs : Batcher → List Candidate → List (Except Error Unit) → List DeleteCall →
    Batcher → Prop
  | nil {batcher : Batcher} : Runs batcher [] [] [] batcher
  | cons {batcher batcher₁ batcher₂ : Batcher} {candidate : Candidate} {rest : List Candidate}
      {result : Except Error Unit} {results : List (Except Error Unit)}
      {calls more : List DeleteCall} (head : Pushes batcher candidate result calls batcher₁)
      (tail : Runs batcher₁ rest results more batcher₂) :
      Runs batcher (candidate :: rest) (result :: results) (calls ++ more) batcher₂

theorem exists_runs (deleter : Deleter σ) (batcher : Batcher) (candidates : List Candidate)
    (state : σ) : ∃ results calls batcher' state',
      (pushEach deleter batcher candidates).run state = ((results, batcher'), state') ∧
        Runs batcher candidates results calls batcher' ∧ deleter.Answers state calls state' := by
  induction candidates generalizing batcher state with
  | nil => exact ⟨[], [], batcher, state, rfl, .nil, .nil⟩
  | cons candidate rest ih =>
    obtain ⟨result, calls, batcher₁, state₁, hpush, hpushes, hcalls⟩ :=
      exists_push deleter batcher state candidate
    obtain ⟨results, more, batcher₂, state₂, hrest, hruns, hmore⟩ := ih batcher₁ state₁
    exact ⟨_, _, batcher₂, state₂, pushEach_cons hpush hrest, .cons hpushes hruns,
      hcalls.append hmore⟩

/-- How a push of a run ends: without a request, or by the answer to one of the requests. -/
theorem Runs.result_mem {batcher batcher' : Batcher} {candidates : List Candidate}
    {results : List (Except Error Unit)} {calls : List DeleteCall}
    (h : Runs batcher candidates results calls batcher') :
    ∀ result ∈ results, result = .ok () ∨ ∃ call ∈ calls, call.Ends result := by
  induction h with
  | nil => simp
  | cons head _ ih =>
    refine List.forall_mem_cons.mpr ⟨?_, fun result hmem => ?_⟩
    · cases head with
      | waits _ => exact .inl rfl
      | sends _ _ ends => exact .inr ⟨_, List.mem_append_left _ (List.mem_singleton_self _), ends⟩
    · obtain hok | ⟨call, hcall, hends⟩ := ih result hmem
      · exact .inl hok
      · exact .inr ⟨call, List.mem_append_right _ hcall, hends⟩

/-! ## Totals -/

/-- The candidates pushed so far are shared out among the requests and what waits, and the totals
are right: one for each candidate, one for each request, and what the requests deleted. -/
structure Accounted (size : Nat) (candidates : List Candidate) (calls : List DeleteCall)
    (batcher : Batcher) : Prop where
  batched : Batched size candidates (calls.map DeleteCall.batch) batcher
  summary_eq : batcher.summary = ⟨candidates.length, .ofNat (deletedBy calls), calls.length⟩

section Totals

variable {size : Nat} {candidates : List Candidate} {calls : List DeleteCall} {batcher : Batcher}

/-- The totals are kept right by every push, also by one that fails. -/
theorem Accounted.push (h : Accounted size candidates calls batcher) {candidate : Candidate}
    {result : Except Error Unit} {more : List DeleteCall} {batcher' : Batcher}
    (hpush : Pushes batcher candidate result more batcher') :
    Accounted size (candidates ++ [candidate]) (calls ++ more) batcher' := by
  have hsize := h.batched.pageSize_eq
  cases hpush with
  | waits room =>
    rw [List.append_nil]
    exact ⟨h.batched.hold candidate (hsize ▸ room), by simp [hold, h.summary_eq]⟩
  | @sends call _ full batch_eq ends =>
    refine ⟨?_, by simp [sent, hold, h.summary_eq]⟩
    rw [List.map_append, List.map_singleton, batch_eq]
    exact h.batched.send candidate (hsize ▸ full) _

theorem Accounted.runs (h : Accounted size candidates calls batcher) {rest : List Candidate}
    {results : List (Except Error Unit)} {more : List DeleteCall} {batcher' : Batcher}
    (hruns : Runs batcher rest results more batcher') :
    Accounted size (candidates ++ rest) (calls ++ more) batcher' := by
  induction hruns generalizing candidates calls with
  | nil => rwa [List.append_nil, List.append_nil]
  | cons head _ ih =>
    have hrest := ih (h.push head)
    rwa [List.append_assoc, List.append_assoc] at hrest

variable {result : Except Error DeleteSummary} {last : List DeleteCall}

/-- The last request is for the remainder. -/
theorem Finishes.batch_eq (h : Finishes batcher result last) :
    last.map DeleteCall.batch = batcher.remainder := by
  cases h with
  | empty pending_eq => rw [remainder, if_pos pending_eq, List.map_nil]
  | sends pending_ne batch_eq _ => rw [remainder, if_neg pending_ne, List.map_singleton, batch_eq]

/-- Totals that are reported are those of all requests. -/
theorem Accounted.finish (h : Accounted size candidates calls batcher)
    (hfinish : Finishes batcher result last) {summary : DeleteSummary}
    (hok : result = .ok summary) :
    summary = ⟨candidates.length, .ofNat (deletedBy (calls ++ last)), (calls ++ last).length⟩ := by
  cases hfinish with
  | empty _ =>
    obtain rfl := Except.ok.inj hok
    rw [h.summary_eq, List.append_nil]
  | @sends call ended _ _ _ =>
    cases ended with
    | error _ => cases hok
    | ok _ =>
      obtain rfl := Except.ok.inj hok
      simp [sent, h.summary_eq]

theorem Accounted.batches_eq (h : Accounted size candidates calls batcher)
    (hfinish : Finishes batcher result last) :
    (calls ++ last).map DeleteCall.batch = inPages size candidates := by
  rw [List.map_append, hfinish.batch_eq, h.batched.inPages_eq]

/-- Finishing succeeds where the last request deletes all it is given. -/
theorem Finishes.of_all (h : Finishes batcher result last)
    (hall : ∀ call ∈ last, call.answer = .ok ⟨.ofNat call.batch.length, []⟩) :
    ∃ summary, result = .ok summary := by
  cases h with
  | empty _ => exact ⟨_, rfl⟩
  | sends _ _ ends =>
    rw [ends.of_all (hall _ (List.mem_singleton_self _))]
    exact ⟨_, rfl⟩

end Totals

/-- For every page size, deleter and list of candidates: each push and the end of the run make at
most one request, which decides how they end. The requests are for the pages of the candidates, and
totals that are reported count the candidates, what the requests deleted as far as 64 bits can tell
it, and the pages. A deleter that deletes everything lets no push and no end fail and is reported
so; the deleter of a dry run is one. -/
theorem totals_of_run {size : Nat} (hpos : 1 ≤ size) (hmax : size ≤ 1000) (deleter : Deleter σ)
    (state : σ) (candidates : List Candidate) :
    ∃ start results calls batcher state₁ result last state₂,
      new size = .ok start ∧
      (start.pushEach deleter candidates).run state = ((results, batcher), state₁) ∧
      Runs start candidates results calls batcher ∧ deleter.Answers state calls state₁ ∧
      (batcher.finish deleter).run state₁ = (result, state₂) ∧
      Finishes batcher result last ∧ deleter.Answers state₁ last state₂ ∧
      (calls ++ last).map DeleteCall.batch = inPages size candidates ∧
      (calls ++ last).length = (candidates.length + size - 1) / size ∧
      (∀ summary, result = .ok summary →
        summary = ⟨candidates.length, .ofNat (deletedBy (calls ++ last)),
          (candidates.length + size - 1) / size⟩ ∧
        (deletedBy (calls ++ last) < UInt64.size →
          summary.deleted.toNat = deletedBy (calls ++ last))) ∧
      (deleter.DeletesAll → (∀ pushed ∈ results, pushed = .ok ()) ∧
        result = .ok ⟨candidates.length, .ofNat candidates.length,
          (candidates.length + size - 1) / size⟩) ∧
      (Deleter.dryRun : Deleter σ).DeletesAll := by
  obtain ⟨results, calls, batcher, state₁, hpush, hruns, hcalls⟩ :=
    exists_runs deleter ⟨size, [], ⟨0, 0, 0⟩⟩ candidates state
  obtain ⟨result, last, state₂, hfinish, hfinishes, hlast⟩ :=
    exists_finishing deleter batcher state₁
  -- The totals are right of a new batcher, and the pushes keep them right.
  have hstart : Accounted size [] [] ⟨size, [], ⟨0, 0, 0⟩⟩ := ⟨⟨rfl, rfl, hpos, by simp⟩, rfl⟩
  have hend : Accounted size candidates calls batcher := hstart.runs hruns
  have hbatches := hend.batches_eq hfinishes
  have hlength : (calls ++ last).length = (candidates.length + size - 1) / size := by
    rw [← List.length_map DeleteCall.batch, hbatches, inPages, List.length_map, List.length_range]
  have htotals : ∀ summary, result = .ok summary → summary =
      ⟨candidates.length, .ofNat (deletedBy (calls ++ last)),
        (candidates.length + size - 1) / size⟩ := by
    intro summary hok
    rw [hend.finish hfinishes hok, hlength]
  refine ⟨_, results, calls, batcher, state₁, result, last, state₂, new_eq_ok hpos hmax, hpush,
    hruns, hcalls, hfinish, hfinishes, hlast, hbatches, hlength, fun summary hok => ?_,
    fun hall => ?_, Deleter.dryRun_deletesAll⟩
  · refine ⟨htotals summary hok, fun hfits => ?_⟩
    rw [htotals summary hok]
    exact UInt64.toNat_ofNat_of_lt' hfits
  have hanswers := hall.answer_eq (hcalls.append hlast)
  have hdeleted : UInt64.ofNat (deletedBy (calls ++ last)) = .ofNat candidates.length := by
    rw [deletedBy_of_all hanswers, hbatches, inPages_flatten hpos]
  refine ⟨fun pushed hmem => ?_, ?_⟩
  · obtain hok | ⟨call, hcall, hends⟩ := hruns.result_mem pushed hmem
    · exact hok
    · exact hends.of_all (hanswers call (List.mem_append_left _ hcall))
  · obtain ⟨summary, hok⟩ :=
      hfinishes.of_all fun call hcall => hanswers call (List.mem_append_right _ hcall)
    rw [hok, htotals summary hok, hdeleted]

/-- Three candidates in pages of two. The first request deletes one entry and is refused the other,
and the second one deletes its only entry: both entries count. -/
theorem totals_of_run_refused :
    ∃ calls last,
      Runs ⟨2, [], ⟨0, 0, 0⟩⟩ [⟨"a", none⟩, ⟨"b", none⟩, ⟨"c", none⟩]
        [.ok (), .error (.bulkDelete 2 1 "b: AccessDenied no" true), .ok ()] calls
        ⟨2, [⟨"c", none⟩], ⟨3, 1, 1⟩⟩ ∧
      Finishes ⟨2, [⟨"c", none⟩], ⟨3, 1, 1⟩⟩ (.ok ⟨3, 2, 2⟩) last ∧
      UInt64.ofNat (deletedBy (calls ++ last)) = 2 ∧ (calls ++ last).length = 2 := by
  obtain ⟨_, _, calls, _, _, _, last, _, hnew, hpush, hruns, -, hfinish, hfinishes, -, -, hlength,
      htotals, -, -⟩ :=
    totals_of_run (by decide : 1 ≤ 2) (by decide)
      (fun _ answers => (answers.headD (.error .timeout), answers.tail))
      [.ok ⟨1, [⟨"b", none, "AccessDenied", "no"⟩]⟩, .ok ⟨1, []⟩]
      [⟨"a", none⟩, ⟨"b", none⟩, ⟨"c", none⟩]
  cases hnew
  cases hpush
  cases hfinish
  exact ⟨calls, last, hruns, hfinishes, (congrArg DeleteSummary.deleted (htotals _ rfl).1).symm,
    hlength⟩

end Batcher

end BucketCare

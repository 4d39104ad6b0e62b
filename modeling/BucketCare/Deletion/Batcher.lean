import BucketCare.Error
import BucketCare.Text.Blank
import BucketCare.Version

/-!
# Deleting in bulk

Candidates are gathered into pages, and each full page is deleted by one request; what is left is
deleted at the end. Page sizes lie between 1 and the most keys a store takes in one request.

The candidates may be listed in a file, one key to a line. Blanks around a key, blank lines and
lines that begin with a number sign do not count.

## Main definitions

* `checkPageSize` — the page sizes that are allowed
* `Deleter` — what deletes a batch of candidates in one request
* `Batcher` — the candidates that wait and the totals, with `push` and `finish`
* `Deleter.dryRun` — the deleter that deletes nothing
* `Deleter.recorded` — a deleter with a list of its batches
* `KeyList.parse` — the keys of a file
-/

namespace BucketCare

/-- The most keys a store takes in one list or bulk delete request. -/
def maxPageSize : Nat := 1000

/-- A page size must lie between 1 and the most keys of one request. -/
def checkPageSize (name : String) (size : Nat) : Except Error Unit :=
  if size = 0 ∨ maxPageSize < size then
    .error (.invalidConfig s!"{name} must be between 1 and {maxPageSize}, got {size}")
  else .ok ()

/-- An entry that the store refused to delete. -/
structure Refusal where
  key : String
  version : Option String
  code : String
  message : String
  deriving DecidableEq, Repr, Inhabited

/-- The answer to one bulk delete request. -/
structure Outcome where
  deleted : UInt64
  refusals : List Refusal
  deriving DecidableEq, Repr, Inhabited

/-- What deletes a batch of candidates in one request. -/
abbrev Deleter (σ : Type) := List Candidate → StateM σ (Except Error Outcome)

/-- Totals over all requests. -/
structure DeleteSummary where
  candidates : Nat
  /-- The entries that were deleted, as the answers report them. They are counted in 64 bits, and
  the count begins anew past the greatest number. -/
  deleted : UInt64
  flushes : Nat
  deriving DecidableEq, Repr, Inhabited

/-- The failure that an answer with refusals stands for, in a request of some size. -/
def Outcome.toError (outcome : Outcome) (attempted : Nat) : Option Error :=
  outcome.refusals.head?.map fun first =>
    .bulkDelete attempted outcome.refusals.length
      (first.key ++ ": " ++ first.code ++ " " ++ first.message)
      (outcome.refusals.all fun r => r.code == "AccessDenied")

/-- The candidates that wait for a request, and the totals. -/
structure Batcher where
  pageSize : Nat
  pending : List Candidate
  summary : DeleteSummary
  deriving DecidableEq, Repr

namespace Batcher

variable {σ : Type}

/-- A batcher with nothing in it. -/
def new (pageSize : Nat) : Except Error Batcher :=
  (checkPageSize "delete page size" pageSize).map fun _ => ⟨pageSize, [], ⟨0, 0, 0⟩⟩

/-- Delete what waits by one request. The candidates no longer wait, whatever the answer; an answer
with refusals counts what was deleted and is a failure. -/
def flush (deleter : Deleter σ) (batcher : Batcher) :
    StateM σ (Except Error Unit × Batcher) := do
  let counted := { batcher.summary with flushes := batcher.summary.flushes + 1 }
  match ← deleter batcher.pending with
  | .error e => return (.error e, { batcher with pending := [], summary := counted })
  | .ok outcome =>
    let summary := { counted with deleted := counted.deleted + outcome.deleted }
    let result := match outcome.toError batcher.pending.length with
      | some e => .error e
      | none => .ok ()
    return (result, { batcher with pending := [], summary })

/-- One more candidate; a page that is now full is deleted. -/
def push (deleter : Deleter σ) (batcher : Batcher) (candidate : Candidate) :
    StateM σ (Except Error Unit × Batcher) :=
  let batcher :=
    { batcher with
      pending := batcher.pending ++ [candidate]
      summary := { batcher.summary with candidates := batcher.summary.candidates + 1 } }
  if batcher.pageSize ≤ batcher.pending.length then batcher.flush deleter
  else pure (.ok (), batcher)

/-- Candidates one after the other, up to the first failure. -/
def pushAll (deleter : Deleter σ) :
    Batcher → List Candidate → StateM σ (Except Error Unit × Batcher)
  | batcher, [] => pure (.ok (), batcher)
  | batcher, candidate :: rest => do
    match ← batcher.push deleter candidate with
    | (.error e, batcher) => return (.error e, batcher)
    | (.ok _, batcher) => pushAll deleter batcher rest

/-- Delete what still waits, and give the totals. -/
def finish (deleter : Deleter σ) (batcher : Batcher) : StateM σ (Except Error DeleteSummary) := do
  if batcher.pending.isEmpty then return .ok batcher.summary
  else match ← batcher.flush deleter with
    | (.ok _, batcher) => return .ok batcher.summary
    | (.error e, _) => return .error e

end Batcher

namespace Deleter

variable {σ : Type}

/-- The deleter that deletes nothing and reports every candidate deleted. -/
def dryRun : Deleter σ := fun batch => return .ok ⟨UInt64.ofNat batch.length, []⟩

/-- A deleter that keeps the batches it was given, the first of them first. -/
def recorded (deleter : Deleter σ) : Deleter (List (List Candidate) × σ) :=
  fun batch (batches, state) =>
    let (result, state) := (deleter batch).run state
    (result, (batches ++ [batch], state))

end Deleter

end BucketCare

namespace BucketCare.KeyList

/-- The line names a key. -/
def isKey (line : List Char) : Bool := !line.isEmpty && line.head? != some '#'

/-- The keys of a file, in order. -/
def parse (content : String) : List String :=
  (((Text.lines content.toList).map Text.trim).filter isKey).map String.ofList

end BucketCare.KeyList

import BucketCare.Error
import BucketCare.Version.Restore

/-!
# Copies side by side

The copies of a restore run beside its listing and beside each other. Each of them sends its request
at some time, is answered, and ends at some later time. Which of them does so next is left to a
schedule: copies are answered in any order, and end in any order.

## Main definitions

* `CopyStep`, `CopySchedule` — what the copies do, and when
* `CopyPool` — the copies that wait, that were answered and that have ended
* `CopyPool.step`, `CopyPool.run` — one step, and some steps
* `CopyPool.join` — the copies that are left come to their end
-/

namespace BucketCare

/-- A step of one copy. A place with no copy means none. -/
inductive CopyStep where
  /-- The copy at a place among those that wait sends its request and is answered. -/
  | send (place : Nat)
  /-- The copy at a place among those that were answered ends. -/
  | finish (place : Nat)
  deriving DecidableEq, Repr

/-- What the copies do behind a page, by the number of pages read and of the copies that wait. -/
abbrev CopySchedule := (pages waiting : Nat) → List CopyStep

/-- Behind each page the copies found on it run one after the other. -/
def CopySchedule.atOnce : CopySchedule :=
  fun _ waiting => (List.replicate waiting [.send 0, .finish 0]).flatten

/-- The copies of a restore, with their results once they are answered. -/
structure CopyPool where
  /-- The copies that have sent nothing yet. -/
  waiting : List RestoreTarget
  /-- The copies that were answered, and whose end was not noticed yet. -/
  answered : List (RestoreTarget × Except Error Unit)
  /-- The copies that have ended, in the order in which they ended. -/
  ended : List (RestoreTarget × Except Error Unit)

namespace CopyPool

variable {σ : Type}

/-- There are no copies. -/
def empty : CopyPool := ⟨[], [], []⟩

/-- One more copy. -/
def add (pool : CopyPool) (target : RestoreTarget) : CopyPool :=
  { pool with waiting := pool.waiting ++ [target] }

/-- One step of a copy. -/
def step (copy : RestoreTarget → StateM σ (Except Error Unit)) (pool : CopyPool) :
    CopyStep → StateM σ CopyPool
  | .send place =>
    match pool.waiting[place]? with
    | none => return pool
    | some target => do
      let result ← copy target
      return { pool with
        waiting := pool.waiting.eraseIdx place
        answered := pool.answered ++ [(target, result)] }
  | .finish place =>
    match pool.answered[place]? with
    | none => return pool
    | some copied =>
      return { pool with
        answered := pool.answered.eraseIdx place
        ended := pool.ended ++ [copied] }

/-- Some steps, one after the other. -/
def run (copy : RestoreTarget → StateM σ (Except Error Unit)) :
    CopyPool → List CopyStep → StateM σ CopyPool
  | pool, [] => return pool
  | pool, step :: rest => do
    let pool ← pool.step copy step
    run copy pool rest

/-- The steps that are left when no schedule says more: the copies that wait send their requests,
and then all copies end. -/
def rest (pool : CopyPool) : List CopyStep :=
  List.replicate pool.waiting.length (.send 0) ++
    List.replicate (pool.answered.length + pool.waiting.length) (.finish 0)

/-- The copies that are left come to their end. -/
def join (copy : RestoreTarget → StateM σ (Except Error Unit)) (pool : CopyPool) :
    StateM σ CopyPool :=
  pool.run copy pool.rest

end CopyPool

end BucketCare

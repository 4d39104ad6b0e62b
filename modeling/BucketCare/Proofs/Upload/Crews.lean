import BucketCare.Proofs.Command.Leading
import BucketCare.Proofs.Upload.Moments
import Mathlib.Data.List.Forall2

/-!
# What the pool sees of its uploads

While an upload runs the pool sees nothing of it: neither its state nor that of the store is looked
at before it has ended. So whatever makes the uploads go on, and however they take turns, a run is
one of uploads that were known to their ends from the start, and what holds of all such runs holds
of it.

In the other direction, what each turn of the uploads keeps is kept by the whole run.

## Main definitions

* `Flight.Foretells` — the same upload, of which its end is known
* `foretold` — uploads that go as a list tells
* `Crew.Keeps` — something is kept whenever uploads go on

## Main results

* `Crew.exists_foretold` — a run as one of uploads that are known to their ends
* `Crew.Keeps.run` — what is kept by each turn holds at the end
-/

namespace BucketCare

variable {σ τ : Type}

/-! ## Runs with hindsight -/

/-- The same upload, of which its end is known. -/
structure Flight.Foretells (allowed : TransferEnd → Prop) (flight : Flight τ)
    (known : Flight TransferEnd) : Prop where
  place_eq : known.place = flight.place
  key_eq : known.key = flight.key
  finish_eq : known.finish = flight.finish
  work_allowed : allowed known.work

/-- The same uploads in flight, of which the ends are known. -/
abbrev Flight.Foretold (allowed : TransferEnd → Prop) :
    List (Flight τ) → List (Flight TransferEnd) → Prop :=
  List.Forall₂ (Flight.Foretells allowed)

/-- What a wait has come to, with the ends of the uploads that are still in flight. -/
inductive Halt.Foretold (allowed : TransferEnd → Prop) : Halt τ → Halt TransferEnd → Prop
  | interrupted {flights : List (Flight τ)} {known : List (Flight TransferEnd)} {ledger : Ledger}
      (h : Flight.Foretold allowed flights known) :
      Halt.Foretold allowed (.interrupted flights ledger) (.interrupted known ledger)
  | taskFailed {error : Error} {ledger : Ledger} :
      Halt.Foretold allowed (.taskFailed error ledger) (.taskFailed error ledger)

/-- What a wait has come to that may have ended early. -/
inductive Crew.Foretold (allowed : TransferEnd → Prop) :
    Except (Halt τ) (List (Flight τ) × Ledger) →
      Except (Halt TransferEnd) (List (Flight TransferEnd) × Ledger) → Prop
  | ok {flights : List (Flight τ)} {known : List (Flight TransferEnd)} {ledger : Ledger}
      (h : Flight.Foretold allowed flights known) :
      Crew.Foretold allowed (.ok (flights, ledger)) (.ok (known, ledger))
  | error {halt : Halt τ} {known : Halt TransferEnd} (h : Halt.Foretold allowed halt known) :
      Crew.Foretold allowed (.error halt) (.error known)

/-- Uploads that go as a list tells, the first of them first. -/
def foretold (_ : UploadFile) : StateM (List Transfer) Transfer := fun
  | transfer :: rest => (transfer, rest)
  | [] => (⟨0, .failed .cancelled⟩, [])

section Hindsight

variable {allowed : TransferEnd → Prop} {flight : Flight τ} {known : Flight TransferEnd}
variable {flights : List (Flight τ)}

namespace Flight

theorem Foretells.land_eq (h : flight.Foretells allowed known) (ledger : Ledger)
    (outcome : TransferEnd) : ledger.land known outcome = ledger.land flight outcome := by
  cases outcome <;> simp [Ledger.land, Ledger.complete, h.place_eq, h.key_eq, h.finish_eq]

theorem Foretells.lose_eq (h : flight.Foretells allowed known) (ledger : Ledger) :
    ledger.lose known = ledger.lose flight := by
  simp [Ledger.lose, h.place_eq, h.key_eq, h.finish_eq]

/-- An upload whose end is known. -/
def endingAs (flight : Flight τ) (outcome : TransferEnd) : Flight TransferEnd :=
  ⟨flight.place, flight.key, flight.finish, outcome⟩

theorem endingAs_work (flight : Flight τ) (outcome : TransferEnd) :
    (flight.endingAs outcome).work = outcome := rfl

theorem endingAs_foretells (flight : Flight τ) {outcome : TransferEnd} (h : allowed outcome) :
    flight.Foretells allowed (flight.endingAs outcome) := ⟨rfl, rfl, rfl, h⟩

/-- Any end that is allowed may be that of an upload which is never seen to end. -/
theorem exists_foretold {outcome : TransferEnd} (h : allowed outcome) (flights : List (Flight τ)) :
    ∃ known, Foretold allowed flights known := by
  refine ⟨flights.map fun flight => flight.endingAs outcome, ?_⟩
  induction flights with
  | nil => exact .nil
  | cons flight rest ih => exact .cons (flight.endingAs_foretells h) ih

/-- The order of uploads does not depend on how they end. -/
theorem Foretold.of_insert {known : List (Flight TransferEnd)}
    (h : Foretold allowed (flight.insert flights) known) :
    ∃ first rest, flight.Foretells allowed first ∧ Foretold allowed flights rest ∧
      first.insert rest = known := by
  induction flights generalizing known with
  | nil =>
    cases h with
    | cons hfirst hrest =>
      cases hrest
      exact ⟨_, [], hfirst, .nil, rfl⟩
  | cons other flights ih =>
    rw [insert] at h
    split at h
    next hless =>
      cases h with
      | cons hfirst hrest =>
        cases hrest with
        | @cons _ next _ _ hother hrest =>
          refine ⟨_, next :: _, hfirst, .cons hother hrest, ?_⟩
          rw [insert, hfirst.finish_eq, hother.finish_eq, if_pos hless]
    next hless =>
      cases h with
      | cons hother hrest =>
        obtain ⟨first, rest, hfirst, hflights, rfl⟩ := ih hrest
        refine ⟨first, _ :: rest, hfirst, .cons hother hflights, ?_⟩
        rw [insert, hfirst.finish_eq, hother.finish_eq, if_neg hless]

end Flight

variable (crew : Crew σ τ) (options : PoolOptions) (interrupt : Option Nat)

/-- What follows once an upload has come to its end. -/
theorem Crew.settle_run_bind {α : Type} {flight : Flight τ} {state state' : σ}
    {outcome : TransferEnd} (h : (crew.settle flight).run state = (outcome, state'))
    (next : TransferEnd → StateM σ α) :
    (crew.settle flight >>= next).run state = (next outcome).run state' := by
  rw [StateT.run_bind, h]
  rfl

variable (hallowed : ∀ flight state, allowed ((crew.settle flight).run state).1)

namespace Crew

include hallowed

/-- A wait, if the ends are known of the uploads that are still in flight behind it. -/
theorem exists_foretold_awaitBelow (limit : Nat) (flights : List (Flight τ)) (ledger : Ledger)
    (state : σ) (answer : Except (Halt TransferEnd) (List (Flight TransferEnd) × Ledger))
    (h : Crew.Foretold allowed
      ((crew.awaitBelow interrupt limit flights ledger).run state).1 answer) :
    ∃ known, Flight.Foretold allowed flights known ∧
      Pool.awaitBelow interrupt limit known ledger = answer := by
  induction flights generalizing ledger state with
  | nil =>
    cases h with
    | ok h =>
      cases h
      exact ⟨[], .nil, rfl⟩
  | cons flight rest ih =>
    by_cases hroom : rest.length + 1 < limit
    · rw [awaitBelow, if_pos hroom] at h
      cases h with
      | ok h =>
        refine ⟨_, h, ?_⟩
        cases h with
        | cons hfirst hrest => rw [Pool.awaitBelow, ← hrest.length_eq, if_pos hroom]
    by_cases hinterrupt : Pool.interrupts interrupt flight.finish = true
    · rw [awaitBelow, if_neg hroom, if_pos hinterrupt] at h
      cases h with
      | error h =>
        cases h with
        | interrupted h =>
          refine ⟨_, h, ?_⟩
          cases h with
          | cons hfirst hrest =>
            rw [Pool.awaitBelow, ← hrest.length_eq, if_neg hroom, hfirst.finish_eq,
              if_pos hinterrupt]
    -- The next upload ends: how it does is known from here on.
    rcases hsettle : (crew.settle flight).run state with ⟨outcome, state'⟩
    have hend : allowed outcome := by simpa [hsettle] using hallowed flight state
    have hfirst := flight.endingAs_foretells hend
    cases hland : ledger.land flight outcome with
    | ok next =>
      have hrun : (crew.awaitBelow interrupt limit (flight :: rest) ledger).run state =
          (crew.awaitBelow interrupt limit rest next).run state' := by
        rw [awaitBelow, if_neg hroom, if_neg hinterrupt, crew.settle_run_bind hsettle, hland]
      rw [hrun] at h
      obtain ⟨known, hknown, hanswer⟩ := ih next state' h
      refine ⟨_ :: known, .cons hfirst hknown, ?_⟩
      rw [Pool.awaitBelow, ← hknown.length_eq, if_neg hroom, hfirst.finish_eq, if_neg hinterrupt,
        hfirst.land_eq, flight.endingAs_work, hland]
      exact hanswer
    | error failure =>
      have hrun : (crew.awaitBelow interrupt limit (flight :: rest) ledger).run state =
          (.error (.taskFailed (.ofTask failure) (ledger.lose flight)), state') := by
        rw [awaitBelow, if_neg hroom, if_neg hinterrupt, crew.settle_run_bind hsettle, hland]
        rfl
      rw [hrun] at h
      obtain ⟨known, hknown⟩ := Flight.exists_foretold hend rest
      refine ⟨_ :: known, .cons hfirst hknown, ?_⟩
      rw [Pool.awaitBelow, ← hknown.length_eq, if_neg hroom, hfirst.finish_eq, if_neg hinterrupt,
        hfirst.land_eq, hfirst.lose_eq, flight.endingAs_work, hland]
      cases h with
      | error h =>
        cases h
        rfl

/-- A wait that ends all uploads it can before a deadline. -/
theorem exists_foretold_drainUntil (deadline : Nat) (flights : List (Flight τ)) (ledger : Ledger)
    (state : σ) : ∃ known, Flight.Foretold allowed flights known ∧
      Pool.drainUntil deadline known ledger =
        ((crew.drainUntil deadline flights ledger).run state).1 := by
  induction flights generalizing ledger state with
  | nil => exact ⟨[], .nil, rfl⟩
  | cons flight rest ih =>
    rcases hsettle : (crew.settle flight).run state with ⟨outcome, state'⟩
    have hend : allowed outcome := by simpa [hsettle] using hallowed flight state
    have hfirst := flight.endingAs_foretells hend
    by_cases hlate : deadline ≤ flight.finish
    · obtain ⟨known, hknown⟩ := Flight.exists_foretold hend rest
      refine ⟨_ :: known, .cons hfirst hknown, ?_⟩
      rw [drainUntil, if_pos hlate, Pool.drainUntil, hfirst.finish_eq, if_pos hlate]
      rfl
    cases hland : ledger.land flight outcome with
    | ok next =>
      obtain ⟨known, hknown, hledger⟩ := ih next state'
      refine ⟨_ :: known, .cons hfirst hknown, ?_⟩
      rw [drainUntil, if_neg hlate, crew.settle_run_bind hsettle, Pool.drainUntil,
        hfirst.finish_eq, if_neg hlate, hfirst.land_eq, flight.endingAs_work, hland]
      exact hledger
    | error failure =>
      obtain ⟨known, hknown, hledger⟩ := ih (ledger.lose flight) state'
      refine ⟨_ :: known, .cons hfirst hknown, ?_⟩
      rw [drainUntil, if_neg hlate, crew.settle_run_bind hsettle, Pool.drainUntil,
        hfirst.finish_eq, if_neg hlate, hfirst.land_eq, hfirst.lose_eq, flight.endingAs_work, hland]
      exact hledger

theorem exists_foretold_stop (halt : Halt τ) (state : σ) :
    ∃ known, Halt.Foretold allowed halt known ∧
      Pool.stop options interrupt known = ((crew.stop options interrupt halt).run state).1 := by
  cases halt with
  | interrupted flights ledger =>
    obtain ⟨known, hknown, hledger⟩ := exists_foretold_drainUntil crew hallowed
      ((ledger.interrupt (interrupt.getD 0)).now + options.grace) flights
      (ledger.interrupt (interrupt.getD 0)) state
    refine ⟨_, .interrupted hknown, ?_⟩
    rw [Pool.stop, stop, hledger]
    rfl
  | taskFailed error ledger => exact ⟨_, .taskFailed, rfl⟩

theorem exists_foretold_finish (flights : List (Flight τ)) (ledger : Ledger) (state : σ) :
    ∃ known, Flight.Foretold allowed flights known ∧
      Pool.finish options interrupt known ledger =
        ((crew.finish options interrupt flights ledger).run state).1 := by
  have hwait := exists_foretold_awaitBelow crew interrupt hallowed 1 flights ledger state
  rcases hrun : (crew.awaitBelow interrupt 1 flights ledger).run state with ⟨answer, state'⟩
  rw [hrun] at hwait
  rw [finish, StateT.run_bind, hrun]
  cases answer with
  | ok answer =>
    obtain ⟨left, last⟩ := answer
    -- Whatever is left in flight is not waited for.
    obtain ⟨others, hothers⟩ : ∃ others, Flight.Foretold allowed left others := by
      cases left with
      | nil => exact ⟨[], .nil⟩
      | cons flight rest => exact Flight.exists_foretold (hallowed flight state') _
    obtain ⟨known, hknown, hanswer⟩ := hwait _ (.ok hothers)
    refine ⟨known, hknown, ?_⟩
    rw [Pool.finish, hanswer]
    rfl
  | error halt =>
    obtain ⟨known', hhalt, hstop⟩ :=
      exists_foretold_stop crew options interrupt hallowed halt state'
    obtain ⟨known, hknown, hanswer⟩ := hwait _ (.error hhalt)
    refine ⟨known, hknown, ?_⟩
    rw [Pool.finish, hanswer]
    exact hstop

/-- What is left of a run, from some point of the plan on. -/
theorem exists_foretold_submitAll (plan : List UploadFile) (flights : List (Flight τ))
    (ledger : Ledger) (state : σ) : ∃ known transfers, Flight.Foretold allowed flights known ∧
      (∀ transfer ∈ transfers, allowed transfer.outcome) ∧
      ((Pool.submitAll foretold options interrupt plan known ledger).run transfers).1 =
        ((crew.submitAll options interrupt plan flights ledger).run state).1 := by
  induction plan generalizing flights ledger state with
  | nil =>
    obtain ⟨known, hknown, hrun⟩ :=
      exists_foretold_finish crew options interrupt hallowed flights ledger state
    exact ⟨known, [], hknown, List.forall_mem_nil _, hrun⟩
  | cons file plan ih =>
    have hwait := exists_foretold_awaitBelow crew interrupt hallowed options.threads flights ledger
      state
    rcases hrun : (crew.awaitBelow interrupt options.threads flights ledger).run state
      with ⟨answer, state'⟩
    rw [hrun] at hwait
    rw [submitAll, StateT.run_bind, hrun]
    cases answer with
    | error halt =>
      obtain ⟨known', hhalt, hstop⟩ :=
        exists_foretold_stop crew options interrupt hallowed halt state'
      obtain ⟨known, hknown, hanswer⟩ := hwait _ (.error hhalt)
      refine ⟨known, [], hknown, List.forall_mem_nil _, ?_⟩
      rw [Pool.submitAll, hanswer]
      exact hstop
    | ok answer =>
      obtain ⟨left, next⟩ := answer
      change ∃ known transfers, _ ∧ _ ∧ _ = ((if next.halted options.ignoreFailures = true then
        crew.finish options interrupt left next else _).run state').1
      by_cases hhalted : next.halted options.ignoreFailures = true
      · rw [if_pos hhalted]
        obtain ⟨others, hothers, hfinish⟩ :=
          exists_foretold_finish crew options interrupt hallowed left next state'
        obtain ⟨known, hknown, hanswer⟩ := hwait _ (.ok hothers)
        refine ⟨known, [], hknown, List.forall_mem_nil _, ?_⟩
        rw [Pool.submitAll, hanswer]
        simp only [if_pos hhalted]
        exact hfinish
      · rcases hstart : (crew.start file).run state' with ⟨⟨milliseconds, work⟩, state''⟩
        rw [if_neg hhalted, StateT.run_bind, hstart]
        obtain ⟨known', transfers, hlaunched, htransfers, hmore⟩ := ih
          (Flight.insert ⟨next.report.submitted, file.key, next.now + milliseconds, work⟩ left)
          (next.submit file.key) state''
        -- The upload that was started is among those whose ends are known behind it.
        obtain ⟨⟨place, key, finish, outcome⟩, others, hfirst, hothers, rfl⟩ := hlaunched.of_insert
        obtain ⟨rfl, rfl, rfl, hend⟩ := hfirst
        obtain ⟨known, hknown, hanswer⟩ := hwait _ (.ok hothers)
        refine ⟨known, ⟨milliseconds, outcome⟩ :: transfers, hknown,
          List.forall_mem_cons.mpr ⟨hend, htransfers⟩, ?_⟩
        rw [Pool.submitAll, hanswer]
        simp only [if_neg hhalted]
        exact hmore

/-- A run is one of uploads that are known to their ends. -/
theorem exists_foretold (plan : List UploadFile) (state : σ) : ∃ transfers,
    (∀ transfer ∈ transfers, allowed transfer.outcome) ∧
      ((runUploads foretold options interrupt plan).run transfers).1 =
        ((crew.run options interrupt plan).run state).1 := by
  rw [runUploads_eq, run]
  split
  · exact ⟨[], List.forall_mem_nil _, rfl⟩
  · obtain ⟨known, transfers, hknown, htransfers, hrun⟩ := exists_foretold_submitAll crew options
      interrupt hallowed plan [] (.start plan.length) state
    cases hknown
    exact ⟨transfers, htransfers, hrun⟩

end Crew

end Hindsight

/-! ## What is kept while uploads go on -/

/-- Whenever the uploads of a plan go on, something is kept that may be said of the ledger and of
the state beside it. -/
structure Crew.Keeps (crew : Crew σ τ) (plan : List UploadFile) (inv : Ledger → σ → Prop) :
    Prop where
  start : ∀ {ledger file}, plan[ledger.report.submitted]? = some file →
    LeadsTo (inv ledger) (crew.start file) fun _ => inv (ledger.submit file.key)
  settle : ∀ {ledger flight}, flight.place < ledger.report.submitted →
    LeadsTo (inv ledger) (crew.settle flight) fun outcome state =>
      match ledger.land flight outcome with
      | .ok next => inv next state
      | .error _ => inv (ledger.lose flight) state
  linger : ∀ ledger time, LeadsTo (inv ledger) crew.linger fun _ => inv (ledger.advance time)
  interrupt : ∀ ledger time state, inv ledger state → inv (ledger.interrupt time) state

section Keeping

variable {inv : Ledger → σ → Prop} {crew : Crew σ τ} {plan : List UploadFile}
variable {interrupt : Option Nat} {options : PoolOptions}

/-- Some uploads of a number that were submitted are in flight. -/
structure Crew.Stands (inv : Ledger → σ → Prop) (submitted : Nat) (flights : List (Flight τ))
    (ledger : Ledger) (state : σ) : Prop where
  submitted_eq : ledger.report.submitted = submitted
  place_lt : ∀ flight ∈ flights, flight.place < submitted
  kept : inv ledger state

/-- What a wait that ended early leaves. -/
def Halt.Stands (inv : Ledger → σ → Prop) (submitted : Nat) (halt : Halt τ) (state : σ) : Prop :=
  match halt with
  | .interrupted flights ledger => Crew.Stands inv submitted flights ledger state
  | .taskFailed _ ledger => inv ledger state

/-- What is kept holds of the moments of a run. -/
def UploadRun.Ends (inv : Ledger → σ → Prop) (run : UploadRun) (state : σ) : Prop :=
  ∃ ledger, run.moments = ledger.moments ∧ inv ledger state

namespace Crew

/-- When an upload has ended the others are in flight still. -/
theorem Stands.of_land {submitted : Nat} {flight : Flight τ} {rest : List (Flight τ)}
    {ledger next : Ledger} {before state : σ} {outcome : TransferEnd}
    (h : Stands inv submitted (flight :: rest) ledger before)
    (hland : ledger.land flight outcome = .ok next) (hkept : inv next state) :
    Stands inv submitted rest next state := by
  refine ⟨?_, (List.forall_mem_cons.mp h.place_lt).2, hkept⟩
  have hsame : next.report.submitted = ledger.report.submitted := by
    cases outcome <;> cases hland <;> rfl
  exact hsame.trans h.submitted_eq

theorem Stands.lose {submitted : Nat} {flight : Flight τ} {rest : List (Flight τ)}
    {ledger : Ledger} {before state : σ} (h : Stands inv submitted (flight :: rest) ledger before)
    (hkept : inv (ledger.lose flight) state) :
    Stands inv submitted rest (ledger.lose flight) state :=
  ⟨h.submitted_eq, (List.forall_mem_cons.mp h.place_lt).2, hkept⟩

/-- An upload that is started is in flight with the others. -/
theorem Stands.submit {submitted : Nat} {flight : Flight τ} {flights : List (Flight τ)}
    {ledger : Ledger} {key : String} {before state : σ}
    (h : Stands inv submitted flights ledger before) (hplace : flight.place = submitted)
    (hkept : inv (ledger.submit key) state) :
    Stands inv (submitted + 1) (flight.insert flights) (ledger.submit key) state := by
  refine ⟨congrArg (· + 1) h.submitted_eq, fun other hmem => ?_, hkept⟩
  rcases List.mem_cons.mp ((flight.insert_perm flights).mem_iff.mp hmem) with rfl | hother
  · omega
  · exact Nat.lt_succ_of_lt (h.place_lt other hother)

namespace Keeps

variable (hkeeps : crew.Keeps plan inv)
include hkeeps

/-- The next of the uploads in flight ends. -/
theorem settle_leads {submitted : Nat} {flight : Flight τ} {rest : List (Flight τ)}
    {ledger : Ledger} :
    LeadsTo (Stands inv submitted (flight :: rest) ledger) (crew.settle flight)
      fun outcome state => match ledger.land flight outcome with
        | .ok next => Stands inv submitted rest next state
        | .error _ => Stands inv submitted rest (ledger.lose flight) state := by
  intro state hstands
  have hplace := hstands.submitted_eq.symm ▸ (List.forall_mem_cons.mp hstands.place_lt).1
  have hsettled := hkeeps.settle hplace state hstands.kept
  rcases hrun : (crew.settle flight).run state with ⟨outcome, state'⟩
  rw [hrun] at hsettled
  dsimp only at hsettled ⊢
  cases hland : ledger.land flight outcome with
  | ok next =>
    rw [hland] at hsettled
    exact hstands.of_land hland hsettled
  | error _ =>
    rw [hland] at hsettled
    exact hstands.lose hsettled

theorem awaitBelow (limit submitted : Nat) (flights : List (Flight τ)) (ledger : Ledger) :
    LeadsTo (Stands inv submitted flights ledger)
      (crew.awaitBelow interrupt limit flights ledger) fun answer state =>
        match answer with
        | .ok (left, next) => Stands inv submitted left next state
        | .error halt => halt.Stands inv submitted state := by
  induction flights generalizing ledger with
  | nil => exact .pure fun _ => id
  | cons flight rest ih =>
    rw [Crew.awaitBelow]
    split
    · exact .pure fun _ => id
    split
    · exact .pure fun _ => id
    refine hkeeps.settle_leads.bind ?_
    intro outcome
    cases ledger.land flight outcome with
    | ok next => exact ih next
    | error failure => exact .pure fun _ hstands => hstands.kept

theorem drainUntil (deadline submitted : Nat) (flights : List (Flight τ)) (ledger : Ledger) :
    LeadsTo (Stands inv submitted flights ledger) (crew.drainUntil deadline flights ledger)
      fun next => inv next := by
  induction flights generalizing ledger with
  | nil => exact .pure fun _ hstands => hstands.kept
  | cons flight rest ih =>
    rw [Crew.drainUntil]
    split
    · exact ((hkeeps.linger ledger deadline).weaken fun _ hstands => hstands.kept).bind
        fun _ => .pure fun _ => id
    refine hkeeps.settle_leads.bind ?_
    intro outcome
    cases ledger.land flight outcome with
    | ok next => exact ih next
    | error failure => exact ih (ledger.lose flight)

theorem stop (submitted : Nat) (halt : Halt τ) :
    LeadsTo (halt.Stands inv submitted) (crew.stop options interrupt halt)
      fun run => run.Ends inv := by
  cases halt with
  | interrupted flights ledger =>
    rw [Crew.stop]
    refine ((hkeeps.drainUntil _ submitted flights _).weaken ?_).bind ?_
    · intro state hstands
      exact ⟨hstands.submitted_eq, hstands.place_lt,
        hkeeps.interrupt ledger (interrupt.getD 0) state hstands.kept⟩
    · exact fun next => .pure fun _ hkept => ⟨next, rfl, hkept⟩
  | taskFailed error ledger => exact .pure fun _ hkept => ⟨ledger, rfl, hkept⟩

theorem finish (submitted : Nat) (flights : List (Flight τ)) (ledger : Ledger) :
    LeadsTo (Stands inv submitted flights ledger) (crew.finish options interrupt flights ledger)
      fun run => run.Ends inv := by
  refine (hkeeps.awaitBelow 1 submitted flights ledger).bind ?_
  intro answer
  cases answer with
  | ok answer => exact .pure fun _ hstands => ⟨answer.2, rfl, hstands.kept⟩
  | error halt => exact hkeeps.stop submitted halt

theorem submitAll (rest : List UploadFile) (submitted : Nat) (hrest : plan.drop submitted = rest)
    (flights : List (Flight τ)) (ledger : Ledger) :
    LeadsTo (Stands inv submitted flights ledger)
      (crew.submitAll options interrupt rest flights ledger) fun run => run.Ends inv := by
  induction rest generalizing submitted flights ledger with
  | nil => exact hkeeps.finish submitted flights ledger
  | cons file rest ih =>
    refine (hkeeps.awaitBelow options.threads submitted flights ledger).bind ?_
    intro answer
    cases answer with
    | error halt => exact hkeeps.stop submitted halt
    | ok answer =>
      obtain ⟨left, next⟩ := answer
      dsimp only
      split
      · exact hkeeps.finish submitted left next
      apply LeadsTo.of_forall
      intro before hstands
      have hfile : plan[next.report.submitted]? = some file := by
        rw [hstands.submitted_eq, ← List.head?_drop, hrest, List.head?_cons]
      have hnext : plan.drop (submitted + 1) = rest := by
        rw [← List.drop_drop, hrest, List.drop_one, List.tail_cons]
      refine ((hkeeps.start hfile).at_state hstands.kept).bind ?_
      rintro ⟨milliseconds, work⟩
      refine (ih (submitted + 1) hnext _ _).weaken ?_
      intro state hkept
      exact hstands.submit hstands.submitted_eq hkept

/-- What each turn of the uploads keeps holds at the end of a run. -/
theorem run (hthreads : options.threads ≠ 0) :
    LeadsTo (inv (.start plan.length)) (crew.run options interrupt plan)
      fun run => run.Ends inv := by
  rw [Crew.run, if_neg hthreads]
  refine (hkeeps.submitAll plan 0 List.drop_zero [] _).weaken ?_
  intro state hkept
  exact ⟨rfl, List.forall_mem_nil _, hkept⟩

end Keeps

end Crew

end Keeping

end BucketCare

import BucketCare.Proofs.Command.Leading
import BucketCare.Version.Copying
import Mathlib.Data.List.Perm.Basic

/-!
# No copy is lost

A step moves one copy on: from those that wait to those that were answered, and from there to the
ones that have ended. Whatever the schedule, the copies are the targets, each was answered once as
soon as it no longer waits, and the ends are answers in another order. When the copies are joined
nothing waits, so the ends are all of the answers. Every order of requests is the one of some
schedule, and so is every order of ends.

## Main definitions

* `Copies` — an action that makes one more copy
* `CopyPool.Shares` — how some targets are shared out among the copies of a pool

## Main results

* `CopyPool.Shares.step`, `CopyPool.Shares.run` — the sharing is kept by every step
* `CopyPool.Shares.join` — joined copies have ended
* `CopyPool.exists_sending`, `CopyPool.exists_finishing` — copies are sent, and end, in every order
-/

namespace BucketCare

open scoped List

variable {σ : Type}

/-- An action makes one more copy: `inv` holds of a state and of the copies that were made, the
first of them first. -/
def Copies (inv : List (RestoreTarget × Except Error Unit) → σ → Prop)
    (copy : RestoreTarget → StateM σ (Except Error Unit)) : Prop :=
  ∀ made target, LeadsTo (inv made) (copy target) fun result state =>
    inv (made ++ [(target, result)]) state

theorem perm_cons_eraseIdx {α : Type} {list : List α} {place : Nat} {a : α}
    (h : list[place]? = some a) : list.Perm (a :: list.eraseIdx place) := by
  obtain ⟨hplace, rfl⟩ := List.getElem?_eq_some_iff.mp h
  exact (List.getElem_cons_eraseIdx_perm hplace).symm

namespace CopyPool

variable {inv : List (RestoreTarget × Except Error Unit) → σ → Prop}
variable {copy : RestoreTarget → StateM σ (Except Error Unit)}
variable {targets : List RestoreTarget} {pool : CopyPool} {state : σ}

/-- The targets are those that wait and those of the copies that were made, and the copies that were
made were answered or have ended since. -/
def Shares (inv : List (RestoreTarget × Except Error Unit) → σ → Prop)
    (targets : List RestoreTarget) (pool : CopyPool) (state : σ) : Prop :=
  ∃ made, inv made state ∧ (pool.waiting ++ made.map Prod.fst).Perm targets ∧
    (pool.answered ++ pool.ended).Perm made

theorem Shares.mono {other : List (RestoreTarget × Except Error Unit) → σ → Prop} {state' : σ}
    (h : pool.Shares inv targets state) (himp : ∀ made, inv made state → other made state') :
    pool.Shares other targets state' :=
  h.imp fun made hmade => ⟨himp made hmade.1, hmade.2⟩

theorem shares_empty (h : inv [] state) : empty.Shares inv [] state := ⟨[], h, .refl _, .refl _⟩

/-- One more target waits. -/
theorem Shares.add (h : pool.Shares inv targets state) (target : RestoreTarget) :
    (pool.add target).Shares inv (targets ++ [target]) state := by
  obtain ⟨made, hinv, htargets, hmade⟩ := h
  refine ⟨made, hinv, ?_, hmade⟩
  calc pool.waiting ++ [target] ++ made.map Prod.fst
      ~ pool.waiting ++ made.map Prod.fst ++ [target] := by
        rw [List.append_assoc, List.append_assoc]
        exact List.perm_append_comm.append_left _
    _ ~ targets ++ [target] := htargets.append_right _

/-! ## Steps -/

section Steps

variable (hcopy : Copies inv copy)
include hcopy

/-- A copy that is sent is made, and one that ends was made before. -/
theorem Shares.step (pool : CopyPool) (step : CopyStep) :
    LeadsTo (pool.Shares inv targets) (pool.step copy step) (·.Shares inv targets) := by
  cases step with
  | send place =>
    rw [CopyPool.step]
    split
    next => exact .pure fun _ h => h
    next target htarget =>
      apply LeadsTo.of_forall
      rintro state ⟨made, hinv, htargets, hmade⟩
      refine ((hcopy made target).at_state hinv).bind fun result => .pure ?_
      intro state' hinv'
      refine ⟨made ++ [(target, result)], hinv', ?_, ?_⟩
      · calc pool.waiting.eraseIdx place ++ (made ++ [(target, result)]).map Prod.fst
            ~ target :: pool.waiting.eraseIdx place ++ made.map Prod.fst := by
              rw [List.map_append, ← List.append_assoc]
              exact List.perm_append_singleton _ _
          _ ~ pool.waiting ++ made.map Prod.fst :=
            (perm_cons_eraseIdx htarget).symm.append_right _
          _ ~ targets := htargets
      · calc pool.answered ++ [(target, result)] ++ pool.ended
            ~ pool.answered ++ pool.ended ++ [(target, result)] := by
              rw [List.append_assoc, List.append_assoc]
              exact List.perm_append_comm.append_left _
          _ ~ made ++ [(target, result)] := hmade.append_right _
  | finish place =>
    rw [CopyPool.step]
    split
    next => exact .pure fun _ h => h
    next copied hcopied =>
      apply LeadsTo.pure
      rintro state ⟨made, hinv, htargets, hmade⟩
      refine ⟨made, hinv, htargets, ?_⟩
      calc pool.answered.eraseIdx place ++ (pool.ended ++ [copied])
          ~ copied :: pool.answered.eraseIdx place ++ pool.ended := by
            rw [← List.append_assoc]
            exact List.perm_append_singleton _ _
        _ ~ pool.answered ++ pool.ended := (perm_cons_eraseIdx hcopied).symm.append_right _
        _ ~ made := hmade

/-- Whatever the schedule, the copies are those of the targets. -/
theorem Shares.run (pool : CopyPool) (steps : List CopyStep) :
    LeadsTo (pool.Shares inv targets) (pool.run copy steps) (·.Shares inv targets) := by
  induction steps generalizing pool with
  | nil => exact .pure fun _ h => h
  | cons step rest ih => exact (Shares.step hcopy pool step).bind fun next => ih next

end Steps

/-! ## Joining -/

theorem run_append (pool : CopyPool) (steps more : List CopyStep) :
    pool.run copy (steps ++ more) = pool.run copy steps >>= fun next => next.run copy more := by
  induction steps generalizing pool with
  | nil => rfl
  | cons step rest ih =>
    rw [List.cons_append, CopyPool.run, CopyPool.run, bind_assoc]
    exact congrArg _ (funext ih)

/-- All copies that wait are sent. -/
theorem run_send_all (copy : RestoreTarget → StateM σ (Except Error Unit)) (pool : CopyPool) :
    LeadsTo (fun _ => True) (pool.run copy (List.replicate pool.waiting.length (.send 0)))
      fun next _ => next.waiting = [] ∧
        next.answered.length = pool.answered.length + pool.waiting.length := by
  obtain ⟨waiting, answered, ended⟩ := pool
  induction waiting generalizing answered with
  | nil => exact .pure fun _ _ => ⟨rfl, rfl⟩
  | cons target rest ih =>
    rw [List.length_cons, List.replicate_succ, CopyPool.run]
    have hone : LeadsTo (fun _ => True)
        (step copy ⟨target :: rest, answered, ended⟩ (.send 0)) fun next _ =>
          ∃ result, next = ⟨rest, answered ++ [(target, result)], ended⟩ :=
      fun state _ => ⟨_, rfl⟩
    refine hone.bind fun next => .of_forall ?_
    rintro state ⟨result, rfl⟩
    refine ((ih (answered ++ [(target, result)])).at_state trivial).mono ?_
    rintro last _ ⟨hwaiting, hanswered⟩
    refine ⟨hwaiting, hanswered.trans ?_⟩
    change (answered ++ [(target, result)]).length + rest.length =
      answered.length + (rest.length + 1)
    rw [List.length_append, List.length_singleton]
    omega

/-- All copies that were answered end. -/
theorem run_finish_all (copy : RestoreTarget → StateM σ (Except Error Unit)) (pool : CopyPool)
    (state : σ) :
    (pool.run copy (List.replicate pool.answered.length (.finish 0))).run state =
      (⟨pool.waiting, [], pool.ended ++ pool.answered⟩, state) := by
  obtain ⟨waiting, answered, ended⟩ := pool
  induction answered generalizing ended with
  | nil =>
    rw [List.append_nil]
    rfl
  | cons copied rest ih =>
    rw [List.length_cons, List.replicate_succ, CopyPool.run, StateT.run_bind]
    refine (ih (ended ++ [copied])).trans ?_
    rw [List.append_assoc, List.singleton_append]

/-- Joined copies have ended, each of them once. -/
theorem Shares.join (hcopy : Copies inv copy) (pool : CopyPool) :
    LeadsTo (pool.Shares inv targets) (pool.join copy) fun next state =>
      ∃ made, inv made state ∧ (made.map Prod.fst).Perm targets ∧ next.ended.Perm made := by
  have hshares : LeadsTo (pool.Shares inv targets) (pool.join copy) (·.Shares inv targets) :=
    Shares.run hcopy pool pool.rest
  -- Sending leaves none that wait, and there are enough steps behind it for all ends.
  have hdone : LeadsTo (fun _ => True) (pool.join copy) fun next _ =>
      next.waiting = [] ∧ next.answered = [] := by
    rw [CopyPool.join, rest, run_append]
    refine (run_send_all copy pool).bind fun next => ?_
    apply LeadsTo.of_forall
    rintro state ⟨hwaiting, hanswered⟩ _ rfl
    rw [← hanswered, run_finish_all]
    exact ⟨hwaiting, rfl⟩
  intro state h
  obtain ⟨made, hinv, htargets, hmade⟩ := hshares state h
  obtain ⟨hwaiting, hanswered⟩ := hdone state trivial
  refine ⟨made, hinv, ?_, ?_⟩
  · rwa [hwaiting] at htargets
  · rwa [hanswered] at hmade

/-! ## Orders -/

/-- Copies that wait are sent in every order. -/
theorem exists_sending (copy : RestoreTarget → StateM σ (Except Error Unit))
    {order waiting : List RestoreTarget} (h : order.Perm waiting) :
    ∃ steps, ∀ answered ended state, ∃ made state', made.map Prod.fst = order ∧
      (CopyPool.run copy ⟨waiting, answered, ended⟩ steps).run state =
        (⟨[], answered ++ made, ended⟩, state') := by
  induction order generalizing waiting with
  | nil =>
    obtain rfl := List.nil_perm.mp h
    exact ⟨[], fun answered ended state =>
      ⟨[], state, rfl, by rw [List.append_nil]; rfl⟩⟩
  | cons target rest ih =>
    -- The copy that is to be sent next stands at some place.
    obtain ⟨place, hplace⟩ := List.getElem?_of_mem (h.subset List.mem_cons_self)
    have hrest : rest.Perm (waiting.eraseIdx place) :=
      (h.trans (perm_cons_eraseIdx hplace)).cons_inv
    obtain ⟨steps, hsteps⟩ := ih hrest
    refine ⟨.send place :: steps, fun answered ended state => ?_⟩
    rcases hcopy : (copy target).run state with ⟨result, state₁⟩
    have hstep : (CopyPool.step copy ⟨waiting, answered, ended⟩ (.send place)).run state =
        (⟨waiting.eraseIdx place, answered ++ [(target, result)], ended⟩, state₁) := by
      simp only [CopyPool.step, hplace]
      rw [StateT.run_bind, hcopy]
      rfl
    obtain ⟨made, state', hmade, hrun⟩ := hsteps (answered ++ [(target, result)]) ended state₁
    refine ⟨(target, result) :: made, state', by rw [List.map_cons, hmade], ?_⟩
    rw [CopyPool.run, StateT.run_bind, hstep]
    refine hrun.trans ?_
    rw [List.append_assoc, List.singleton_append]

/-- The copies that were answered end in every order. -/
theorem exists_finishing {order : List (RestoreTarget × Except Error Unit)}
    (h : order.Perm pool.answered) : ∃ steps, ∀ state,
      (pool.run copy steps).run state = (⟨pool.waiting, [], pool.ended ++ order⟩, state) := by
  obtain ⟨waiting, answered, ended⟩ := pool
  induction order generalizing answered ended with
  | nil =>
    obtain rfl := List.nil_perm.mp h
    exact ⟨[], fun state => by rw [List.append_nil]; rfl⟩
  | cons copied rest ih =>
    -- The copy that is to end next stands at some place.
    obtain ⟨place, hplace⟩ := List.getElem?_of_mem (h.subset List.mem_cons_self)
    have hrest : rest.Perm (answered.eraseIdx place) :=
      (h.trans (perm_cons_eraseIdx hplace)).cons_inv
    obtain ⟨steps, hsteps⟩ := ih (answered.eraseIdx place) (ended ++ [copied]) hrest
    refine ⟨.finish place :: steps, fun state => ?_⟩
    have hstep : (step copy ⟨waiting, answered, ended⟩ (.finish place)).run state =
        (⟨waiting, answered.eraseIdx place, ended ++ [copied]⟩, state) := by
      simp only [step, hplace]
      rfl
    rw [CopyPool.run, StateT.run_bind, hstep]
    refine (hsteps state).trans ?_
    rw [List.append_assoc, List.singleton_append]

end CopyPool

end BucketCare

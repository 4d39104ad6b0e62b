import BucketCare.Store.Client

/-!
# The run of a talk

A talk that is put together from others runs as they run one after the other. So a talk that nothing
interrupts is an exchange, and what holds of exchanges holds of it.

## Main results

* `Talk.run_bind`, `Talk.run_outcome` — the run of a talk, by the runs of its parts
* `Talk.run_request` — the run of one request
-/

namespace BucketCare.Talk

variable {σ α β : Type} (link : Link σ)

/-- One talk runs, and then the other. -/
theorem run_bind (talk : Talk α) (next : α → Talk β) :
    (talk >>= next).run link = talk.run link >>= fun a => (next a).run link := by
  induction talk with
  | done result =>
    cases result with
    | ok a => rfl
    | error e => rfl
  | ask request reply ih =>
    apply ExceptT.ext
    rw [ExceptT.run_bind]
    change (do let answer ← link.send request; ((reply answer >>= next).run link).run) = _
    change _ = (do let answer ← link.send request; ((reply answer).run link).run) >>= _
    rw [bind_assoc]
    refine congrArg _ (funext fun answer => ?_)
    rw [ih, ExceptT.run_bind]

/-- The outcome of a talk is looked at when it has run. -/
theorem run_outcome (talk : Talk α) : talk.outcome.run link = (talk.run link).outcome := by
  induction talk with
  | done result => rfl
  | ask request reply ih =>
    apply ExceptT.ext
    change (do let answer ← link.send request; ((reply answer).outcome.run link).run) = _
    change _ = ((do let answer ← link.send request; ((reply answer).run link).run) >>= _)
    rw [bind_assoc]
    exact congrArg _ (funext fun answer => by rw [ih]; rfl)

/-- One request. -/
theorem run_request (client : Client σ) (request : Request) :
    (Talk.request request).run client.link = client.request request := by
  apply ExceptT.ext
  change client.link.send request >>= _ = client.link.send request >>= _
  refine congrArg _ (funext fun answer => ?_)
  cases answer <;> rfl

end BucketCare.Talk

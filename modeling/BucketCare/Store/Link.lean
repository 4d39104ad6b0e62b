import BucketCare.Instant
import BucketCare.Store.Request

/-!
# The link to a store

What carries requests to a store and brings back an answer or a fault. A link has a state of its
own, so that stores, scripts and logs are all links.

## Main definitions

* `Fault` — how a request can fail, and `Fault.toError`, the failure that stands for it
* `Link` — what carries requests
* `Link.down` — the link that reaches nothing
* `Link.recorded` — a link with a list of the requests it carried
* `Exchange` — a computation that sends requests and may fail
* `Talk` — such a computation request by request, and `Talk.run`, the whole of it over a link
-/

namespace BucketCare

/-- How a request can fail. -/
inductive Fault where
  /-- No answer came in time. -/
  | timeout
  /-- The store was not reached, for a reason that is described. -/
  | unreachable (description : String)
  /-- The store answered with an error: its status, its code and its message if it gave them, the
  region it named if it did, and a description of the answer. -/
  | answered (status : Nat) (code message region : Option String) (description : String)
  deriving DecidableEq, Repr

namespace Fault

/-- The failure that stands for a fault. Its text is the message of the answer behind its code, or
else the description. -/
def toError : Fault → Error
  | timeout => .timeout
  | unreachable description => .ofService none none description
  | answered status code message _ description =>
    let text := match message with
      | some message => code.getD "ServiceError" ++ ": " ++ message
      | none => description
    .ofService code (some status) text

/-- The region that an answer names. -/
def region? : Fault → Option String
  | answered _ _ _ (some region) _ => if region.isEmpty then none else some region
  | _ => none

end Fault

/-- What carries requests to a store. -/
structure Link (σ : Type) where
  send : (request : Request) → StateM σ (Except Fault request.Reply)
  /-- The time that has passed on the link. -/
  clock : σ → Elapsed

namespace Link

/-- The link that reaches nothing. -/
def down {σ : Type} (description : String) : Link σ where
  send _ := return .error (.unreachable description)
  clock _ := ⟨0⟩

/-- A link with a list of the requests it carried, the first of them first. -/
def recorded {σ : Type} (link : Link σ) : Link (List Request × σ) where
  send request := fun (sent, state) =>
    let (reply, state) := (link.send request).run state
    (reply, (sent ++ [request], state))
  clock state := link.clock state.2

end Link

/-- A computation that sends requests and may fail. -/
abbrev Exchange (σ α : Type) := ExceptT Error (StateM σ) α

namespace Exchange

variable {σ α : Type}

/-- The outcome of a computation, whether it failed or not. -/
def outcome (exchange : Exchange σ α) : Exchange σ (Except Error α) :=
  ExceptT.mk (do return .ok (← exchange.run))

/-- A computation that has come to its outcome. -/
def ofExcept (result : Except Error α) : Exchange σ α := ExceptT.mk (pure result)

/-- What the file system has answered. -/
def ofIo (result : Except IoError α) : Exchange σ α := ofExcept (result.mapError .io)

end Exchange

/-- A computation that sends requests and may fail, request by request: it has come to its outcome,
or it sends a request and goes on by what that is answered with. Several of them can take turns. -/
inductive Talk (α : Type) where
  /-- There is no more to send. -/
  | done (outcome : Except Error α)
  /-- A request is to be sent next. -/
  | ask (request : Request) (next : Except Fault request.Reply → Talk α)

namespace Talk

variable {σ α β : Type}

/-- One computation and then another, unless the first has failed. -/
def bind : Talk α → (α → Talk β) → Talk β
  | done (.ok a), next => next a
  | done (.error e), _ => done (.error e)
  | ask request reply, next => ask request fun answer => (reply answer).bind next

instance : Monad Talk where
  pure a := done (.ok a)
  bind := bind

/-- A failure. -/
def fail (error : Error) : Talk α := done (.error error)

/-- A computation that has come to its outcome. -/
def ofExcept (result : Except Error α) : Talk α := done result

/-- What the file system has answered. -/
def ofIo (result : Except IoError α) : Talk α := ofExcept (result.mapError .io)

/-- One request. -/
def request (request : Request) : Talk request.Reply :=
  ask request fun reply => done (reply.mapError Fault.toError)

/-- The outcome of a computation, whether it failed or not. -/
def outcome : Talk α → Talk (Except Error α)
  | done result => done (.ok result)
  | ask request next => ask request fun reply => (next reply).outcome

/-- The whole of a computation over a link. -/
def run (link : Link σ) : Talk α → Exchange σ α
  | done result => .ofExcept result
  | ask request next => ExceptT.mk (do
    let reply ← link.send request
    (run link (next reply)).run)

end Talk

end BucketCare

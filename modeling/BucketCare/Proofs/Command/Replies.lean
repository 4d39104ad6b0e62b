import BucketCare.Proofs.Command.Leading

/-!
# Stores that reply

What a command does beside its listing is easiest to say where the listing itself goes well. Here
are the rules for that: a source whose pages make up a listing is read to its end, reply by reply,
and a source that gives a page at every request is read without a failure. What the other requests
come to is kept on record with each of them, so that a log shows both what was sent and how it
ended.

## Main definitions

* `RequestLog`, `Link.logged` — the requests that were sent, with what became of them
* `MakeListing` — pages that make up a listing
* `Command.AwaitsReply`, `Command.HandedReply` — what holds before a page is asked for, and when it
  was handed out
* `Source.Unfailing` — a source that gives a page at every request

## Main results

* `Command.visiting_replies` — a listing is read to its end
* `Source.Unfailing.walk` — a listing is read without a failure
-/

namespace BucketCare

/-! ## Requests on record -/

/-- The requests that were sent, each with the fault that it ended in if it did. -/
abbrev RequestLog := List (Request × Option Fault)

/-- The fault of a reply, if it is one. -/
def Fault.of? {α : Type} : Except Fault α → Option Fault
  | .ok _ => none
  | .error fault => some fault

/-- How an operation ends that only has to be answered. -/
def endOf : Option Fault → Except Error Unit
  | none => .ok ()
  | some fault => .error fault.toError

theorem mapError_eq_endOf (answer : Except Fault Unit) :
    answer.mapError Fault.toError = endOf (Fault.of? answer) := by
  cases answer <;> rfl

theorem findSome?_cons_or {α β : Type} (f : α → Option β) (a : α) (rest : List α) :
    (a :: rest).findSome? f = (f a).or (rest.findSome? f) := by
  rw [List.findSome?_cons]
  cases f a <;> rfl

/-- A link with a log of the requests it carried. -/
def Link.logged {σ : Type} (link : Link σ) : Link (RequestLog × σ) where
  send request := fun (log, state) =>
    let (reply, state) := (link.send request).run state
    (reply, (log ++ [(request, Fault.of? reply)], state))
  clock state := link.clock state.2

/-- A client with a log of the requests it has sent. -/
def Client.logged {σ : Type} (client : Client σ) : Client (RequestLog × σ) :=
  { client with link := client.link.logged }

/-- The same machine with a log of the requests its link carried. -/
def Command.Machine.logged {σ : Type} (machine : Command.Machine σ) :
    Command.Machine (RequestLog × σ) :=
  { machine with link := machine.link.logged }

theorem Client.connect_logged {σ : Type} (machine : Command.Machine σ) (tree : FileTree)
    (settings : Settings) :
    connect machine.logged.link machine.logged.around tree settings =
      (connect machine.link machine.around tree settings).logged := by
  simp only [connect, logged, Command.Machine.logged]

section Requests

variable {σ : Type} {link : Link σ} {client : Client (RequestLog × σ)}

theorem Link.logged_run {request : Request} {answer : Except Fault request.Reply} {state state' : σ}
    (h : (link.send request).run state = (answer, state')) (log : RequestLog) :
    (link.logged.send request).run (log, state) =
      (answer, (log ++ [(request, Fault.of? answer)], state')) := by
  obtain ⟨rfl, rfl⟩ := Prod.ext_iff.mp h
  rfl

/-- A request of a client ends as the link says, and is put on record. -/
theorem Client.request_logged (hlink : client.link = link.logged) {request : Request}
    {answer : Except Fault request.Reply} {state state' : σ}
    (h : (link.send request).run state = (answer, state')) (log : RequestLog) :
    (client.request request).run.run (log, state) =
      (answer.mapError Fault.toError, (log ++ [(request, Fault.of? answer)], state')) := by
  rw [Client.request_run, hlink, Link.logged_run h]

end Requests

/-! ## Reading to the end -/

section Reading

variable {σ ρ α β τ : Type}

/-- Pages that make up a listing: each of them goes on but the last. -/
def MakeListing : List (Page α τ) → Prop
  | [] => False
  | [last] => last.continues = false
  | page :: next :: rest => page.continues = true ∧ MakeListing (next :: rest)

instance MakeListing.decidable : DecidablePred (MakeListing (α := α) (τ := τ))
  | [] => .isFalse id
  | [last] => inferInstanceAs (Decidable (last.continues = false))
  | page :: next :: rest =>
    have := MakeListing.decidable (next :: rest)
    inferInstanceAs (Decidable (page.continues = true ∧ MakeListing (next :: rest)))

namespace Command

/-- Some replies are still to come that make up a listing. They are what runs out: each request uses
up one of them. -/
def AwaitsReply (pageOf : ρ → Page α τ) (unread : List ρ → β → σ → Prop) (left : Nat)
    (_ : Option τ) (b : β) (state : σ) : Prop :=
  ∃ rest, left = rest.length ∧ MakeListing (rest.map pageOf) ∧ unread rest b state

/-- The page of a reply was handed out, and those behind it are still to come. -/
def HandedReply (pageOf : ρ → Page α τ) (shown : ρ → List ρ → β → σ → Prop) (left : Nat)
    (page : Page α τ) (b : β) (state : σ) : Prop :=
  ∃ reply rest, left = rest.length ∧ page = pageOf reply ∧
    MakeListing ((reply :: rest).map pageOf) ∧ shown reply rest b state

end Command

variable {source : Source σ α τ} {visit : α → β → StateM σ (Option Error × Visit β)}
variable {pageOf : ρ → Page α τ} (unread : List ρ → β → σ → Prop)
variable (shown : ρ → List ρ → β → σ → Prop)

/-- A listing is read to its end when each request is answered with the next of some replies, and
the visitor of their pages goes on. `unread` holds before a request, of the replies still to come,
and `shown` of a reply and those behind it. -/
theorem Command.visiting_replies
    (hsource : ∀ reply rest token b, LeadsTo (unread (reply :: rest) b) (source token)
      fun answer state => answer = .ok (pageOf reply) ∧ shown reply rest b state)
    (hvisit : ∀ reply rest b, LeadsTo (shown reply rest b) (visit (pageOf reply).content b)
      fun answer state => ∃ b', answer = (none, .more b') ∧ unread rest b' state)
    {replies : List ρ} (hlisting : MakeListing (replies.map pageOf))
    (hcount : replies.length ≤ Run.allPages) (b : β) :
    LeadsTo (unread replies b) (visiting source visit b)
      fun visited state => visited.failure = none ∧ unread [] visited.state state := by
  have hzero : ∀ token b state, ¬ AwaitsReply pageOf unread 0 token b state := by
    rintro token b state ⟨rest, hrest, hlisting, -⟩
    rw [List.eq_nil_of_length_eq_zero hrest.symm] at hlisting
    exact hlisting
  have hfetch : ∀ n token b, LeadsTo (AwaitsReply pageOf unread n token b) (source token)
      fun answer state => Settles (fun _ => False ∧ AwaitsReply pageOf unread n token b state)
        (fun page => ∃ m < n, HandedReply pageOf shown m page b state) answer := by
    intro n token b
    apply LeadsTo.of_forall
    rintro state ⟨rest, rfl, hlisting, hunread⟩
    cases rest with
    | nil => exact hlisting.elim
    | cons reply rest =>
      refine ((hsource reply rest token b).at_state hunread).mono ?_
      rintro _ state' ⟨rfl, hshown⟩
      exact ⟨rest.length, Nat.lt_succ_self _, reply, rest, rfl, rfl, hlisting, hshown⟩
  have hpage : ∀ n page b, LeadsTo (HandedReply pageOf shown n page b) (visit page.content b)
      fun answer state => answer.1.elim
        (answer.2.Goes (unread [] · state) fun b' =>
          if page.continues then AwaitsReply pageOf unread n page.next b' state
          else unread [] b' state)
        fun _ => False := by
    intro n page b
    apply LeadsTo.of_forall
    rintro state ⟨reply, rest, rfl, rfl, hlisting, hshown⟩
    refine ((hvisit reply rest b).at_state hshown).mono ?_
    rintro _ state' ⟨b', rfl, hunread⟩
    change if (pageOf reply).continues then _ else _
    -- The pages make up a listing, so this one goes on exactly if replies are left.
    cases rest with
    | nil =>
      have hlast : (pageOf reply).continues = false := hlisting
      rwa [hlast]
    | cons next rest =>
      obtain ⟨hcontinues, hrest⟩ := hlisting
      rw [hcontinues]
      exact ⟨next :: rest, rfl, hrest, hunread⟩
  have hstart : ∀ state, unread replies b state →
      AwaitsReply pageOf unread replies.length none b state :=
    fun _ hunread => ⟨replies, rfl, hlisting, hunread⟩
  refine ((visiting_leads (AwaitsReply pageOf unread) (HandedReply pageOf shown) (unread [])
    hzero hfetch hpage hcount b).weaken hstart).mono ?_
  rintro ⟨failure, last, pages⟩ state hanswer
  cases failure with
  | some e => exact hanswer.elim
  | none => exact ⟨rfl, hanswer⟩

/-- A source gives a page at every request, and keeps a property of its state. -/
def Source.Unfailing (inv : σ → Prop) (source : Source σ α τ) : Prop :=
  ∀ token, Keeps inv (fun answer => ∃ page, answer = .ok page) (source token)

namespace Source.Unfailing

variable {inv : σ → Prop}

theorem fetch (h : source.Unfailing inv) (token : Option τ) :
    Keeps inv (fun answer => ∃ page, answer.1 = .ok page) (Cursor.fetch source token) := by
  unfold Cursor.fetch
  refine (h token).bind ?_
  rintro _ ⟨page, rfl⟩
  exact .pure ⟨page, rfl⟩

theorem start (h : source.Unfailing inv) :
    Keeps inv (fun answer => ∃ cursor, answer = .ok cursor) (Cursor.start source) := by
  unfold Cursor.start
  refine (h.fetch none).bind ?_
  rintro ⟨_, tries⟩ ⟨page, rfl⟩
  exact .pure ⟨_, rfl⟩

/-- A visitor that goes on is never stopped by the source. -/
theorem walk (h : source.Unfailing inv) {kept : β → Prop}
    (hvisit : ∀ content b, kept b →
      Keeps inv (fun answer => ∃ b', answer = (none, .more b') ∧ kept b') (visit content b))
    (budget : Nat) (cursor : Cursor α τ) {b : β} (hb : kept b) :
    Keeps inv (fun answer => answer.1 = none ∧ kept answer.2.1)
      (cursor.walk source visit budget b) := by
  induction budget generalizing cursor b with
  | zero => exact .pure ⟨rfl, hb⟩
  | succ budget ih =>
    rw [Cursor.walk]
    split
    next => exact .pure ⟨rfl, hb⟩
    next hnext =>
      have hone : Keeps inv (fun answer => ∃ page, answer.1 = .ok page) (cursor.next source) := by
        unfold Cursor.next
        cases hwaiting : cursor.waiting with
        | some page => exact .pure ⟨page, rfl⟩
        | none =>
          have hmore : cursor.more = true := by simpa [Cursor.hasNext, hwaiting] using hnext
          simp only [hmore, Bool.not_true, Bool.false_eq_true, if_false]
          refine (h.fetch cursor.token).bind ?_
          rintro ⟨_, tries⟩ ⟨page, rfl⟩
          exact .pure ⟨page, rfl⟩
      refine hone.bind ?_
      rintro ⟨_, cursor'⟩ ⟨page, rfl⟩
      refine (hvisit page.content b hb).bind ?_
      rintro _ ⟨b', rfl, hb'⟩
      exact ih cursor' hb'

end Source.Unfailing

end Reading

end BucketCare

import BucketCare.Proofs.Command.Keeping
import BucketCare.Proofs.Deletion.Batches

/-!
# What an action comes to

`Keeps` is about one property of a state and one of an answer. The rules here are about properties
that relate the two, and that change on the way: what waits in a batcher together with what was
deleted, or how far a listing was read together with what was made of it.

Which failures may happen is a parameter. With all failures allowed the rules say what holds of a
run that succeeds; with none allowed they say in addition that it does succeed.

## Main definitions

* `LeadsTo` — an action leads from states with a property to answers and states with another
* `Settles` — an answer has a property, or is a failure that may happen
* `Deleter.Sends` — what a deleter does with one more batch
* `Batcher.Shares` — how a batcher stands behind the candidates that were pushed
* `Command.visiting` — reading a listing, as an action on the state of the link alone
* `Command.Run.LeadsTo` — what a command comes to when it does not fail

## Main results

* `Batcher.Shares.push`, `Batcher.Shares.finish` — candidates are sent page by page
* `Command.visiting_leads` — reading a listing, by one fetch and one visit at a time
-/

namespace BucketCare

/-- From the states with a property, an action comes to answers and states with another. -/
def LeadsTo {σ α : Type} (pre : σ → Prop) (action : StateM σ α) (post : α → σ → Prop) : Prop :=
  ∀ state, pre state → post (action.run state).1 (action.run state).2

namespace LeadsTo

variable {σ α β : Type} {pre : σ → Prop} {post : α → σ → Prop} {goal : β → σ → Prop}

theorem pure {a : α} (h : ∀ state, pre state → post a state) :
    LeadsTo pre (Pure.pure a) post := h

theorem bind {action : StateM σ α} {next : α → StateM σ β} (h : LeadsTo pre action post)
    (hnext : ∀ a, LeadsTo (post a) (next a) goal) : LeadsTo pre (action >>= next) goal :=
  fun state hpre => hnext _ _ (h state hpre)

theorem mono {action : StateM σ α} {other : α → σ → Prop} (h : LeadsTo pre action post)
    (himp : ∀ a state, post a state → other a state) : LeadsTo pre action other :=
  fun state hpre => himp _ _ (h state hpre)

theorem weaken {action : StateM σ α} {other : σ → Prop} (h : LeadsTo pre action post)
    (himp : ∀ state, other state → pre state) : LeadsTo other action post :=
  fun state hother => h state (himp state hother)

/-- What is known of the first state may be used wherever the action is. -/
theorem of_forall {action : StateM σ α}
    (h : ∀ state, pre state → LeadsTo (· = state) action post) : LeadsTo pre action post :=
  fun state hpre => h state hpre state rfl

theorem at_state {action : StateM σ α} (h : LeadsTo pre action post) {state : σ}
    (hpre : pre state) : LeadsTo (· = state) action post := by
  rintro _ rfl
  exact h _ hpre

end LeadsTo

/-- An answer has a property, or is a failure that may happen. -/
def Settles {α : Type} (failed : Error → Prop) (done : α → Prop) : Except Error α → Prop
  | .ok a => done a
  | .error e => failed e

/-- A visitor stops with one property, or goes on with another. -/
def Visit.Goes {β : Type} (stopped going : β → Prop) : Visit β → Prop
  | .stop b => stopped b
  | .more b => going b

/-! ## Deleting in pages -/

section Deleting

variable {σ : Type} {inv : List (List Candidate) → σ → Prop} {failed : Error → Prop}
variable {deleter : Deleter σ} {batcher : Batcher} {size : Nat} {candidates : List Candidate}

/-- A deleter that was given some batches is given one more, unless that fails; a batch holds no
more than the keys of one request. -/
def Deleter.Sends (inv : List (List Candidate) → σ → Prop) (failed : Error → Prop)
    (deleter : Deleter σ) : Prop :=
  ∀ batches batch, batch.length ≤ maxPageSize →
    LeadsTo (inv batches) (deleter batch) fun answer state =>
      Settles failed
        (fun outcome =>
          (outcome.toError batch.length).elim (inv (batches ++ [batch]) state) failed)
        answer

/-- The state and a batcher agree with the candidates that were pushed: the state with the batches
that were sent, and the batcher with those that wait. -/
def Batcher.Shares (inv : List (List Candidate) → σ → Prop) (size : Nat)
    (candidates : List Candidate) (batcher : Batcher) (state : σ) : Prop :=
  ∃ batches, inv batches state ∧ Batcher.Batched size candidates batches batcher ∧
    batcher.summary.candidates = candidates.length ∧ batcher.summary.flushes = batches.length

namespace Batcher

theorem flush_leads (hdeleter : deleter.Sends inv failed) (batches : List (List Candidate))
    (hroom : batcher.pending.length ≤ maxPageSize) :
    LeadsTo (inv batches) (batcher.flush deleter) fun answer state =>
      Settles failed
        (fun _ => inv (batches ++ [batcher.pending]) state ∧
          ∃ deleted, answer.2 = ⟨batcher.pageSize, [],
            ⟨batcher.summary.candidates, deleted, batcher.summary.flushes + 1⟩⟩)
        answer.1 := by
  unfold flush
  refine (hdeleter batches batcher.pending hroom).bind ?_
  intro answer
  cases answer with
  | error e => exact .pure fun _ h => h
  | ok outcome =>
    apply LeadsTo.pure
    intro state hstate
    have hsettled : (outcome.toError batcher.pending.length).elim
      (inv (batches ++ [batcher.pending]) state) failed := hstate
    cases herror : outcome.toError batcher.pending.length with
    | some e =>
      rw [herror] at hsettled
      exact hsettled
    | none =>
      rw [herror] at hsettled
      exact ⟨hsettled, _, rfl⟩

/-- A batcher is made for allowed page sizes only. -/
theorem of_new {start : Batcher} (h : new size = .ok start) :
    start = ⟨size, [], ⟨0, 0, 0⟩⟩ ∧ 1 ≤ size ∧ size ≤ maxPageSize := by
  unfold new checkPageSize at h
  split at h
  · cases h
  next hallowed => exact ⟨(Except.ok.inj h).symm, by omega, by omega⟩

/-- Nothing was pushed into a batcher that is new. -/
theorem shares_new (hpos : 1 ≤ size) {state : σ} (hinv : inv [] state) :
    Shares inv size [] ⟨size, [], ⟨0, 0, 0⟩⟩ state :=
  ⟨[], hinv, ⟨rfl, rfl, hpos, nofun⟩, rfl, rfl⟩

variable (batcher candidates)

/-- One more candidate is shared out. -/
theorem Shares.push (hdeleter : deleter.Sends inv failed) (hmax : size ≤ maxPageSize)
    (candidate : Candidate) :
    LeadsTo (Shares inv size candidates batcher) (batcher.push deleter candidate)
      fun answer state =>
        Settles failed (fun _ => Shares inv size (candidates ++ [candidate]) answer.2 state)
          answer.1 := by
  apply LeadsTo.of_forall
  rintro state ⟨batches, hinv, hbatched, hcount, hflushes⟩
  have hlength : (candidates ++ [candidate]).length = candidates.length + 1 := by simp
  by_cases hroom : batcher.pending.length + 1 < batcher.pageSize
  · rintro _ rfl
    rw [push_of_room hroom]
    refine ⟨batches, hinv, hbatched.hold candidate (hbatched.pageSize_eq ▸ hroom), ?_, hflushes⟩
    rw [hlength, ← hcount]
    rfl
  · have hpage := Nat.le_of_not_lt hroom
    have hsmall : (batcher.hold candidate).pending.length ≤ maxPageSize := by
      have hless := hbatched.pending_lt
      rw [hold_pending, List.length_append, List.length_singleton]
      omega
    rw [push_of_full hpage]
    refine ((flush_leads hdeleter batches hsmall).at_state hinv).mono ?_
    rintro ⟨result, batcher'⟩ state' hsettled
    cases result with
    | error e => exact hsettled
    | ok _ =>
      obtain ⟨hinv', deleted, rfl⟩ := hsettled
      refine ⟨_, hinv', hbatched.send candidate (hbatched.pageSize_eq ▸ hpage) _, ?_, ?_⟩
      · rw [hlength, ← hcount]
        rfl
      · rw [List.length_append, ← hflushes]
        rfl

/-- What still waits is sent, and then all candidates were sent, in pages. -/
theorem Shares.finish (hdeleter : deleter.Sends inv failed) (hmax : size ≤ maxPageSize) :
    LeadsTo (Shares inv size candidates batcher) (batcher.finish deleter) fun answer state =>
      Settles failed
        (fun summary => inv (inPages size candidates) state ∧
          summary.candidates = candidates.length ∧
          summary.flushes = (inPages size candidates).length)
        answer := by
  apply LeadsTo.of_forall
  rintro state ⟨batches, hinv, hbatched, hcount, hflushes⟩
  rw [hbatched.inPages_eq, remainder]
  by_cases hempty : batcher.pending = []
  · rintro _ rfl
    rw [finish_of_empty hempty, if_pos hempty, List.append_nil]
    exact ⟨hinv, hcount, hflushes⟩
  · have hsome : ¬ batcher.pending.isEmpty = true := by simpa using hempty
    have hsmall := Nat.le_trans (Nat.le_of_lt hbatched.pending_lt) hmax
    rw [if_neg hempty, Batcher.finish, if_neg hsome]
    refine ((flush_leads hdeleter batches hsmall).at_state hinv).bind ?_
    rintro ⟨result, batcher'⟩
    cases result with
    | error e => exact .pure fun _ h => h
    | ok _ =>
      apply LeadsTo.pure
      rintro state' ⟨hinv', deleted, rfl⟩
      exact ⟨hinv', hcount, by simp [hflushes]⟩

end Batcher

end Deleting

/-! ## Reading a listing -/

section Reading

variable {σ α β τ : Type} {source : Source σ α τ} {failed : Error → Prop}

/-- A fetch is tried again only in a state that is as good as before. -/
theorem Cursor.fetch_leads {token : Option τ} {pre : σ → Prop} {post : Page α τ → σ → Prop}
    (h : LeadsTo pre (source token) fun answer state =>
      Settles (fun e => failed e ∧ pre state) (post · state) answer) :
    LeadsTo pre (Cursor.fetch source token) fun answer state =>
      Settles failed (post · state) answer.1 := by
  unfold Cursor.fetch
  refine h.bind ?_
  intro answer
  cases answer with
  | ok page => exact .pure fun _ hpage => hpage
  | error e =>
    dsimp only
    split
    · refine (h.weaken fun _ hagain => hagain.2).bind ?_
      intro again
      cases again with
      | ok page => exact .pure fun _ hpage => hpage
      | error e => exact .pure fun _ he => he.1
    · exact .pure fun _ he => he.1

namespace Command

/-- Reading a listing from its start and handing its pages to a visitor. -/
def visiting (source : Source σ α τ) (visit : α → β → StateM σ (Option Error × Visit β))
    (start : β) : StateM σ (Run.Visited β) := do
  match ← Cursor.start source with
  | .error e => return ⟨some e, start, 0⟩
  | .ok cursor =>
    let (failure, state, cursor) ← cursor.walk source visit Run.allPages start
    return ⟨failure, state, cursor.returned⟩

theorem visitPages_eq (source : Source σ α τ)
    (visit : α → β → StateM σ (Option Error × Visit β)) (start : β) :
    Run.visitPages source visit start = Run.onLink (visiting source visit start) := rfl

variable {visit : α → β → StateM σ (Option Error × Visit β)}
variable (unread : Nat → Option τ → β → σ → Prop) (shown : Nat → Page α τ → β → σ → Prop)
variable (done : β → σ → Prop)

/-- What is true where a cursor stands: the page that waits is shown, or a fetch comes next, or all
is done. -/
def Standing (n : Nat) (cursor : Cursor α τ) (b : β) (state : σ) : Prop :=
  match cursor.waiting with
  | some page =>
    cursor.token = page.next ∧ cursor.more = page.continues ∧ ∃ m < n, shown m page b state
  | none => if cursor.more then unread n cursor.token b state else done b state

/-- A page is visited, and then what is behind it is read. -/
theorem visited_leads {n : Nat} {page : Page α τ} {b : β} (next : Cursor α τ)
    {walk : β → StateM σ (Option Error × β × Cursor α τ)} (hwaiting : next.waiting = none)
    (htoken : next.token = page.next) (hmore : next.more = page.continues)
    (hvisit : LeadsTo (shown n page b) (visit page.content b) fun answer state =>
      answer.1.elim
        (answer.2.Goes (done · state) fun b' =>
          if page.continues then unread n page.next b' state else done b' state)
        failed)
    (hwalk : ∀ b', LeadsTo (Standing unread shown done n next b') (walk b') fun answer state =>
      answer.1.elim (done answer.2.1 state) failed) :
    LeadsTo (shown n page b) (do
      match ← visit page.content b with
      | (some e, visited) => return (some e, visited.state, next)
      | (none, .stop b) => return (none, b, next)
      | (none, .more b) => walk b)
      fun answer state => answer.1.elim (done answer.2.1 state) failed := by
  refine hvisit.bind ?_
  rintro ⟨failure, outcome⟩
  cases failure with
  | some e => exact .pure fun _ h => h
  | none =>
    cases outcome with
    | stop b' => exact .pure fun _ h => h
    | more b' =>
      refine (hwalk b').weaken ?_
      intro state hgoes
      simp only [Standing, hwaiting, htoken, hmore]
      exact hgoes

section Steps

variable (hzero : ∀ token b state, ¬ unread 0 token b state)
variable (hfetch : ∀ n token b, LeadsTo (unread n token b) (source token) fun answer state =>
  Settles (fun e => failed e ∧ unread n token b state)
    (fun page => ∃ m < n, shown m page b state) answer)
variable (hvisit : ∀ n page b, LeadsTo (shown n page b) (visit page.content b)
  fun answer state => answer.1.elim
    (answer.2.Goes (done · state) fun b' =>
      if page.continues then unread n page.next b' state else done b' state)
    failed)
include hzero hfetch hvisit

/-- From where a cursor stands a listing is read to its end, when there are no more pages than the
budget allows. -/
theorem walk_leads (budget : Nat) {n : Nat} (hn : n ≤ budget) (cursor : Cursor α τ) (b : β) :
    LeadsTo (Standing unread shown done n cursor b) (cursor.walk source visit budget b)
      fun answer state => answer.1.elim (done answer.2.1 state) failed := by
  -- Every page that is visited lowers the bound, so the bound is zero when the budget is.
  induction budget generalizing n cursor b with
  | zero =>
    apply LeadsTo.pure
    intro state hstanding
    obtain rfl := Nat.le_zero.mp hn
    unfold Standing at hstanding
    split at hstanding
    · obtain ⟨-, -, m, hm, -⟩ := hstanding
      exact absurd hm (Nat.not_lt_zero m)
    · split at hstanding
      · exact absurd hstanding (hzero _ _ _)
      · exact hstanding
  | succ budget ih =>
    rw [Cursor.walk]
    unfold Cursor.hasNext Cursor.next
    cases hwaiting : cursor.waiting with
    | some page =>
      apply LeadsTo.of_forall
      intro state hstanding
      simp only [Standing, hwaiting] at hstanding
      obtain ⟨htoken, hmore, m, hm, hshown⟩ := hstanding
      let next : Cursor α τ := { cursor with waiting := none, returned := cursor.returned + 1 }
      have hnext : m ≤ budget := by omega
      exact (visited_leads unread shown done next rfl htoken hmore (hvisit m page b)
        (ih hnext next)).at_state hshown
    | none =>
      cases hmore : cursor.more with
      | false =>
        apply LeadsTo.pure
        intro state hstanding
        simpa [Standing, hwaiting, hmore] using hstanding
      | true =>
        have hunread : ∀ state, Standing unread shown done n cursor b state →
            unread n cursor.token b state := by
          intro state hstanding
          simpa [Standing, hwaiting, hmore] using hstanding
        simp only [Option.isSome_none, Bool.or_true, Bool.not_true, Bool.false_eq_true, if_false]
        rw [bind_assoc]
        refine ((Cursor.fetch_leads (hfetch n cursor.token b)).weaken hunread).bind ?_
        rintro ⟨answer, tries⟩
        cases answer with
        | error e => exact .pure fun _ he => he
        | ok page =>
          apply LeadsTo.of_forall
          rintro state ⟨m, hm, hshown⟩
          have hnext : m ≤ budget := by omega
          exact (visited_leads unread shown done _ rfl rfl rfl (hvisit m page b)
            (ih hnext _)).at_state hshown

/-- A listing is read by one fetch and one visit at a time. `unread` holds before a fetch, and says
how many pages there still are at most; `shown` holds of a page that was fetched. -/
theorem visiting_leads {n : Nat} (hn : n ≤ Run.allPages) (b : β) :
    LeadsTo (unread n none b) (visiting source visit b) fun visited state =>
      visited.failure.elim (done visited.state state) failed := by
  unfold visiting Cursor.start
  rw [bind_assoc]
  refine (Cursor.fetch_leads (hfetch n none b)).bind ?_
  rintro ⟨answer, tries⟩
  cases answer with
  | error e => exact .pure fun _ he => he
  | ok page =>
    dsimp only
    rw [pure_bind]
    have hwalk := walk_leads unread shown done hzero hfetch hvisit Run.allPages hn
    refine ((hwalk _ b).weaken ?_).bind ?_
    · intro state hshown
      exact ⟨rfl, rfl, hshown⟩
    rintro ⟨failure, state, cursor⟩
    exact .pure fun _ h => h

end Steps

end Command

end Reading

/-! ## Requests -/

/-- A request ends as the link says. -/
theorem Client.request_run {σ : Type} (client : Client σ) (request : Request) (state : σ) :
    (client.request request).run.run state =
      (((client.link.send request).run state).1.mapError Fault.toError,
        ((client.link.send request).run state).2) := by
  unfold Client.request
  rw [ExceptT.run_mk, StateT.run_bind]
  obtain ⟨answer, state'⟩ := (client.link.send request).run state
  cases answer <;> rfl

/-! ## Commands -/

namespace Command.Run

variable {σ α β : Type} {pre inv : σ → Prop} {post : α → σ → Prop}

/-- From states of the link with a property, a command that does not fail comes to states and
answers with another. -/
def LeadsTo (pre : σ → Prop) (run : Run σ α) (post : α → σ → Prop) : Prop :=
  BucketCare.LeadsTo (fun world => pre world.link) run.run
    fun answer world => ∀ a, answer = .ok a → post a world.link

/-- What a command keeps holds when it is done. -/
theorem Keeps.leadsTo {run : Run σ α} {kept : α → Prop} (h : Run.Keeps inv kept run) :
    LeadsTo inv run fun a link => kept a ∧ inv link := by
  intro world hinv a ha
  exact ⟨(h world hinv).1 a ha, (h world hinv).2⟩

namespace LeadsTo

theorem bind {run : Run σ α} {next : α → Run σ β} {goal : β → σ → Prop} (h : LeadsTo pre run post)
    (hnext : ∀ a, LeadsTo (post a) (next a) goal) : LeadsTo pre (run >>= next) goal := by
  unfold LeadsTo
  rw [ExceptT.run_bind]
  refine BucketCare.LeadsTo.bind h ?_
  intro answer
  cases answer with
  | ok a => exact (hnext a).weaken fun _ hpost => hpost a rfl
  | error failure => exact BucketCare.LeadsTo.pure fun _ _ => nofun

/-- What a command keeps holds of what runs behind it. -/
theorem bind_of_keeps {run : Run σ α} {next : α → Run σ β} {kept : α → Prop} {goal : β → σ → Prop}
    (h : Run.Keeps inv kept run) (hnext : ∀ a, kept a → LeadsTo inv (next a) goal) :
    LeadsTo inv (run >>= next) goal :=
  h.leadsTo.bind fun a world hworld => hnext a hworld.1 world hworld.2

theorem mono {run : Run σ α} {goal : α → σ → Prop} (h : LeadsTo pre run post)
    (himp : ∀ a link, post a link → goal a link) : LeadsTo pre run goal :=
  BucketCare.LeadsTo.mono h fun _ _ hanswer a ha => himp a _ (hanswer a ha)

theorem onLink {action : StateM σ α} (h : BucketCare.LeadsTo pre action post) :
    LeadsTo pre (Run.onLink action) post := by
  intro world hpre a ha
  obtain rfl := Except.ok.inj ha
  exact h world.link hpre

theorem visitPages {τ : Type} {source : Source σ α τ}
    {visit : α → β → StateM σ (Option Error × Visit β)} {start : β} {post : Visited β → σ → Prop}
    (h : BucketCare.LeadsTo pre (visiting source visit start) post) :
    LeadsTo pre (Run.visitPages source visit start) post :=
  onLink h

/-- A command goes on when there is no failure. -/
theorem failIf (failure : Option Error) {failed : Error → Prop} :
    LeadsTo (fun link => failure.elim (inv link) failed) (Run.failIf failure) fun _ => inv := by
  cases failure with
  | some e => exact fun _ _ _ => nofun
  | none => exact fun _ hinv _ _ => hinv

end LeadsTo

/-- A command runs behind one that does not fail. -/
theorem run_bind_of_ok {run : Run σ α} {next : α → Run σ β} {world world' : World σ} {a : α}
    (h : run.run.run world = (.ok a, world')) :
    (run >>= next).run.run world = (next a).run.run world' := by
  rw [ExceptT.run_bind, StateT.run_bind, h]
  rfl

theorem run_get_bind (next : World σ → Run σ β) (world : World σ) :
    (get >>= next).run.run world = (next world).run.run world := rfl

theorem run_ofExcept_bind (a : α) (next : α → Run σ β) (world : World σ) :
    (Run.ofExcept (.ok a) >>= next).run.run world = (next a).run.run world := rfl

theorem run_settings_bind {machine : Machine σ} {path : Option String} {settings : Settings}
    {world : World σ} (next : Settings → Run σ β)
    (h : Settings.load world.files machine.around.home path = .ok settings) :
    (Run.settings machine path >>= next).run.run world = (next settings).run.run world := by
  have hsettings : (Run.settings machine path).run.run world = (.ok settings, world) := by
    rw [Run.settings, run_get_bind, h]
    rfl
  exact run_bind_of_ok hsettings

theorem run_client_bind (machine : Machine σ) (settings : Settings)
    (next : Client σ → Run σ α) (world : World σ) :
    (Run.client machine settings >>= next).run.run world =
      (next (Client.connect machine.link machine.around world.files settings)).run.run world := rfl

theorem run_printLine_bind (text : String) (next : Unit → Run σ β) (world : World σ) :
    (Run.printLine text >>= next).run.run world =
      (next ()).run.run { world with out := world.out ++ text ++ "\n" } := rfl

theorem run_print_bind (text : String) (next : Unit → Run σ β) (world : World σ) :
    (Run.print text >>= next).run.run world =
      (next ()).run.run { world with out := world.out ++ text } := rfl

theorem run_onLink_bind (action : StateM σ α) (next : α → Run σ β) (world : World σ) :
    (Run.onLink action >>= next).run.run world =
      (next (action.run world.link).1).run.run { world with link := (action.run world.link).2 } :=
  rfl

end Command.Run

end BucketCare

import BucketCare.Command.World
import BucketCare.Deletion.Batcher

/-!
# What commands keep

An action keeps a property of the state it works on, whatever it finds there, and what it answers
has a property of its own. The rules here follow how actions are put together: pages are read from
a source and handed to a visitor, candidates go through a batcher to a deleter, and a command does
these on the state of its link while it prints and writes files.

## Main definitions

* `Keeps` — an action keeps a property of the state and answers with another
* `Source.Gives`, `Cursor.Holds` — the pages of a source, and of a listing that is read, have a
  property
* `Deleter.Takes`, `Batcher.Holds` — a deleter keeps a property for the candidates that are allowed,
  and only such candidates wait
* `Command.Run.Keeps` — a command keeps a property of the state of its link
* `Sent` — the requests that a link has carried have a property

## Main results

* `Source.Gives.walk` — a listing is read page by page, and each page is one of the source
* `Batcher.Holds.push`, `Batcher.Holds.finish` — what is deleted was allowed when it was gathered
* `Client.keeps_request` — one request
-/

namespace BucketCare

/-- An action keeps a property of the state, and its answer has a property. -/
def Keeps {σ α : Type} (inv : σ → Prop) (post : α → Prop) (action : StateM σ α) : Prop :=
  ∀ state, inv state → post (action.run state).1 ∧ inv (action.run state).2

namespace Keeps

variable {σ α β : Type} {inv : σ → Prop} {post : α → Prop}

theorem pure {a : α} (h : post a) : Keeps inv post (Pure.pure a) := fun _ hinv => ⟨h, hinv⟩

theorem bind {action : StateM σ α} {next : α → StateM σ β} {goal : β → Prop}
    (h : Keeps inv post action) (hnext : ∀ a, post a → Keeps inv goal (next a)) :
    Keeps inv goal (action >>= next) := by
  intro state hinv
  obtain ⟨hpost, hkept⟩ := h state hinv
  exact hnext _ hpost _ hkept

theorem mono {action : StateM σ α} {goal : α → Prop} (h : Keeps inv post action)
    (himp : ∀ a, post a → goal a) : Keeps inv goal action :=
  fun state hinv => (h state hinv).imp_left (himp _)

end Keeps

/-! ## Reading pages -/

section Paging

variable {σ α β τ : Type} {inv : σ → Prop} {holds : α → Prop}

/-- An answer is a failure or a page with some content. -/
def PageHolds (holds : α → Prop) (answer : Except Error (Page α τ)) : Prop :=
  ∀ page, answer = .ok page → holds page.content

/-- A source keeps a property of its state, and the pages it gives have another. -/
def Source.Gives (inv : σ → Prop) (holds : α → Prop) (source : Source σ α τ) : Prop :=
  ∀ token, Keeps inv (PageHolds holds) (source token)

/-- The page that waits to be handed out has a property. -/
def Cursor.Holds (holds : α → Prop) (cursor : Cursor α τ) : Prop :=
  ∀ page, cursor.waiting = some page → holds page.content

namespace Source.Gives

variable {source : Source σ α τ}

theorem fetch (h : source.Gives inv holds) (token : Option τ) :
    Keeps inv (fun answer => PageHolds holds answer.1) (Cursor.fetch source token) := by
  unfold Cursor.fetch
  refine (h token).bind ?_
  intro answer hanswer
  cases answer with
  | ok page => exact .pure hanswer
  | error e =>
    dsimp only
    split
    · exact (h token).bind fun again hagain => .pure hagain
    · exact .pure nofun

theorem start (h : source.Gives inv holds) :
    Keeps inv (fun answer => ∀ cursor, answer = .ok cursor → cursor.Holds holds)
      (Cursor.start source) := by
  unfold Cursor.start
  refine (h.fetch none).bind ?_
  rintro ⟨answer, tries⟩ hanswer
  cases answer with
  | error e => exact .pure nofun
  | ok page =>
    apply Keeps.pure
    rintro cursor hcursor
    obtain rfl := Except.ok.inj hcursor
    rintro first hfirst
    obtain rfl := Option.some.inj hfirst
    exact hanswer page rfl

theorem next (h : source.Gives inv holds) {cursor : Cursor α τ} (hcursor : cursor.Holds holds) :
    Keeps inv (fun answer => PageHolds holds answer.1 ∧ answer.2.Holds holds)
      (cursor.next source) := by
  unfold Cursor.next
  split
  next page hwaiting =>
    refine .pure ⟨?_, nofun⟩
    rintro first hfirst
    obtain rfl := Except.ok.inj hfirst
    exact hcursor page hwaiting
  next hnone =>
    split
    · exact .pure ⟨nofun, hcursor⟩
    refine (h.fetch cursor.token).bind ?_
    rintro ⟨answer, tries⟩ hanswer
    cases answer with
    | ok page => exact .pure ⟨hanswer, nofun⟩
    | error e => exact .pure ⟨nofun, hcursor⟩

/-- A visitor that keeps a property of its state over the pages of a source keeps it over a
listing. -/
theorem walk (h : source.Gives inv holds) {visited : β → Prop}
    {visit : α → β → StateM σ (Option Error × Visit β)}
    (hvisit : ∀ content b, holds content → visited b →
      Keeps inv (fun answer => visited answer.2.state) (visit content b))
    (budget : Nat) {cursor : Cursor α τ} (hcursor : cursor.Holds holds) {b : β} (hb : visited b) :
    Keeps inv (fun answer => visited answer.2.1) (cursor.walk source visit budget b) := by
  induction budget generalizing cursor b with
  | zero => exact .pure hb
  | succ budget ih =>
    rw [Cursor.walk]
    split
    · exact .pure hb
    refine (h.next hcursor).bind ?_
    rintro ⟨answer, cursor'⟩ ⟨hanswer, hcursor'⟩
    cases answer with
    | error e => exact .pure hb
    | ok page =>
      refine (hvisit page.content b (hanswer page rfl) hb).bind ?_
      rintro ⟨failure, outcome⟩ houtcome
      cases failure with
      | some e => exact .pure houtcome
      | none =>
        cases outcome with
        | stop b' => exact .pure houtcome
        | more b' => exact ih hcursor' houtcome

end Source.Gives

end Paging

/-! ## Deleting -/

section Deleting

variable {σ : Type} {inv : σ → Prop} {allowed : Candidate → Prop}

/-- A deleter keeps a property of the state when it is given candidates that are allowed. -/
def Deleter.Takes (inv : σ → Prop) (allowed : Candidate → Prop) (deleter : Deleter σ) : Prop :=
  ∀ batch, (∀ candidate ∈ batch, allowed candidate) → Keeps inv (fun _ => True) (deleter batch)

/-- The candidates that wait are allowed. -/
def Batcher.Holds (allowed : Candidate → Prop) (batcher : Batcher) : Prop :=
  ∀ candidate ∈ batcher.pending, allowed candidate

theorem Deleter.dryRun_takes : (Deleter.dryRun : Deleter σ).Takes inv allowed :=
  fun _ _ => .pure trivial

theorem Batcher.holds_of_new {size : Nat} {batcher : Batcher} (h : Batcher.new size = .ok batcher) :
    batcher.Holds allowed := by
  unfold Batcher.new at h
  cases hcheck : checkPageSize "delete page size" size with
  | error e => simp [hcheck, Except.map] at h
  | ok _ =>
    obtain rfl : (⟨size, [], ⟨0, 0, 0⟩⟩ : Batcher) = batcher := by
      simpa [hcheck, Except.map] using h
    exact nofun

namespace Batcher.Holds

variable {deleter : Deleter σ} {batcher : Batcher}

theorem flush (hdeleter : deleter.Takes inv allowed) (h : batcher.Holds allowed) :
    Keeps inv (fun answer => answer.2.Holds allowed) (batcher.flush deleter) := by
  unfold Batcher.flush
  refine (hdeleter _ h).bind ?_
  intro answer _
  cases answer with
  | error e => exact .pure nofun
  | ok outcome => exact .pure nofun

theorem push (hdeleter : deleter.Takes inv allowed) (h : batcher.Holds allowed)
    {candidate : Candidate} (hcandidate : allowed candidate) :
    Keeps inv (fun answer => answer.2.Holds allowed) (batcher.push deleter candidate) := by
  have hmore : ∀ other ∈ batcher.pending ++ [candidate], allowed other := by
    intro other hother
    rcases List.mem_append.mp hother with hother | hother
    · exact h other hother
    · rw [List.mem_singleton.mp hother]
      exact hcandidate
  unfold Batcher.push
  dsimp only
  split
  · exact flush hdeleter hmore
  · exact .pure hmore

theorem finish (hdeleter : deleter.Takes inv allowed) (h : batcher.Holds allowed) :
    Keeps inv (fun _ => True) (batcher.finish deleter) := by
  unfold Batcher.finish
  split
  · exact .pure trivial
  refine (h.flush hdeleter).bind ?_
  rintro ⟨answer, batcher'⟩ -
  cases answer <;> exact .pure trivial

end Batcher.Holds

end Deleting

/-! ## Requests -/

/-- A link gives an answer to a request, in some state. -/
def Link.Answers {σ : Type} (link : Link σ) (request : Request) (reply : request.Reply) : Prop :=
  ∃ state, ((link.send request).run state).1 = .ok reply

/-- The requests that a link has carried have a property. -/
def Sent {σ : Type} (allowed : Request → Prop) (state : List Request × σ) : Prop :=
  ∀ request ∈ state.1, allowed request

section Requests

variable {σ : Type} {allowed : Request → Prop} {link : Link σ}
variable {client : Client (List Request × σ)}

theorem Link.keeps_recorded {request : Request} (hallowed : allowed request) :
    Keeps (Sent allowed) (fun answer => ∀ reply, answer = .ok reply → link.Answers request reply)
      (link.recorded.send request) := by
  rintro ⟨sent, state⟩ hsent
  refine ⟨fun reply hreply => ⟨state, hreply⟩, ?_⟩
  intro other hother
  rcases List.mem_append.mp hother with hother | hother
  · exact hsent other hother
  · rw [List.mem_singleton.mp hother]
    exact hallowed

/-- A request that is allowed keeps the others so, and its answer is one of the link's. -/
theorem Client.keeps_request (hlink : client.link = link.recorded) {request : Request}
    (hallowed : allowed request) :
    Keeps (Sent allowed) (fun answer => ∀ reply, answer = .ok reply → link.Answers request reply)
      (client.request request).run := by
  unfold Client.request
  rw [hlink]
  refine (Link.keeps_recorded hallowed).bind ?_
  intro answer hanswer
  cases answer with
  | ok reply =>
    apply Keeps.pure
    rintro same hsame
    obtain rfl := Except.ok.inj hsame
    exact hanswer reply rfl
  | error fault => exact .pure nofun

end Requests

/-! ## Commands -/

namespace Command

variable {σ α β τ : Type} {inv : σ → Prop}

/-- A command keeps a property of the state of its link, whether or not it fails, and if it does not
its answer has a property. -/
def Run.Keeps (inv : σ → Prop) (post : α → Prop) (run : Run σ α) : Prop :=
  BucketCare.Keeps (fun world => inv world.link) (fun answer => ∀ a, answer = .ok a → post a)
    run.run

namespace Run.Keeps

variable {post : α → Prop}

theorem pure {a : α} (h : post a) : Run.Keeps inv post (Pure.pure a) := by
  refine BucketCare.Keeps.pure ?_
  rintro b hb
  obtain rfl := Except.ok.inj hb
  exact h

theorem bind {run : Run σ α} {next : α → Run σ β} {goal : β → Prop}
    (h : Run.Keeps inv post run) (hnext : ∀ a, post a → Run.Keeps inv goal (next a)) :
    Run.Keeps inv goal (run >>= next) := by
  unfold Run.Keeps
  rw [ExceptT.run_bind]
  refine BucketCare.Keeps.bind h ?_
  intro answer hanswer
  cases answer with
  | ok a => exact hnext a (hanswer a rfl)
  | error failure => exact BucketCare.Keeps.pure nofun

theorem mono {run : Run σ α} {goal : α → Prop} (h : Run.Keeps inv post run)
    (himp : ∀ a, post a → goal a) : Run.Keeps inv goal run :=
  BucketCare.Keeps.mono h fun _ hanswer a ha => himp a (hanswer a ha)

theorem holds {run : Run σ α} {world world' : World σ} {answer : Except Failure α}
    (h : Run.Keeps inv post run) (hrun : run.run.run world = (answer, world'))
    (hinv : inv world.link) : inv world'.link := by
  have hkept := (h world hinv).2
  rwa [hrun] at hkept

theorem get : Run.Keeps inv (fun world => inv world.link) (MonadState.get : Run σ (World σ)) := by
  intro world hinv
  refine ⟨?_, hinv⟩
  rintro found hfound
  obtain rfl := Except.ok.inj hfound
  exact hinv

theorem set {world : World σ} (h : inv world.link) :
    Run.Keeps inv (fun _ => True) (MonadStateOf.set world : Run σ PUnit) :=
  fun _ _ => ⟨fun _ _ => trivial, h⟩

/-- A command that changes something else than the link. -/
theorem of_modify {change : World σ → World σ} (h : ∀ world, (change world).link = world.link) :
    Run.Keeps inv (fun _ => True) (modify change : Run σ PUnit) := by
  intro world hinv
  refine ⟨fun _ _ => trivial, ?_⟩
  change inv (change world).link
  rwa [h]

theorem fail (error : Error) : Run.Keeps inv post (Run.fail error) :=
  BucketCare.Keeps.pure nofun

theorem ofExcept (result : Except Error α) :
    Run.Keeps inv (fun a => result = .ok a) (Run.ofExcept result) := by
  cases result with
  | ok a => exact pure rfl
  | error e => exact fail e

theorem failIf (failure : Option Error) : Run.Keeps inv (fun _ => True) (Run.failIf failure) := by
  cases failure with
  | none => exact pure trivial
  | some e => exact fail e

theorem onLink {action : StateM σ α} (h : BucketCare.Keeps inv post action) :
    Run.Keeps inv post (Run.onLink action) := by
  intro world hinv
  obtain ⟨hpost, hkept⟩ := h world.link hinv
  refine ⟨?_, hkept⟩
  rintro a ha
  obtain rfl := Except.ok.inj ha
  exact hpost

/-- Handing the pages of a source to a visitor keeps what the source and the visitor keep. -/
theorem visitPages {source : Source σ α τ} {holds : α → Prop} {visited : β → Prop}
    {visit : α → β → StateM σ (Option Error × Visit β)} {start : β}
    (hsource : source.Gives inv holds)
    (hvisit : ∀ content b, holds content → visited b →
      BucketCare.Keeps inv (fun answer => visited answer.2.state) (visit content b))
    (hstart : visited start) :
    Run.Keeps inv (fun answer => visited answer.state) (Run.visitPages source visit start) := by
  apply onLink
  refine hsource.start.bind ?_
  intro answer hanswer
  cases answer with
  | error e => exact .pure hstart
  | ok cursor =>
    refine (hsource.walk hvisit Run.allPages (hanswer cursor rfl) hstart).bind ?_
    exact fun outcome houtcome => .pure houtcome

theorem print (text : String) : Run.Keeps inv (fun _ => True) (Run.print text) :=
  of_modify fun _ => rfl

theorem printLine (text : String) : Run.Keeps inv (fun _ => True) (Run.printLine text) :=
  of_modify fun _ => rfl

theorem printSummary (rows : List (String × String)) :
    Run.Keeps inv (fun _ => True) (Run.printSummary rows) :=
  (printLine "").bind fun _ _ => printLine _

/-- What is done for some things one after the other. -/
theorem forIn {items : List τ} {body : τ → PUnit → Run σ (ForInStep PUnit)}
    (h : ∀ item, Run.Keeps inv (fun _ => True) (body item ⟨⟩)) :
    Run.Keeps inv (fun _ => True) (ForIn.forIn items PUnit.unit body) := by
  induction items with
  | nil => exact pure trivial
  | cons item items ih =>
    rw [List.forIn_cons]
    refine (h item).bind fun step _ => ?_
    cases step with
    | done => exact pure trivial
    | yield => exact ih

theorem createFile (path : String) : Run.Keeps inv (fun _ => True) (Run.createFile path) := by
  refine get.bind ?_
  intro world hinv
  split
  · exact set hinv
  · exact fail _

theorem fillFile (path text : String) : Run.Keeps inv (fun _ => True) (Run.fillFile path text) := by
  refine get.bind ?_
  intro world hinv
  split
  · dsimp only
    split
    · exact set hinv
    · exact fail _
  · exact fail _

theorem settings (machine : Machine σ) (path : Option String) :
    Run.Keeps inv (fun _ => True) (Run.settings machine path) :=
  get.bind fun _ _ => (ofExcept _).mono fun _ _ => trivial

/-- The client of a command has the link of its machine. -/
theorem connect (machine : Machine σ) (path : Option String) :
    Run.Keeps inv (fun answer => answer.2.link = machine.link) (Run.connect machine path) :=
  (settings machine path).bind fun _ _ => get.bind fun _ _ => pure rfl

/-- A command that begins with a path and a client for the settings that hold. -/
theorem onPath {machine : Machine σ} {settingsPath : Option String} {uri : String}
    {path : StorePath} (hpath : StorePath.parse uri = .ok path)
    {body : StorePath → Settings × Client σ → Run σ α}
    (h : ∀ answer, answer.2.link = machine.link → Run.Keeps inv post (body path answer)) :
    Run.Keeps inv post (do
      let path ← Run.ofExcept (StorePath.parse uri)
      let answer ← Run.connect machine settingsPath
      body path answer) := by
  refine (ofExcept _).bind ?_
  intro found hfound
  obtain rfl : path = found := Except.ok.inj (hpath.symm.trans hfound)
  exact (connect machine settingsPath).bind h

end Run.Keeps

end Command

end BucketCare

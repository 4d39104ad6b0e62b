import BucketCare.Proofs.Upload.Crews
import BucketCare.Proofs.Upload.Storing

/-!
# Uploads that share a store

Uploads that run side by side send their requests in any order. If each of them is about a place of
its own they do not disturb each other: whoever sends the next request, the others find at their
places what they have left there, and what is on the log about a place was sent by one upload alone.
So each of them comes to what it would come to by itself.

## Main definitions

* `entriesAbout` — the entries of a log that are about a place
* `Sharing` — how some uploads stand that are under way
* `Shares` — they stand so if all requests so far have succeeded
* `UploadTasks.Tells` — what a ledger tells of some uploads is so

## Main results

* `Sharing.start`, `Sharing.step` — one more upload, and one more request
* `UploadTasks.step_leads`, `UploadTasks.conclude_leads` — the uploads go on as they stand
* `UploadTasks.crew_keeps` — the uploads of a plan come to what each of them comes to by itself
-/

namespace BucketCare

variable {σ : Type}

/-- The entries of a log that are about a place. -/
def entriesAbout (path : StorePath) (log : RequestLog) : RequestLog :=
  log.filter fun entry => decide (entry.1.place? = some path)

section Entries

variable {path other : StorePath} {log : RequestLog} {request : Request} {fault : Option Fault}

theorem entriesAbout_concat_of_eq (h : request.place? = some path) :
    entriesAbout path (log ++ [(request, fault)]) =
      entriesAbout path log ++ [(request, fault)] := by
  simp [entriesAbout, h]

theorem entriesAbout_concat_of_ne (h : request.place? = some path) (hne : other ≠ path) :
    entriesAbout other (log ++ [(request, fault)]) = entriesAbout other log := by
  simp [entriesAbout, h, hne.symm]

/-- The uploads to a place are begun by the entries about it. -/
theorem count_uploadsBegun (path : StorePath) (log : RequestLog) :
    (uploadsBegun log).count path = (uploadsBegun (entriesAbout path log)).count path := by
  rw [uploadsBegun, uploadsBegun, List.count_filterMap, List.count_filterMap, entriesAbout,
    List.countP_filter]
  apply List.countP_congr
  intro entry _
  have hplace : entry.1.begins? = some path → entry.1.place? = some path :=
    Request.place?_of_begins?
  simpa using hplace

end Entries

/-! ## Uploads under way -/

/-- Some uploads are under way, the first of those that have places of their own. If the requests
that are left of one of them succeed, it reaches its goal with them, the requests that are on the
log about its place and what the store holds there. Nothing else has changed. -/
structure Sharing (link : Link σ) (stock : σ → Stock) (targets : List StorePath)
    (goal : StorePath → RequestLog → Nat → Deposit → Prop) (before : Stock)
    (talks : List (Talk Nat)) (log : RequestLog) (state : σ) : Prop where
  length_le : talks.length ≤ targets.length
  serves : ∀ (place : Nat) path (talk : Talk Nat), targets[place]? = some path →
    talks[place]? = some talk →
      talk.Serves link stock path (fun more => goal path (entriesAbout path log ++ more))
        (stock state path)
  about : ∀ entry ∈ log, ∃ place < talks.length, ∃ path, targets[place]? = some path ∧
    entry.1.place? = some path
  untouched : ∀ path, (∀ place < talks.length, targets[place]? ≠ some path) →
    stock state path = before path

namespace Sharing

variable {link : Link σ} {stock : σ → Stock} {targets : List StorePath}
variable {goal : StorePath → RequestLog → Nat → Deposit → Prop} {before : Stock}
variable {talks : List (Talk Nat)} {log : RequestLog} {state : σ} {path : StorePath}

theorem empty (state : σ) :
    Sharing link stock targets goal (stock state) [] [] state where
  length_le := Nat.zero_le _
  serves _ _ _ _ htalk := by
    rw [List.getElem?_nil] at htalk
    cases htalk
  about := List.forall_mem_nil _
  untouched _ _ := rfl

/-- Nothing was sent to a place that no upload under way is about. -/
theorem entriesAbout_eq_nil (h : Sharing link stock targets goal before talks log state)
    (hfree : ∀ place < talks.length, targets[place]? ≠ some path) :
    entriesAbout path log = [] := by
  apply List.filter_eq_nil_iff.mpr
  intro entry hmem habout
  obtain ⟨place, hplace, other, hother, hentry⟩ := h.about entry hmem
  obtain rfl : other = path := by simpa [hentry] using habout
  exact hfree place hplace hother

/-- One more upload is under way, to a place that nothing was sent to. -/
theorem start (h : Sharing link stock targets goal before talks log state)
    (hdistinct : targets.Nodup) {talk : Talk Nat} (hpath : targets[talks.length]? = some path)
    (hserves : talk.Serves link stock path (goal path) (before path)) :
    Sharing link stock targets goal before (talks ++ [talk]) log state := by
  obtain ⟨hbound, -⟩ := List.getElem?_eq_some_iff.mp hpath
  -- The places are distinct, so none of the uploads under way has this one.
  have hnew : ∀ place < talks.length, targets[place]? ≠ some path := by
    intro place hplace hsame
    have := (List.getElem?_inj (by omega) hdistinct).mp (hsame.trans hpath.symm)
    omega
  have hlength : (talks ++ [talk]).length = talks.length + 1 := List.length_append
  constructor
  case length_le => omega
  case serves =>
    intro place other last hother hlast
    obtain ⟨hplace, -⟩ := List.getElem?_eq_some_iff.mp hlast
    by_cases hold : place < talks.length
    · rw [List.getElem?_append_left hold] at hlast
      exact h.serves place other last hother hlast
    · obtain rfl : place = talks.length := by omega
      obtain rfl : path = other := Option.some.inj (hpath.symm.trans hother)
      obtain rfl : talk = last := by simpa using hlast
      rw [h.entriesAbout_eq_nil hnew, h.untouched path hnew]
      exact hserves
  case about =>
    intro entry hmem
    obtain ⟨place, hplace, other⟩ := h.about entry hmem
    exact ⟨place, by omega, other⟩
  case untouched =>
    intro other hother
    exact h.untouched other fun place hplace => hother place (by omega)

/-- One of the uploads sends a request, which succeeds. -/
theorem step (h : Sharing link stock targets goal before talks log state)
    (hstores : link.Stores stock) (hdistinct : targets.Nodup) {place : Nat} {request : Request}
    {next : Except Fault request.Reply → Talk Nat}
    (htalk : talks[place]? = some (.ask request next))
    {reply : Except Fault request.Reply} {state' : σ}
    (hsend : (link.send request).run state = (reply, state'))
    (hgranted : granted (request, Fault.of? reply)) :
    Sharing link stock targets goal before (talks.set place (next reply))
      (log ++ [(request, Fault.of? reply)]) state' := by
  obtain ⟨hplace, -⟩ := List.getElem?_eq_some_iff.mp htalk
  obtain ⟨path, hpath⟩ : ∃ path, targets[place]? = some path :=
    ⟨_, List.getElem?_eq_getElem (Nat.lt_of_lt_of_le hplace h.length_le)⟩
  obtain ⟨habout, hnext⟩ := h.serves place path _ hpath htalk
  have helsewhere := hstores.elsewhere request path reply state state' habout hsend hgranted
  have hlength : (talks.set place (next reply)).length = talks.length := List.length_set
  constructor
  case length_le => exact hlength ▸ h.length_le
  case serves =>
    intro place' other talk hother htalk'
    by_cases hsame : place' = place
    · -- What is left of this one goes on from the reply, with one more entry on the log.
      subst hsame
      obtain rfl : path = other := Option.some.inj (hpath.symm.trans hother)
      rw [List.getElem?_set_self hplace] at htalk'
      obtain rfl := Option.some.inj htalk'
      have hserves := hnext state state' reply rfl hsend hgranted
      rw [entriesAbout_concat_of_eq habout]
      simpa only [List.append_assoc, List.singleton_append] using hserves
    · -- The others have other places, where nothing has changed.
      have hne : other ≠ path := by
        rintro rfl
        obtain ⟨hbound, -⟩ := List.getElem?_eq_some_iff.mp hother
        exact hsame ((List.getElem?_inj hbound hdistinct).mp (hother.trans hpath.symm))
      rw [List.getElem?_set_ne (Ne.symm hsame)] at htalk'
      rw [entriesAbout_concat_of_ne habout hne, helsewhere other hne]
      exact h.serves place' other talk hother htalk'
  case about =>
    rw [hlength]
    intro entry hmem
    rcases List.mem_append.mp hmem with hold | hnew
    · exact h.about entry hold
    · obtain rfl := List.mem_singleton.mp hnew
      exact ⟨place, hplace, path, hpath, habout⟩
  case untouched =>
    rw [hlength]
    intro other hother
    have hne : other ≠ path := fun heq => hother place hplace (heq ▸ hpath)
    rw [helsewhere other hne]
    exact h.untouched other hother

end Sharing

/-! ## Uploads that go on -/

/-- Some uploads stand as their log tells, if all its requests have succeeded. -/
def Shares (link : Link σ) (stock : σ → Stock) (targets : List StorePath)
    (goal : StorePath → RequestLog → Nat → Deposit → Prop) (before : Stock)
    (talks : List (Talk Nat)) (state : RequestLog × σ) : Prop :=
  AllGranted state.1 → Sharing link stock targets goal before talks state.1 state.2

namespace UploadTasks

/-- Some uploads went on, and those that had come to their outcomes have not changed. -/
structure WentOn (talks later : List (Talk Nat)) : Prop where
  length_eq : later.length = talks.length
  ended : ∀ (place : Nat) outcome, talks[place]? = some (.done outcome) →
    later[place]? = some (.done outcome)

theorem WentOn.refl (talks : List (Talk Nat)) : WentOn talks talks := ⟨rfl, fun _ _ => id⟩

theorem WentOn.trans {talks next later : List (Talk Nat)} (h : WentOn talks next)
    (hmore : WentOn next later) : WentOn talks later :=
  ⟨hmore.length_eq.trans h.length_eq, fun place outcome hended =>
    hmore.ended place outcome (h.ended place outcome hended)⟩

/-- An upload that sends a request had not come to its outcome. -/
theorem WentOn.set {talks : List (Talk Nat)} {place : Nat} {request : Request}
    {next : Except Fault request.Reply → Talk Nat} (h : talks[place]? = some (.ask request next))
    (talk : Talk Nat) : WentOn talks (talks.set place talk) := by
  refine ⟨List.length_set, fun other outcome hended => ?_⟩
  have hne : place ≠ other := by
    rintro rfl
    cases h.symm.trans hended
  rwa [List.getElem?_set_ne hne]

variable {link : Link σ} {stock : σ → Stock} {targets : List StorePath}
variable {goal : StorePath → RequestLog → Nat → Deposit → Prop} {before : Stock}
variable (hstores : link.Stores stock) (hdistinct : targets.Nodup)

section Turns

include hstores hdistinct

/-- What one of the uploads sends next is on the log, and they stand as it tells. -/
theorem send_leads {talks : List (Talk Nat)} {place : Nat} {request : Request}
    {next : Except Fault request.Reply → Talk Nat} (h : talks[place]? = some (.ask request next)) :
    LeadsTo (Shares link stock targets goal before talks) (link.logged.send request)
      fun reply => Shares link stock targets goal before (talks.set place (next reply)) := by
  rintro ⟨log, state⟩ hshares
  rcases hsend : (link.send request).run state with ⟨reply, state'⟩
  rw [Link.logged_run hsend]
  intro hgranted
  obtain ⟨hbefore, hone⟩ := allGranted_append.mp hgranted
  exact (hshares hbefore).step hstores hdistinct h hsend (allGranted_singleton.mp hone)

theorem step_leads (talks : List (Talk Nat)) (place : Nat) :
    LeadsTo (Shares link stock targets goal before talks) (step link.logged talks place)
      fun later state => WentOn talks later ∧
        Shares link stock targets goal before later state := by
  rw [step]
  split
  next request next htalk =>
    refine (send_leads hstores hdistinct htalk).bind ?_
    intro reply
    exact .pure fun _ hshares => ⟨.set htalk _, hshares⟩
  next => exact .pure fun _ hshares => ⟨.refl talks, hshares⟩

theorem goOn_leads (turns : List Nat) (talks : List (Talk Nat)) :
    LeadsTo (Shares link stock targets goal before talks) (goOn link.logged talks turns)
      fun later state => WentOn talks later ∧
        Shares link stock targets goal before later state := by
  induction turns generalizing talks with
  | nil => exact .pure fun _ hshares => ⟨.refl talks, hshares⟩
  | cons place turns ih =>
    rw [goOn]
    refine (step_leads hstores hdistinct talks place).bind ?_
    intro next
    apply LeadsTo.of_forall
    rintro state ⟨hnext, hshares⟩
    refine ((ih next).at_state hshares).mono ?_
    rintro later _ ⟨hlater, hshares'⟩
    exact ⟨hnext.trans hlater, hshares'⟩

/-- One of the uploads sends all that is left of it. -/
theorem run_leads (talk : Talk Nat) {talks : List (Talk Nat)} {place : Nat}
    (h : talks[place]? = some talk) :
    LeadsTo (Shares link stock targets goal before talks) (talk.run link.logged).run
      fun outcome state => WentOn talks (talks.set place (.done outcome)) ∧
        Shares link stock targets goal before (talks.set place (.done outcome)) state := by
  -- Each request moves the invariant on to the talk that its reply leaves at the place.
  induction talk generalizing talks with
  | done result =>
    have hsame : talks.set place (.done result) = talks := by
      obtain ⟨hplace, hdone⟩ := List.getElem?_eq_some_iff.mp h
      rw [← hdone, List.set_getElem_self]
    refine .pure fun _ hshares => ?_
    rw [hsame]
    exact ⟨.refl talks, hshares⟩
  | ask request next ih =>
    refine (send_leads hstores hdistinct h).bind ?_
    intro reply
    have hplace : place < talks.length := (List.getElem?_eq_some_iff.mp h).1
    refine (ih reply (List.getElem?_set_self hplace)).mono ?_
    rintro outcome state ⟨hlater, hshares⟩
    rw [List.set_set] at hlater hshares
    exact ⟨(WentOn.set h _).trans hlater, hshares⟩

/-- An upload comes to its outcome, and the others stand as before. -/
theorem conclude_leads {talks : List (Talk Nat)} {place : Nat} (h : place < talks.length) :
    LeadsTo (Shares link stock targets goal before talks) (conclude link.logged talks place)
      fun answer state => WentOn talks answer.2 ∧
        Shares link stock targets goal before answer.2 state ∧
        ∃ outcome, answer.1 = .ofOutcome outcome ∧ answer.2[place]? = some (.done outcome) := by
  have htalk : talks[place]? = some talks[place] := List.getElem?_eq_getElem h
  rw [conclude, htalk]
  refine (run_leads hstores hdistinct _ htalk).bind ?_
  intro outcome
  refine .pure fun state hshares => ⟨hshares.1, hshares.2, outcome, rfl, ?_⟩
  exact List.getElem?_set_self h

end Turns

/-! ## What a ledger tells of uploads -/

/-- As many uploads are under way or have ended as the ledger tells, and those that ended have come
to the outcomes it tells. -/
structure Tells (link : Link σ) (stock : σ → Stock) (targets : List StorePath)
    (goal : StorePath → RequestLog → Nat → Deposit → Prop) (before : Stock) (ledger : Ledger)
    (state : UploadTasks × RequestLog × σ) : Prop where
  length_eq : state.1.talks.length = ledger.report.submitted
  ended : ∀ time place key result, .completed time place key result ∈ ledger.moments →
    ∃ outcome, state.1.talks[place]? = some (.done outcome) ∧ result = outcome.map UInt64.ofNat
  shares : Shares link stock targets goal before state.1.talks state.2

section Tells

variable {ledger : Ledger} {tasks : UploadTasks} {state state' : RequestLog × σ}

/-- The uploads go on, and the ledger tells of them what it told. -/
theorem Tells.goOn (h : Tells link stock targets goal before ledger (tasks, state))
    {later : List (Talk Nat)} (hmore : WentOn tasks.talks later)
    (hshares : Shares link stock targets goal before later state') (ended : Nat) :
    Tells link stock targets goal before ledger (⟨ended, later⟩, state') := by
  refine ⟨hmore.length_eq.trans h.length_eq, ?_, hshares⟩
  intro time place key result hmem
  obtain ⟨outcome, hdone, hresult⟩ := h.ended time place key result hmem
  exact ⟨outcome, hmore.ended place outcome hdone, hresult⟩

/-- An upload that has come to its outcome is told to have ended. -/
theorem Tells.complete (h : Tells link stock targets goal before ledger (tasks, state))
    {flight : Flight Unit} {outcome : Except Error Nat}
    (hdone : tasks.talks[flight.place]? = some (.done outcome)) :
    Tells link stock targets goal before
      (ledger.complete flight (outcome.map UInt64.ofNat)) (tasks, state) := by
  refine ⟨?_, ?_, h.shares⟩
  · cases outcome <;> exact h.length_eq
  · intro time place key result hmem
    rcases List.mem_append.mp hmem with hold | hnew
    · exact h.ended time place key result hold
    · cases List.mem_singleton.mp hnew
      exact ⟨outcome, hdone, rfl⟩

/-- One more upload of the plan is under way. -/
theorem Tells.submit (h : Tells link stock targets goal before ledger (tasks, state))
    (hdistinct : targets.Nodup) {path : StorePath} {talk : Talk Nat}
    (hpath : targets[ledger.report.submitted]? = some path)
    (hserves : talk.Serves link stock path (goal path) (before path)) (key : String) :
    Tells link stock targets goal before (ledger.submit key)
      (⟨tasks.ended, tasks.talks ++ [talk]⟩, state) := by
  -- The new upload stands behind the others, at the place that the ledger numbers it with.
  have hlength : tasks.talks.length = ledger.report.submitted := h.length_eq
  refine ⟨?_, ?_, fun hgranted => (h.shares hgranted).start hdistinct (hlength ▸ hpath) hserves⟩
  · exact List.length_append.trans (congrArg (· + 1) hlength)
  · intro time place key' result hmem
    obtain ⟨outcome, hdone, hresult⟩ := h.ended time place key' result (by simpa using hmem)
    obtain ⟨hplace, -⟩ := List.getElem?_eq_some_iff.mp hdone
    exact ⟨outcome, (List.getElem?_append_left hplace).trans hdone, hresult⟩

/-- An upload that is told to have ended has reached its goal, if all requests have succeeded. -/
theorem Tells.goal_reached (h : Tells link stock targets goal before ledger (tasks, state))
    (hgranted : AllGranted state.1) {time place : Nat} {key : String}
    {result : Except Error UInt64} (hmem : .completed time place key result ∈ ledger.moments) :
    ∃ path bytes, targets[place]? = some path ∧ result = .ok (.ofNat bytes) ∧
      goal path (entriesAbout path state.1) bytes (stock state.2 path) := by
  obtain ⟨outcome, hdone, rfl⟩ := h.ended time place key result hmem
  have hsharing := h.shares hgranted
  obtain ⟨hplace, -⟩ := List.getElem?_eq_some_iff.mp hdone
  have hpath := List.getElem?_eq_getElem (Nat.lt_of_lt_of_le hplace hsharing.length_le)
  have hserves := hsharing.serves place _ _ hpath hdone
  cases outcome with
  | error error => exact hserves.elim
  | ok bytes =>
    refine ⟨_, bytes, hpath, rfl, ?_⟩
    rw [← List.append_nil (entriesAbout _ _)]
    exact hserves

end Tells

/-- An upload that comes to its outcome ends with it. -/
theorem land_ofOutcome (ledger : Ledger) (flight : Flight Unit) (outcome : Except Error Nat) :
    ledger.land flight (.ofOutcome outcome) =
      .ok (ledger.complete flight (outcome.map UInt64.ofNat)) := by
  cases outcome <;> rfl

variable {client : Client σ} {tree : FileTree} {bucket : String} {overwrite : Bool}
variable {schedule : UploadSchedule} {plan : List UploadFile}

/-- Some uploads go on, and then one of them comes to its outcome. -/
theorem settle_run {tasks : UploadTasks} {flight : Flight Unit} {talks later : List (Talk Nat)}
    {outcome : TransferEnd} {state next last : σ}
    (hturns : (goOn client.link tasks.talks (schedule.turns tasks.ended)).run state = (talks, next))
    (hend : (conclude client.link talks flight.place).run next = ((outcome, later), last)) :
    ((crew client tree bucket overwrite schedule).settle flight).run (tasks, state) =
      (outcome, (⟨tasks.ended + 1, later⟩, last)) := by
  rw [StateT.run] at hturns hend ⊢
  simp only [crew, StateT.run, hturns, hend]

/-- What a ledger tells of the uploads of a plan stays true when they go on, if each of them reaches
its goal by itself. -/
theorem crew_keeps (hstores : client.link.Stores stock)
    (hdistinct : (plan.map (UploadFile.target bucket)).Nodup)
    (hserves : ∀ file ∈ plan,
      (Talk.transfer client.multipart tree bucket overwrite file).Serves client.link stock
        (file.target bucket) (goal (file.target bucket)) (before (file.target bucket))) :
    (crew client.logged tree bucket overwrite schedule).Keeps plan
      (Tells client.link stock (plan.map (UploadFile.target bucket)) goal before) := by
  constructor
  case start =>
    rintro ledger file hfile ⟨tasks, state⟩ htells
    have htarget : (plan.map (UploadFile.target bucket))[ledger.report.submitted]? =
        some (file.target bucket) := by
      rw [List.getElem?_map, hfile, Option.map_some]
    exact htells.submit hdistinct htarget (hserves file (List.mem_of_getElem? hfile)) file.key
  case settle =>
    rintro ledger flight hplace ⟨tasks, state⟩ htells
    have hturns := goOn_leads hstores hdistinct (schedule.turns tasks.ended) tasks.talks state
      htells.shares
    rcases hgo : (goOn client.link.logged tasks.talks (schedule.turns tasks.ended)).run state
      with ⟨talks, next⟩
    rw [hgo] at hturns
    obtain ⟨hnext, hshares⟩ := hturns
    have hbound : flight.place < talks.length := by
      rw [hnext.length_eq]
      exact Nat.lt_of_lt_of_eq hplace htells.length_eq.symm
    have hends := conclude_leads hstores hdistinct hbound next hshares
    rcases hend : (conclude client.link.logged talks flight.place).run next
      with ⟨⟨answer, later⟩, last⟩
    rw [hend] at hends
    obtain ⟨hlater, hshares', outcome, rfl, hdone⟩ := hends
    rw [settle_run hgo hend]
    dsimp only
    rw [land_ofOutcome]
    exact (htells.goOn (hnext.trans hlater) hshares' _).complete hdone
  case linger =>
    rintro ledger time ⟨tasks, state⟩ htells
    obtain ⟨hnext, hshares⟩ := goOn_leads hstores hdistinct (schedule.turns tasks.ended) tasks.talks
      state htells.shares
    obtain ⟨hlength, hended, hshares⟩ := htells.goOn hnext hshares tasks.ended
    exact ⟨hlength, hended, hshares⟩
  case interrupt =>
    rintro ledger time state ⟨hlength, hended, hshares⟩
    refine ⟨hlength, ?_, hshares⟩
    intro time' place key result hmem
    exact hended time' place key result (by simpa [Ledger.interrupt] using hmem)

end UploadTasks

end BucketCare

import BucketCare.Proofs.Upload.Trace

/-!
# What an interrupt changes

A run with an interrupt goes the same way as the run without one, up to the first wait for an upload
that ends no sooner than the interrupt. From there on nothing is started, and the uploads in flight
end as they would have ended anyway, in the order of time, as far as they do so before the deadline.
If the run without an interrupt has no such wait, the interrupt changes nothing.

Of an upload that ends at the time of the interrupt and of one that ends at the deadline the end is
not seen: the interrupt and the deadline come first.

## Main definitions

* `UploadRun.before`, `UploadRun.Waits` — what a run has done at a time, and that it is not over
* `UploadRun.landings` — the ends of the uploads in flight, up to a deadline
* `UploadRun.CutShort` — a run is another one, stopped by an interrupt
* `Pool.Parts` — where a run with an interrupt leaves the run without one

## Main results

* `Pool.submitAll_parts` — a run with an interrupt is the run without one, or leaves it in a wait
* `Pool.Reaches.filter_lands` — the uploads in flight end in order, whatever is started meanwhile
* `runUploads_interrupted` — every run with an interrupt is the run without one, cut short if that
  still waits
-/

namespace BucketCare

/-- The moment at which an upload ends. -/
def Flight.ending (flight : Flight TransferEnd) : Moment :=
  match flight.work.result? with
  | some result => .completed flight.finish flight.place flight.key result
  | none => .panicked flight.finish flight.place flight.key

@[simp] theorem Flight.ending?_ending (flight : Flight TransferEnd) :
    flight.ending.ending? = some (flight.finish, flight.label, flight.work.result?) := by
  unfold ending
  cases flight.work.result? <;> rfl

theorem Flight.ending_of_result {flight : Flight TransferEnd} {result : Except Error UInt64}
    (h : flight.work.result? = some result) :
    flight.ending = .completed flight.finish flight.place flight.key result := by
  rw [ending, h]

theorem Flight.ending_of_panicked {flight : Flight TransferEnd} {text : String}
    (h : flight.work = .panicked text) :
    flight.ending = .panicked flight.finish flight.place flight.key := by
  rw [ending, h]
  rfl

/-- Those that do not have a property are left out where it is asked for. -/
theorem Flight.filter_insert {p : Flight TransferEnd → Bool} {flight : Flight TransferEnd}
    (h : p flight = false) (flights : List (Flight TransferEnd)) :
    (flight.insert flights).filter p = flights.filter p := by
  induction flights with
  | nil => simp [insert, h]
  | cons other rest ih =>
    rw [insert]
    split
    · rw [List.filter_cons_of_neg (by simp [h])]
    · rw [List.filter_cons, List.filter_cons, ih]

namespace Moment

/-- The moment is not the end of an upload at a time or later. -/
def isBefore (time : Nat) (moment : Moment) : Bool := moment.ending?.all (·.1 < time)

/-- The moment is the end of one of some uploads, before a deadline. -/
def lands (labels : List (Nat × String)) (deadline : Nat) (moment : Moment) : Bool :=
  moment.ending?.any fun ending => ending.2.1 ∈ labels && ending.1 < deadline

end Moment

/-- The uploads that were submitted and did not end with a result. -/
def inFlight (moments : List Moment) : List (Nat × String) :=
  (submissions moments).filter (· ∉ completions moments)

namespace UploadRun

variable (run : UploadRun)

/-- What a run has done at a time: what happens before the first upload that ends at this time or
later. -/
def before (time : Nat) : List Moment := run.moments.takeWhile (Moment.isBefore time)

/-- A run is not over at a time, since some upload ends then or later. -/
def Waits (time : Nat) : Prop := ∃ moment ∈ run.moments, moment.isBefore time = false

instance (time : Nat) : Decidable (run.Waits time) :=
  inferInstanceAs (Decidable (∃ moment ∈ run.moments, moment.isBefore time = false))

/-- The ends, before a deadline, of the uploads that are in flight at a time. -/
def landings (time deadline : Nat) : List Moment :=
  (run.moments.dropWhile (Moment.isBefore time)).filter
    (Moment.lands (inFlight (run.before time)) deadline)

/-- A run is another one, stopped by an interrupt at a time that leaves some time to the uploads in
flight. -/
structure CutShort (time grace : Nat) (plain : UploadRun) : Prop where
  /-- The run does what the other one has done at the time of the interrupt. After that the uploads
  in flight end that do so before the deadline, and nothing else happens. -/
  moments_eq : run.moments =
    plain.before time ++ .interrupted time :: plain.landings time (time + grace)
  /-- This is also what is seen from outside. -/
  events_eq : run.events = (plain.before time).filterMap Moment.event? ++
    (plain.landings time (time + grace)).filterMap Moment.event?
  /-- The uploads in flight end with their results. -/
  landings_completed : ∀ moment ∈ plain.landings time (time + grace),
    moment.completion?.isSome = true
  /-- They end in the order of time. -/
  landings_sorted : ((plain.landings time (time + grace)).filterMap Moment.ending?).Pairwise
    (·.1 ≤ ·.1)
  /-- The report tells the interrupt, and is a failure whether or not failures are ignored. -/
  cancelled : ∃ report, run.result = .ok report ∧ report.interrupted = true ∧
    ∀ ignoreFailures, report.toResult ignoreFailures = .error .cancelled

variable {run} in
/-- The point at which a run still waits, from what has happened and what ends next. -/
theorem before_eq {time : Nat} {before after : List Moment} {moment : Moment}
    (hsplit : run.moments = before ++ moment :: after)
    (hbefore : ∀ earlier ∈ before, earlier.isBefore time = true)
    (hwait : moment.isBefore time = false) :
    run.before time = before ∧ ∀ deadline, run.landings time deadline =
      (moment :: after).filter (Moment.lands (inFlight before) deadline) := by
  have hpast : run.before time = before := by
    rw [UploadRun.before, hsplit, List.takeWhile_append_of_pos hbefore,
      List.takeWhile_cons_of_neg (by simp [hwait]), List.append_nil]
  refine ⟨hpast, ?_⟩
  intro deadline
  rw [landings, hpast, hsplit, List.dropWhile_append_of_pos hbefore,
    List.dropWhile_cons_of_neg (by simp [hwait])]

variable {run} in
/-- Where no upload panics those in flight end with their results. -/
theorem isSome_completion_of_mem_landings (hcalm : losses run.moments = []) {time deadline : Nat}
    {moment : Moment} (h : moment ∈ run.landings time deadline) :
    moment.completion?.isSome = true := by
  obtain ⟨hdrop, hlands⟩ := List.mem_filter.mp h
  have hmem : moment ∈ run.moments := (List.dropWhile_sublist _).mem hdrop
  cases moment with
  | submitted | interrupted => simp [Moment.lands, Moment.ending?] at hlands
  | completed => rfl
  | panicked =>
    have hloss := List.filterMap_eq_nil_iff.mp hcalm _ hmem
    cases hloss

end UploadRun

namespace Pool

variable {uploads : List (UploadFile × Transfer)} {options : PoolOptions} {interrupt : Option Nat}
variable {time : Nat}

/-! ## The same way up to a wait -/

variable (uploads options time) in
/-- A run with an interrupt and the run without one leave each other: both come to a wait for an
upload that ends no sooner than the interrupt, and there the interrupt takes effect in the one,
while in the other the upload ends. -/
inductive Parts (st : Standing) : UploadRun → UploadRun → Prop
  | intro {flight : Flight TransferEnd} {rest : List (Flight TransferEnd)} {ledger : Ledger}
      {next final : Standing} {plain : UploadRun}
      (hreach : Reaches uploads options (some time) st ⟨.running, flight :: rest, ledger⟩)
      (htime : time ≤ flight.finish)
      (hstep : Step uploads options none ⟨.running, flight :: rest, ledger⟩ next)
      (hends : next.ledger.moments = ledger.moments ++ [flight.ending])
      (hrest : Reaches uploads options none next final)
      (hclose : Closes uploads options final plain) :
      Parts st (stop options (some time) (.interrupted (flight :: rest) ledger)) plain

theorem Parts.of_reaches {st st' : Standing} {run plain : UploadRun}
    (hreach : Reaches uploads options (some time) st st')
    (h : Parts uploads options time st' run plain) : Parts uploads options time st run plain := by
  cases h with
  | intro hrest htime hstep hends hplain hclose =>
    exact .intro (hreach.trans hrest) htime hstep hends hplain hclose

/-- Without an interrupt a wait does not end with one. -/
theorem awaitBelow_none_ne {limit : Nat} {flights flights' : List (Flight TransferEnd)}
    {ledger ledger' : Ledger} :
    awaitBelow none limit flights ledger ≠ .error (.interrupted flights' ledger') := by
  intro h
  induction flights generalizing ledger with
  | nil => cases h
  | cons flight rest ih =>
    rw [awaitBelow] at h
    split at h
    · cases h
    split at h
    next hhit => cases hhit
    split at h
    · exact ih h
    · cases h

/-- What stops a wait without an interrupt stops a run in the same way, whatever the interrupt. -/
theorem stop_eq_of_awaitBelow_none {limit : Nat} {flights : List (Flight TransferEnd)}
    {ledger : Ledger} {halt : Halt TransferEnd}
    (h : awaitBelow none limit flights ledger = .error halt) :
    stop options interrupt halt = stop options none halt := by
  cases halt with
  | interrupted => exact absurd h awaitBelow_none_ne
  | taskFailed => rfl

/-- A wait that an interrupt does not end is the wait without one, and in any other the runs leave
each other. `proceed` is how the run without an interrupt goes on from such a wait. -/
theorem awaitBelow_parts {limit : Nat} {flights : List (Flight TransferEnd)} {ledger : Ledger}
    {proceed : Except (Halt TransferEnd) (List (Flight TransferEnd) × Ledger) → UploadRun}
    (hstop : ∀ halt, proceed (.error halt) = stop options none halt)
    (hcloses : ∀ flights' ledger', ledger'.report.submitted = ledger.report.submitted →
      Reaches uploads options none ⟨.running, flights, ledger⟩ ⟨.running, flights', ledger'⟩ →
      ∃ final, Reaches uploads options none ⟨.running, flights', ledger'⟩ final ∧
        Closes uploads options final (proceed (awaitBelow none limit flights' ledger'))) :
    awaitBelow (some time) limit flights ledger = awaitBelow none limit flights ledger ∨
      ∃ halt, awaitBelow (some time) limit flights ledger = .error halt ∧
        Parts uploads options time ⟨.running, flights, ledger⟩ (stop options (some time) halt)
          (proceed (awaitBelow none limit flights ledger)) := by
  induction flights generalizing ledger with
  | nil => exact .inl rfl
  | cons flight rest ih =>
    rw [awaitBelow, awaitBelow]
    by_cases hroom : rest.length + 1 < limit
    · rw [if_pos hroom, if_pos hroom]
      exact .inl rfl
    rw [if_neg hroom, if_neg hroom, if_neg (by simp [interrupts] : ¬interrupts none _ = true)]
    have hfree : Phase.running.Awaits none flight.finish := awaits_running rfl
    by_cases hhit : interrupts (some time) flight.finish = true
    · -- The interrupt ends the wait, and without it the upload that is waited for ends.
      rw [if_pos hhit]
      refine .inr ⟨_, rfl, ?_⟩
      have htime : time ≤ flight.finish := by simpa [interrupts] using hhit
      split
      next next hland =>
        obtain ⟨result, hend, rfl⟩ := Ledger.land_eq_ok hland
        have hstep : Step uploads options none ⟨.running, flight :: rest, ledger⟩
            ⟨.running, rest, ledger.complete flight result⟩ := .complete hfree hend
        obtain ⟨final, hrest, hclose⟩ := hcloses rest (ledger.complete flight result)
          (by simp) (.single hstep)
        exact .intro .refl htime hstep (by simp [Flight.ending_of_result hend]) hrest hclose
      next failure hland =>
        obtain ⟨text, hend, rfl⟩ := Ledger.land_eq_error hland
        rw [hstop]
        exact .intro .refl htime (.lose hfree hend) (by simp [Flight.ending_of_panicked hend])
          .refl .failed
    · rw [if_neg hhit]
      have hwait := awaits_running (Bool.eq_false_iff.mpr hhit)
      split
      next next hland =>
        obtain ⟨result, hend, rfl⟩ := Ledger.land_eq_ok hland
        have hsame : (ledger.complete flight result).report.submitted =
            ledger.report.submitted := by simp
        rcases @ih (ledger.complete flight result) (fun flights' ledger' hcount hreach =>
            hcloses flights' ledger' (hcount.trans hsame) (.head (.complete hfree hend) hreach))
          with heq | ⟨halt, heq, hparts⟩
        · exact .inl heq
        · exact .inr ⟨halt, heq, hparts.of_reaches (.single (.complete hwait hend))⟩
      · exact .inl rfl

/-- The run after the wait for all uploads in flight. -/
def afterLast (options : PoolOptions) (interrupt : Option Nat) :
    Except (Halt TransferEnd) (List (Flight TransferEnd) × Ledger) → UploadRun
  | .error halt => stop options interrupt halt
  | .ok (_, ledger) => ⟨ledger.moments, .ok ledger.close⟩

theorem finish_eq (flights : List (Flight TransferEnd)) (ledger : Ledger) :
    finish options interrupt flights ledger =
      afterLast options interrupt (awaitBelow interrupt 1 flights ledger) := by
  unfold finish
  cases awaitBelow interrupt 1 flights ledger <;> rfl

/-- Where nothing more is started a run with an interrupt is the run without one, or leaves it. -/
theorem finish_parts {flights : List (Flight TransferEnd)} {ledger : Ledger}
    (hdone : ledger.halted options.ignoreFailures = true ∨
      uploads.length ≤ ledger.report.submitted) :
    finish options (some time) flights ledger = finish options none flights ledger ∨
      Parts uploads options time ⟨.running, flights, ledger⟩
        (finish options (some time) flights ledger) (finish options none flights ledger) := by
  have hcloses : ∀ flights' ledger', ledger'.report.submitted = ledger.report.submitted →
      Reaches uploads options none ⟨.running, flights, ledger⟩ ⟨.running, flights', ledger'⟩ →
      ∃ final, Reaches uploads options none ⟨.running, flights', ledger'⟩ final ∧
        Closes uploads options final (afterLast options none
          (awaitBelow none 1 flights' ledger')) := by
    intro flights' ledger' hcount hreach
    rw [← finish_eq]
    exact finish_closes (hdone.imp hreach.halted fun h => hcount ▸ h)
  rw [finish_eq, finish_eq]
  rcases awaitBelow_parts (fun _ => rfl) hcloses with heq | ⟨halt, heq, hparts⟩
  · rw [heq]
    cases hwait : awaitBelow none 1 flights ledger with
    | ok => exact .inl rfl
    | error halt => exact .inl (stop_eq_of_awaitBelow_none hwait)
  · rw [heq]
    exact .inr hparts

section Submitting

variable {σ : Type} (start : UploadFile → StateM σ Transfer)

/-- The run after the wait for room for a file. -/
def afterRoom (options : PoolOptions) (interrupt : Option Nat) (file : UploadFile)
    (plan : List UploadFile) (state : σ) :
    Except (Halt TransferEnd) (List (Flight TransferEnd) × Ledger) → UploadRun
  | .error halt => stop options interrupt halt
  | .ok (flights, ledger) =>
    if ledger.halted options.ignoreFailures then finish options interrupt flights ledger
    else
      let answer := (start file).run state
      ((submitAll start options interrupt plan ((launch ledger file answer.1).insert flights)
        (ledger.submit file.key)).run answer.2).1

theorem submitAll_cons (file : UploadFile) (plan : List UploadFile) (state : σ)
    (flights : List (Flight TransferEnd)) (ledger : Ledger) :
    ((submitAll start options interrupt (file :: plan) flights ledger).run state).1 =
      afterRoom start options interrupt file plan state
        (awaitBelow interrupt options.threads flights ledger) := by
  rw [submitAll]
  cases awaitBelow interrupt options.threads flights ledger with
  | error halt => rfl
  | ok waited =>
    unfold afterRoom
    dsimp only
    split <;> rfl

/-- Submitting what is left of a plan with an interrupt is doing so without one, or the runs leave
each other. -/
theorem submitAll_parts (hthreads : options.threads ≠ 0) (plan : List UploadFile) (state : σ)
    (flights : List (Flight TransferEnd)) (ledger : Ledger)
    (hleft : uploads.drop ledger.report.submitted = roster start plan state) :
    let run := ((submitAll start options (some time) plan flights ledger).run state).1
    let plain := ((submitAll start options none plan flights ledger).run state).1
    run = plain ∨ Parts uploads options time ⟨.running, flights, ledger⟩ run plain := by
  induction plan generalizing state flights ledger with
  | nil => exact finish_parts (.inr (List.drop_eq_nil_iff.mp hleft))
  | cons file plan ih =>
    have hcloses : ∀ flights' ledger', ledger'.report.submitted = ledger.report.submitted →
        Reaches uploads options none ⟨.running, flights, ledger⟩ ⟨.running, flights', ledger'⟩ →
        ∃ final, Reaches uploads options none ⟨.running, flights', ledger'⟩ final ∧
          Closes uploads options final (afterRoom start options none file plan state
            (awaitBelow none options.threads flights' ledger')) := by
      intro flights' ledger' hcount _
      rw [← submitAll_cons]
      exact submitAll_closes start hthreads (file :: plan) state flights' ledger' (hcount ▸ hleft)
    rw [submitAll_cons, submitAll_cons]
    rcases awaitBelow_parts (fun _ => rfl) hcloses with heq | ⟨halt, heq, hparts⟩
    · rw [heq]
      cases hwait : awaitBelow none options.threads flights ledger with
      | error halt => exact .inl (stop_eq_of_awaitBelow_none hwait)
      | ok waited =>
        obtain ⟨flights', ledger'⟩ := waited
        obtain ⟨hreach, hroom, hsame⟩ := awaitBelow_reaches uploads options (heq.trans hwait)
        unfold afterRoom
        dsimp only
        split
        next hhalt =>
          exact (finish_parts (.inl hhalt)).imp_right (Parts.of_reaches hreach)
        next hgo =>
          have hspace : flights'.length < options.threads :=
            hroom.elim (fun h => by simp [h]; omega) id
          obtain ⟨hnext, htail⟩ := roster_cons_of_drop start (hsame ▸ hleft)
          have hlive : ledger'.halted options.ignoreFailures = false := by simpa using hgo
          have hrest := hreach.trans (.single (.submit hnext hspace hlive))
          exact (ih ((start file).run state).2 _ (ledger'.submit file.key) htail).imp_right
            (Parts.of_reaches hrest)
    · rw [heq]
      exact .inr hparts

end Submitting

/-! ## The uploads in flight end as they would have ended -/

section Landing

variable {st st' : Standing} {labels : List (Nat × String)}

theorem Step.submitted_le (h : Step uploads options interrupt st st') :
    st.ledger.report.submitted ≤ st'.ledger.report.submitted := by
  cases h <;> simp

/-- A step adds the end of the first upload in flight, or it leaves the ends that are to come of
uploads that were submitted before. -/
theorem Step.filter_lands (h : Step uploads options interrupt st st') (deadline : Nat)
    (hold : ∀ label ∈ labels, label.1 < st.ledger.report.submitted) :
    ∃ moment, st'.ledger.moments = st.ledger.moments ++ [moment] ∧
      (moment :: st'.flights.map Flight.ending).filter (Moment.lands labels deadline) =
        (st.flights.map Flight.ending).filter (Moment.lands labels deadline) := by
  cases h with
  | @submit flights ledger file transfer =>
    refine ⟨_, rfl, ?_⟩
    -- The upload that is started is none of those submitted before.
    have hnew : (launch ledger file transfer).ending.lands labels deadline = false := by
      have hfresh : (launch ledger file transfer).label ∉ labels := fun hmem =>
        absurd (hold _ hmem) (Nat.lt_irrefl _)
      simp [Moment.lands, hfresh]
    rw [List.filter_cons_of_neg (by simp [Moment.lands, Moment.ending?]), List.filter_map,
      List.filter_map, Flight.filter_insert hnew]
  | complete _ hend => exact ⟨_, rfl, by rw [List.map_cons, Flight.ending_of_result hend]⟩
  | lose _ hend => exact ⟨_, rfl, by rw [List.map_cons, Flight.ending_of_panicked hend]⟩
  | interrupt =>
    exact ⟨_, rfl, by rw [List.filter_cons_of_neg (by simp [Moment.lands, Moment.ending?])]⟩

/-- The uploads in flight end in their order or are in flight still, whatever is started
meanwhile. -/
theorem Reaches.filter_lands (h : Reaches uploads options interrupt st st') (deadline : Nat)
    (hold : ∀ label ∈ labels, label.1 < st.ledger.report.submitted) :
    ∃ more, st'.ledger.moments = st.ledger.moments ++ more ∧
      (more ++ st'.flights.map Flight.ending).filter (Moment.lands labels deadline) =
        (st.flights.map Flight.ending).filter (Moment.lands labels deadline) := by
  suffices hkeep : st.ledger.report.submitted ≤ st'.ledger.report.submitted ∧
      ∃ more, st'.ledger.moments = st.ledger.moments ++ more ∧
        (more ++ st'.flights.map Flight.ending).filter (Moment.lands labels deadline) =
          (st.flights.map Flight.ending).filter (Moment.lands labels deadline) from hkeep.2
  induction h with
  | refl => exact ⟨Nat.le_refl _, [], by simp⟩
  | tail _ hstep ih =>
    obtain ⟨hle, more, hmore, hkeep⟩ := ih
    obtain ⟨moment, hmoment, hfilter⟩ := hstep.filter_lands deadline
      fun label hlabel => Nat.lt_of_lt_of_le (hold label hlabel) hle
    refine ⟨Nat.le_trans hle hstep.submitted_le, more ++ [moment], ?_, ?_⟩
    · rw [hmoment, hmore, List.append_assoc]
    · rw [List.append_assoc, List.singleton_append, List.filter_append, hfilter,
        ← List.filter_append, hkeep]

/-- After an interrupt those uploads in flight end that do so before the deadline. -/
theorem drainUntil_moments (deadline : Nat) {flights : List (Flight TransferEnd)} (ledger : Ledger)
    (hsorted : flights.Pairwise (·.finish ≤ ·.finish)) :
    (drainUntil deadline flights ledger).moments =
      ledger.moments ++ (flights.filter (·.finish < deadline)).map Flight.ending := by
  induction flights generalizing ledger with
  | nil => simp [drainUntil]
  | cons flight rest ih =>
    obtain ⟨hfirst, hrest⟩ := List.pairwise_cons.mp hsorted
    rw [drainUntil]
    split
    next hlate =>
      -- The others end no sooner than the first.
      have hnone : (flight :: rest).filter (·.finish < deadline) = [] := by
        rw [List.filter_eq_nil_iff]
        intro other hother
        rcases List.mem_cons.mp hother with rfl | hother
        · simpa using hlate
        · simpa using Nat.le_trans hlate (hfirst other hother)
      rw [hnone]
      simp [Ledger.advance]
    next hearly =>
      have hend : flight.finish < deadline := Nat.lt_of_not_le hearly
      rw [List.filter_cons_of_pos (by simpa using hend), List.map_cons]
      split
      next next hland =>
        obtain ⟨result, hresult, rfl⟩ := Ledger.land_eq_ok hland
        simp [ih _ hrest, Flight.ending_of_result hresult]
      next failure hland =>
        obtain ⟨text, hpanic, -⟩ := Ledger.land_eq_error hland
        simp [ih _ hrest, Flight.ending_of_panicked hpanic]

/-- The uploads in flight were submitted and did not end with a result. -/
theorem Reaches.label_mem_inFlight (h : Reaches uploads options interrupt (.start uploads) st)
    {flight : Flight TransferEnd} (hflight : flight ∈ st.flights) :
    flight.label ∈ inFlight st.ledger.moments := by
  have hlabel : flight.label ∈ losses st.ledger.moments ++ st.flights.map Flight.label :=
    List.mem_append_right _ (List.mem_map_of_mem hflight)
  have hplaces : ((numbered uploads).map Prod.fst).Nodup := by
    rw [map_fst_numbered]
    exact List.nodup_range
  have hdistinct := (h.nodup_map hplaces)
  rw [← List.map_append] at hdistinct
  have hnot : flight.label ∉ completions st.ledger.moments := fun hdone =>
    List.disjoint_of_nodup_append (List.Nodup.of_map _ hdistinct) hdone hlabel
  rw [inFlight, List.mem_filter]
  exact ⟨h.submissions_perm.mem_iff.mpr (List.mem_append_right _ hlabel), by simpa using hnot⟩

/-- The uploads that are in flight were submitted before. -/
theorem Reaches.place_lt_of_mem_inFlight
    (h : Reaches uploads options interrupt (.start uploads) st) {label : Nat × String}
    (hlabel : label ∈ inFlight st.ledger.moments) : label.1 < st.ledger.report.submitted := by
  have hsubmitted : label ∈ (numbered uploads).take st.ledger.report.submitted :=
    h.submissions_eq.2 ▸ List.mem_of_mem_filter hlabel
  have hplace : label.1 ∈ (List.range uploads.length).take st.ledger.report.submitted := by
    rw [← map_fst_numbered, ← List.map_take]
    exact List.mem_map_of_mem hsubmitted
  rw [List.take_range] at hplace
  exact Nat.lt_of_lt_of_le (List.mem_range.mp hplace) (Nat.min_le_left _ _)

/-- While no interrupt takes effect all that ends does so before the interrupt. -/
theorem Reaches.isBefore (h : Reaches uploads options (some time) (.start uploads) st)
    (hfree : ∀ mark, .interrupted mark ∉ st.ledger.moments) :
    ∀ moment ∈ st.ledger.moments, moment.isBefore time = true := by
  intro moment hmem
  obtain ⟨before, after, hsplit⟩ := List.append_of_mem hmem
  cases hend : moment.ending? with
  | none => simp [Moment.isBefore, hend]
  | some ending =>
    obtain ⟨finish, label, result⟩ := ending
    -- At this time or later it would have ended after the interrupt took effect.
    have hearly : ¬time ≤ finish := by
      intro hle
      obtain ⟨mark, hmark⟩ := (h.interrupted_iff hsplit hend).mpr ⟨time, rfl, hle⟩
      apply hfree mark
      rw [hsplit]
      exact List.mem_append_left _ hmark
    simpa [Moment.isBefore, hend] using hearly

end Landing

/-- The ends of the uploads in flight before a deadline. -/
theorem filter_lands_map_ending {flights : List (Flight TransferEnd)} {labels : List (Nat × String)}
    (hlabels : ∀ flight ∈ flights, flight.label ∈ labels) (deadline : Nat) :
    (flights.map Flight.ending).filter (Moment.lands labels deadline) =
      (flights.filter (·.finish < deadline)).map Flight.ending := by
  rw [List.filter_map]
  congr 1
  apply List.filter_congr
  intro flight hflight
  simp [Moment.lands, hlabels flight hflight]

theorem pairwise_endings {flights : List (Flight TransferEnd)}
    (hsorted : flights.Pairwise (·.finish ≤ ·.finish)) :
    ((flights.map Flight.ending).filterMap Moment.ending?).Pairwise (·.1 ≤ ·.1) := by
  rw [List.filterMap_map, List.pairwise_filterMap]
  apply hsorted.imp
  intro flight later hle ending hending ending' hending'
  obtain rfl : (flight.finish, flight.label, flight.work.result?) = ending := by
    simpa using hending
  obtain rfl : (later.finish, later.label, later.work.result?) = ending' := by
    simpa using hending'
  exact hle

/-- A run that an interrupt stops lets the uploads in flight end before the deadline. -/
theorem stop_interrupted_moments {flights : List (Flight TransferEnd)} {ledger : Ledger}
    (hsorted : flights.Pairwise (·.finish ≤ ·.finish)) (hnow : ledger.now ≤ time) :
    (stop options (some time) (.interrupted flights ledger)).moments =
      ledger.moments ++ .interrupted time ::
        (flights.filter (·.finish < time + options.grace)).map Flight.ending := by
  have htime : max ledger.now time = time := Nat.max_eq_right hnow
  change (drainUntil (max ledger.now time + options.grace) flights
    (ledger.interrupt time)).moments = _
  rw [drainUntil_moments _ _ hsorted, Ledger.interrupt_moments, htime, List.append_assoc,
    List.singleton_append]

/-- The run without an interrupt goes on from a wait with the end of the upload it waits for, and
lets the uploads in flight end in their order. -/
theorem Parts.plain_moments {flight : Flight TransferEnd} {rest : List (Flight TransferEnd)}
    {ledger : Ledger} {next final : Standing} {plain : UploadRun}
    (hreach : Reaches uploads options (some time) (.start uploads)
      ⟨.running, flight :: rest, ledger⟩)
    (hstep : Step uploads options none ⟨.running, flight :: rest, ledger⟩ next)
    (hends : next.ledger.moments = ledger.moments ++ [flight.ending])
    (hrest : Reaches uploads options none next final)
    (hclose : Closes uploads options final plain) (hcalm : losses plain.moments = [])
    (deadline : Nat) :
    ∃ more, plain.moments = ledger.moments ++ flight.ending :: more ∧
      (flight.ending :: more).filter (Moment.lands (inFlight ledger.moments) deadline) =
        ((flight :: rest).filter (·.finish < deadline)).map Flight.ending := by
  rw [hclose.moments_eq] at hcalm ⊢
  have hold : ∀ label ∈ inFlight ledger.moments, label.1 < ledger.report.submitted :=
    fun label hlabel => hreach.place_lt_of_mem_inFlight hlabel
  obtain ⟨moment, hmoment, hfirst⟩ := hstep.filter_lands deadline hold
  obtain rfl : moment = flight.ending :=
    List.singleton_inj.mp (List.append_cancel_left (hmoment.symm.trans hends))
  obtain ⟨more, hmore, hlater⟩ := hrest.filter_lands deadline
    fun label hlabel => Nat.lt_of_lt_of_le (hold label hlabel) hstep.submitted_le
  -- It closes where nothing is in flight, so all that was in flight has ended.
  have hempty : final.flights = [] := by
    have hphase := Reaches.phase_eq_running (.head hstep hrest) rfl hcalm
    cases hclose with
    | done => rfl
    | drained | expired | failed => cases hphase
  refine ⟨more, by rw [hmore, hends, List.append_assoc, List.singleton_append], ?_⟩
  rw [hempty, List.map_nil, List.append_nil] at hlater
  calc (flight.ending :: more).filter (Moment.lands (inFlight ledger.moments) deadline)
      = (flight.ending :: next.flights.map Flight.ending).filter
          (Moment.lands (inFlight ledger.moments) deadline) := by
        rw [List.filter_cons, List.filter_cons, hlater]
    _ = ((flight :: rest).map Flight.ending).filter
          (Moment.lands (inFlight ledger.moments) deadline) := hfirst
    _ = ((flight :: rest).filter (·.finish < deadline)).map Flight.ending :=
        filter_lands_map_ending (fun _ h => hreach.label_mem_inFlight h) deadline

/-- A run with an interrupt that leaves the run without one is that run, cut short. -/
theorem Parts.cutShort {run plain : UploadRun}
    (h : Parts uploads options time (.start uploads) run plain)
    (hcalm : losses plain.moments = []) :
    plain.Waits time ∧ run.CutShort time options.grace plain := by
  cases h with
  | @intro flight rest ledger next final _ hreach htime hstep hends hrest hclose =>
    obtain ⟨more, hplain, hlands⟩ := plain_moments hreach hstep hends hrest hclose hcalm
      (time + options.grace)
    have hwait : flight.ending.isBefore time = false := by simpa [Moment.isBefore] using htime
    have hsorted := hreach.sorted
    obtain ⟨hbefore, hlandings⟩ :=
      UploadRun.before_eq hplain (hreach.isBefore hreach.fits.2.1) hwait
    have hmoments : (stop options (some time) (.interrupted (flight :: rest) ledger)).moments =
        plain.before time ++ .interrupted time ::
          plain.landings time (time + options.grace) := by
      rw [hbefore, hlandings, hlands, stop_interrupted_moments hsorted (hreach.now_le rfl)]
    refine ⟨⟨flight.ending, ?_, hwait⟩, ⟨hmoments, ?_, ?_, ?_, ?_⟩⟩
    · rw [hplain]
      exact List.mem_append_right _ (.head _)
    · rw [UploadRun.events, hmoments, List.filterMap_append]
      rfl
    · exact fun moment h => UploadRun.isSome_completion_of_mem_landings hcalm h
    · rw [hlandings, hlands]
      exact pairwise_endings (hsorted.filter _)
    · exact ⟨_, rfl, rfl, fun _ => rfl⟩

end Pool

section Runs

variable {σ : Type} (start : UploadFile → StateM σ Transfer) {options : PoolOptions}
variable (time : Nat) (plan : List UploadFile) (state : σ)

/-- A run with an interrupt is the run without one, or leaves it. -/
theorem runUploads_parts (hthreads : options.threads ≠ 0) :
    let plain := ((runUploads start options none plan).run state).1
    let run := ((runUploads start options (some time) plan).run state).1
    run = plain ∨ Pool.Parts (roster start plan state) options time
      (.start (roster start plan state)) run plain := by
  simp only [runUploads_eq, if_neg hthreads, Pool.Standing.start, length_roster]
  exact Pool.submitAll_parts start hthreads plan state [] (.start plan.length) rfl

/-- When the interrupt changes nothing the run was over at its time. -/
theorem not_waits_of_runUploads_eq (hthreads : options.threads ≠ 0)
    (hcalm : losses ((runUploads start options none plan).run state).1.moments = [])
    (heq : ((runUploads start options (some time) plan).run state).1 =
      ((runUploads start options none plan).run state).1) :
    ¬((runUploads start options none plan).run state).1.Waits time := by
  rintro ⟨moment, hmem, hwait⟩
  obtain ⟨final, hreach, hclose⟩ := runUploads_reaches start options none plan state hthreads
  obtain ⟨final', hreach', hclose'⟩ :=
    runUploads_reaches start options (some time) plan state hthreads
  have hsame : final'.ledger.moments = final.ledger.moments := by
    rw [← hclose.moments_eq, ← hclose'.moments_eq, heq]
  -- The interrupt has left no mark, so all uploads ended before it.
  have hfree := hreach.not_mem_interrupted (hclose.moments_eq ▸ hcalm)
  rw [hclose.moments_eq, ← hsame] at hmem
  rw [← hsame] at hfree
  exact absurd (hreach'.isBefore hfree moment hmem) (Bool.eq_false_iff.mp hwait)

end Runs

/-- A run with an interrupt is the run without one, on the same files and with the same transfers.
If that run still waits for an upload at the time of the interrupt it is cut short there, and if not
the interrupt changes nothing. In the run without an interrupt no upload panics. -/
theorem runUploads_interrupted {σ : Type} (start : UploadFile → StateM σ Transfer)
    (options : PoolOptions) (time : Nat) (plan : List UploadFile) (state : σ)
    (hcalm : losses ((runUploads start options none plan).run state).1.moments = []) :
    let plain := ((runUploads start options none plan).run state).1
    let run := ((runUploads start options (some time) plan).run state).1
    (plain.Waits time → run.CutShort time options.grace plain) ∧
      (¬plain.Waits time → run = plain) := by
  intro plain run
  by_cases hthreads : options.threads = 0
  · have hrun : run = plain := by simp only [run, plain, runUploads_eq, if_pos hthreads]
    refine ⟨?_, fun _ => hrun⟩
    rintro ⟨moment, hmem, -⟩
    -- Without threads nothing happens in a run.
    simp only [plain, runUploads_eq, if_pos hthreads] at hmem
    cases hmem
  rcases runUploads_parts start time plan state hthreads with heq | hparts
  · have hover := not_waits_of_runUploads_eq start time plan state hthreads hcalm heq
    exact ⟨fun hwaits => absurd hwaits hover, fun _ => heq⟩
  · obtain ⟨hwaits, hcut⟩ := hparts.cutShort hcalm
    exact ⟨fun _ => hcut, fun hnot => absurd hwaits hnot⟩

/-- Of four uploads on two threads one has ended when the interrupt comes, one ends in the time that
is left and one does not, and the last is not started any more. A later interrupt changes
nothing. -/
theorem runUploads_interrupted_midway :
    let plan : List UploadFile := [⟨"a", "to/a", 8⟩, ⟨"b", "to/b", 7⟩, ⟨"c", "to/c", 6⟩,
      ⟨"d", "to/d", 5⟩]
    let transfers : List Transfer := [⟨10, .written 8⟩, ⟨150, .written 7⟩, ⟨3600000, .written 6⟩,
      ⟨5, .written 5⟩]
    let start : UploadFile → StateM (List Transfer) Transfer :=
      fun _ left => (left.headD ⟨0, .written 0⟩, left.tail)
    let run := fun interrupt =>
      ((runUploads start ⟨2, false, 1000⟩ interrupt plan).run transfers).1
    losses (run none).moments = [] ∧ (run none).Waits 50 ∧ ¬(run none).Waits 4000000 ∧
      completions ((run none).landings 50 1050) = [(1, "to/b")] ∧
      (run (some 50)).CutShort 50 1000 (run none) ∧ run (some 4000000) = run none := by
  intro plan transfers start run
  have hcalm : losses (run none).moments = [] := by decide +kernel
  have hwaits : (run none).Waits 50 := by decide +kernel
  have hover : ¬(run none).Waits 4000000 := by decide +kernel
  have hcut := (runUploads_interrupted start ⟨2, false, 1000⟩ 50 plan transfers hcalm).1 hwaits
  have hsame := (runUploads_interrupted start ⟨2, false, 1000⟩ 4000000 plan transfers hcalm).2 hover
  have hland : completions ((run none).landings 50 1050) = [(1, "to/b")] := by decide +kernel
  exact ⟨hcalm, hwaits, hover, hland, hcut, hsame⟩

end BucketCare

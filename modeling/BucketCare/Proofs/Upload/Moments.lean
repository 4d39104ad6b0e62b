import BucketCare.Proofs.Upload.Steps

/-!
# What the moments of a run tell

The moments of a run say which uploads were submitted, which ended, and which are in flight. Each
statement here holds wherever a run can get, and is proved by a look at each step.

## Main definitions

* `submissions`, `completions`, `losses` — the uploads of some moments, by place and key
* `numbered` — the uploads of a roster, by place and key

## Main results

* `Pool.Reaches.submissions_eq` — the submitted uploads are the first of the roster
* `Pool.Reaches.submissions_perm` — each submitted upload has ended or is in flight, and only one of
  these
* `Pool.Reaches.launched` — an upload in flight ends as the roster says
* `Pool.Reaches.losses_add_flights_le` — no more uploads are in flight than there are threads
* `Pool.Reaches.fits` — what a run is doing shows in its moments
-/

namespace BucketCare

namespace Moment

/-- The upload that is started, by place and key. -/
@[simp] def submission? : Moment → Option (Nat × String)
  | .submitted _ place key => some (place, key)
  | _ => none

/-- The upload that ends with a result, by place and key. -/
@[simp] def completion? : Moment → Option (Nat × String)
  | .completed _ place key _ => some (place, key)
  | _ => none

/-- The upload that ends without a result, by place and key. -/
@[simp] def loss? : Moment → Option (Nat × String)
  | .panicked _ place key => some (place, key)
  | _ => none

end Moment

/-- The uploads that are submitted, in order. -/
def submissions (moments : List Moment) : List (Nat × String) :=
  moments.filterMap Moment.submission?

/-- The uploads that end with a result, in order. -/
def completions (moments : List Moment) : List (Nat × String) :=
  moments.filterMap Moment.completion?

/-- The uploads that end without a result, in order. -/
def losses (moments : List Moment) : List (Nat × String) := moments.filterMap Moment.loss?

section Views

variable (moments : List Moment) (moment : Moment)

@[simp] theorem submissions_nil : submissions [] = [] := rfl

@[simp] theorem completions_nil : completions [] = [] := rfl

@[simp] theorem losses_nil : losses [] = [] := rfl

@[simp] theorem submissions_concat :
    submissions (moments ++ [moment]) = submissions moments ++ moment.submission?.toList := by
  cases moment <;> simp [submissions]

@[simp] theorem completions_concat :
    completions (moments ++ [moment]) = completions moments ++ moment.completion?.toList := by
  cases moment <;> simp [completions]

@[simp] theorem losses_concat :
    losses (moments ++ [moment]) = losses moments ++ moment.loss?.toList := by
  cases moment <;> simp [losses]

end Views

/-- The uploads of a roster, by place and key. -/
def numbered (uploads : List (UploadFile × Transfer)) : List (Nat × String) :=
  uploads.zipIdx.map fun entry => (entry.2, entry.1.1.key)

theorem getElem?_numbered {uploads : List (UploadFile × Transfer)} {place : Nat}
    {file : UploadFile} {transfer : Transfer} (h : uploads[place]? = some (file, transfer)) :
    (numbered uploads)[place]? = some (place, file.key) := by
  simp [numbered, h]

theorem map_fst_numbered (uploads : List (UploadFile × Transfer)) :
    (numbered uploads).map Prod.fst = List.range uploads.length := by
  rw [numbered, List.map_map, List.range_eq_range']
  exact List.zipIdx_map_snd 0 uploads

theorem map_snd_numbered (uploads : List (UploadFile × Transfer)) :
    (numbered uploads).map Prod.snd = (uploads.map Prod.fst).map UploadFile.key := by
  calc (numbered uploads).map Prod.snd
      = (uploads.zipIdx.map Prod.fst).map (UploadFile.key ∘ Prod.fst) := by
        rw [numbered, List.map_map, List.map_map]; rfl
    _ = (uploads.map Prod.fst).map UploadFile.key := by rw [List.zipIdx_map_fst, List.map_map]

namespace Flight

/-- The upload that is in flight, by place and key. -/
def label (flight : Flight TransferEnd) : Nat × String := (flight.place, flight.key)

theorem insert_perm {τ : Type} (flight : Flight τ) (flights : List (Flight τ)) :
    (flight.insert flights).Perm (flight :: flights) := by
  induction flights with
  | nil => exact .refl _
  | cons other rest ih =>
    rw [insert]
    split
    · exact .refl _
    · exact (ih.cons other).trans (.swap flight other rest)

/-- The labels of the uploads in flight, when one is added, behind some others. -/
theorem labels_insert_perm (others : List (Nat × String)) (flight : Flight TransferEnd)
    (flights : List (Flight TransferEnd)) : (others ++ (flight.insert flights).map label).Perm
      (flight.label :: (others ++ flights.map label)) :=
  (((insert_perm flight flights).map label).append_left others).trans List.perm_middle

theorem insert_sorted {flight : Flight TransferEnd} {flights : List (Flight TransferEnd)}
    (h : flights.Pairwise (·.finish ≤ ·.finish)) :
    (flight.insert flights).Pairwise (·.finish ≤ ·.finish) := by
  induction flights with
  | nil => exact List.pairwise_singleton _ _
  | cons other rest ih =>
    obtain ⟨hother, hrest⟩ := List.pairwise_cons.mp h
    rw [insert]
    split
    next hlt =>
      refine List.pairwise_cons.mpr ⟨fun next hnext => ?_, h⟩
      rcases List.mem_cons.mp hnext with rfl | hnext
      · exact Nat.le_of_lt hlt
      · exact Nat.le_trans (Nat.le_of_lt hlt) (hother next hnext)
    next hge =>
      refine List.pairwise_cons.mpr ⟨fun next hnext => ?_, ih hrest⟩
      rcases List.mem_cons.mp ((insert_perm flight rest).mem_iff.mp hnext) with rfl | hnext
      · exact Nat.le_of_not_lt hge
      · exact hother next hnext

end Flight

/-- The upload was started at some time, and it ends when and as the roster says. -/
def Flight.Launched (uploads : List (UploadFile × Transfer)) (moments : List Moment)
    (flight : Flight TransferEnd) : Prop :=
  ∃ began file transfer, uploads[flight.place]? = some (file, transfer) ∧
    .submitted began flight.place file.key ∈ moments ∧ flight.key = file.key ∧
    flight.finish = began + transfer.milliseconds ∧ flight.work = transfer.outcome

theorem Flight.Launched.concat {uploads : List (UploadFile × Transfer)} {moments : List Moment}
    {flight : Flight TransferEnd} (h : flight.Launched uploads moments) (moment : Moment) :
    flight.Launched uploads (moments ++ [moment]) := by
  obtain ⟨began, file, transfer, hroster, hbegan, hrest⟩ := h
  exact ⟨began, file, transfer, hroster, List.mem_append_left _ hbegan, hrest⟩

namespace Pool

variable {uploads : List (UploadFile × Transfer)} {options : PoolOptions} {interrupt : Option Nat}
variable {st : Standing}

/-- The submitted uploads are the first of the roster, in its order, and the report counts them. -/
theorem Reaches.submissions_eq (h : Reaches uploads options interrupt (.start uploads) st) :
    st.ledger.report.submitted ≤ uploads.length ∧
      submissions st.ledger.moments = (numbered uploads).take st.ledger.report.submitted := by
  induction h with
  | refl => exact ⟨Nat.zero_le _, rfl⟩
  | tail _ hstep ih =>
    cases hstep with
    | @submit _ ledger file transfer hnext =>
      obtain ⟨hbound, -⟩ := List.getElem?_eq_some_iff.mp hnext
      exact ⟨hbound, by simp [ih.2, List.take_add_one, getElem?_numbered hnext]⟩
    | complete | lose | interrupt => simpa using ih

/-- Each submitted upload ended with a result, ended without one or is in flight, and only one of
these. -/
theorem Reaches.submissions_perm (h : Reaches uploads options interrupt (.start uploads) st) :
    (submissions st.ledger.moments).Perm (completions st.ledger.moments ++
      (losses st.ledger.moments ++ st.flights.map Flight.label)) := by
  induction h with
  | refl => exact .refl _
  | tail _ hstep ih =>
    cases hstep with
    | @submit flights ledger file transfer =>
      simp only [Ledger.submit_moments, submissions_concat, completions_concat, losses_concat,
        Moment.submission?, Moment.completion?, Moment.loss?, Option.toList_some,
        Option.toList_none, List.append_nil] at ih ⊢
      have hinsert := Flight.labels_insert_perm
        (completions ledger.moments ++ losses ledger.moments) (launch ledger file transfer) flights
      calc (submissions ledger.moments ++ [(ledger.report.submitted, file.key)]).Perm
            ((ledger.report.submitted, file.key) :: submissions ledger.moments) :=
          List.perm_append_singleton ..
        List.Perm _ ((ledger.report.submitted, file.key) :: (completions ledger.moments ++
            (losses ledger.moments ++ flights.map Flight.label))) := ih.cons _
        List.Perm _ _ := by simpa [Flight.label, launch] using hinsert.symm
    | @complete _ flight rest ledger =>
      -- The upload goes over from those in flight to those that ended.
      have hmiddle : (losses ledger.moments ++ flight.label :: rest.map Flight.label).Perm
          (flight.label :: (losses ledger.moments ++ rest.map Flight.label)) := List.perm_middle
      simpa [Flight.label] using ih.trans (hmiddle.append_left _)
    | lose => simpa [Flight.label] using ih
    | interrupt => simpa using ih

/-- Each upload in flight was started before, and ends when and as the roster says. -/
theorem Reaches.launched (h : Reaches uploads options interrupt (.start uploads) st) :
    ∀ flight ∈ st.flights, flight.Launched uploads st.ledger.moments := by
  induction h with
  | refl => simp [Standing.start]
  | tail _ hstep ih =>
    obtain ⟨moment, hmoment⟩ := hstep.exists_moment
    rw [hmoment]
    cases hstep with
    | @submit flights ledger file transfer hnext =>
      intro flight hflight
      rcases List.mem_cons.mp ((Flight.insert_perm _ flights).mem_iff.mp hflight) with rfl | hflight
      · refine ⟨ledger.now, file, transfer, hnext, ?_, rfl, rfl, rfl⟩
        obtain rfl := List.singleton_inj.mp (List.append_cancel_left hmoment)
        simp [launch]
      · exact (ih flight hflight).concat moment
    | complete | lose =>
      intro flight hflight
      exact (ih flight (List.mem_cons_of_mem _ hflight)).concat moment
    | interrupt =>
      intro flight hflight
      exact (ih flight hflight).concat moment

/-- The uploads in flight are ordered by their ends. -/
theorem Reaches.sorted (h : Reaches uploads options interrupt (.start uploads) st) :
    st.flights.Pairwise (·.finish ≤ ·.finish) := by
  induction h with
  | refl => exact .nil
  | tail _ hstep ih =>
    cases hstep with
    | submit => exact Flight.insert_sorted ih
    | complete | lose => exact ih.of_cons
    | interrupt => exact ih

/-- What a run is doing shows in its moments. While uploads are started none has panicked and no
interrupt has taken effect, and time has not got to one; afterwards those in flight end no sooner
than the interrupt. -/
def Standing.Fits (interrupt : Option Nat) (st : Standing) : Prop :=
  match st.phase with
  | .running => losses st.ledger.moments = [] ∧ (∀ time, .interrupted time ∉ st.ledger.moments) ∧
      ∀ time, interrupt = some time → st.ledger.now = 0 ∨ st.ledger.now < time
  | .grace _ => (∃ time, .interrupted time ∈ st.ledger.moments) ∧
      ∃ time, interrupt = some time ∧ ∀ flight ∈ st.flights, time ≤ flight.finish
  | .failed _ => True

theorem Reaches.fits (h : Reaches uploads options interrupt (.start uploads) st) :
    st.Fits interrupt := by
  induction h with
  | refl => exact ⟨rfl, by simp [Standing.start, Ledger.start], fun _ _ => .inl rfl⟩
  | tail hreach hstep ih =>
    cases hstep with
    | submit =>
      obtain ⟨hlosses, hfree, hnow⟩ := ih
      exact ⟨by simpa using hlosses, by simpa using hfree, hnow⟩
    | @complete phase flight rest ledger result hwait =>
      cases phase with
      | running =>
        obtain ⟨hlosses, hfree, -⟩ := ih
        exact ⟨by simpa using hlosses, by simpa using hfree,
          fun time htime => .inr (hwait time htime)⟩
      | grace deadline =>
        obtain ⟨hmark, time, htime, hlate⟩ := ih
        exact ⟨by simpa using hmark, time, htime, fun other h => hlate other (.tail _ h)⟩
      | failed error => trivial
    | @lose phase flight rest ledger text hwait =>
      cases phase with
      | running | failed => trivial
      | grace deadline =>
        obtain ⟨hmark, time, htime, hlate⟩ := ih
        exact ⟨by simpa using hmark, time, htime, fun other h => hlate other (.tail _ h)⟩
    | @interrupt flight rest ledger time htime hwait =>
      -- The upload that ends first ends no sooner than the interrupt, so neither do the others.
      refine ⟨⟨_, List.mem_append_right _ (.head _)⟩, time, htime, ?_⟩
      intro other hother
      rcases List.mem_cons.mp hother with rfl | hother
      · exact hwait
      · exact Nat.le_trans hwait (List.rel_of_pairwise_cons (Reaches.sorted hreach) hother)

/-- While uploads are started time does not get past the interrupt. -/
theorem Reaches.now_le {flights : List (Flight TransferEnd)} {ledger : Ledger} {time : Nat}
    (h : Reaches uploads options interrupt (.start uploads) ⟨.running, flights, ledger⟩)
    (htime : interrupt = some time) : ledger.now ≤ time := by
  rcases h.fits.2.2 time htime with hzero | hlt
  · exact Nat.le_trans (Nat.le_of_eq hzero) (Nat.zero_le time)
  · exact Nat.le_of_lt hlt

/-- Without an interrupt and without a panic a run starts uploads and waits for them to its end. -/
theorem Reaches.phase_eq_running {st' : Standing}
    (h : Reaches uploads options none st st')
    (hstart : st.phase = .running) (hcalm : losses st'.ledger.moments = []) :
    st'.phase = .running := by
  induction h with
  | refl => exact hstart
  | tail _ hstep ih =>
    cases hstep with
    | submit => rfl
    | complete => exact ih (by simpa using hcalm)
    | lose => simp at hcalm
    | interrupt htime => cases htime

/-- Without an interrupt none takes effect. -/
theorem Reaches.not_mem_interrupted (h : Reaches uploads options none (.start uploads) st)
    (hcalm : losses st.ledger.moments = []) (time : Nat) :
    .interrupted time ∉ st.ledger.moments := by
  obtain ⟨phase, flights, ledger⟩ := st
  obtain rfl : phase = .running := h.phase_eq_running rfl hcalm
  exact h.fits.2.1 time

/-- No more uploads are in flight than there are threads, those included that panicked. -/
theorem Reaches.losses_add_flights_le (h : Reaches uploads options interrupt (.start uploads) st) :
    (losses st.ledger.moments).length + st.flights.length ≤ options.threads := by
  induction h with
  | refl => exact Nat.zero_le _
  | tail hreach hstep ih =>
    cases hstep with
    | @submit flights ledger file transfer _ hroom =>
      -- While uploads are started none has panicked, and the pool waited for room.
      have hinsert := ((launch ledger file transfer).insert_perm flights).length_eq
      simp only [Ledger.submit_moments, losses_concat, Moment.loss?, (Reaches.fits hreach).1,
        hinsert]
      simpa using Nat.succ_le_of_lt hroom
    | complete | lose =>
      simp only [Ledger.complete_moments, Ledger.lose_moments, losses_concat, Moment.loss?,
        Option.toList_none, Option.toList_some, List.length_append, List.length_cons,
        List.length_nil] at ih ⊢
      omega
    | interrupt => simpa using ih

end Pool

end BucketCare

import BucketCare.Proofs.Version.Archive
import Mathlib.Data.List.TakeWhile

/-!
# Undeleting and the previous versions

Undeleting removes what a page lists as a latest marker. A marker is the latest when nothing above
it is left, so what was removed of a stack is always its top, and versions are never removed. The
marker that was on top at first is listed as the latest unless it is gone by then, so it does go.
The object below it is visible again when no second marker follows.

A second marker comes from deleting an object that is deleted already. It is not the latest while
the first one is there, and so it stays.

## Main definitions

* `removable` — what of a page is removed
* `Stored.Covers` — a marker that hides a file below a path
* `Uncovers` — what is chosen for removal among the entries that were read

## Main results

* `Uncovers.page` — one page
* `Uncovers.exists_markers`, `Uncovers.visible` — the stacks that are left
* `Command.undelete_shows_previous` — a run of the command
* `Command.undelete_leaves_hidden` — a run that leaves an object hidden
-/

namespace BucketCare

/-! ## What is removed of a page -/

namespace Command

/-- The markers of some entries that are removed. -/
def removable (accept : VersionEntry → Bool) (entries : List VersionEntry) : List Candidate :=
  (entries.filter fun entry => entry.isUndeletable && accept entry).map VersionEntry.candidate

theorem removable_cons (accept : VersionEntry → Bool) (entry : VersionEntry)
    (rest : List VersionEntry) :
    removable accept (entry :: rest) =
      if entry.isUndeletable && accept entry then entry.candidate :: removable accept rest
      else removable accept rest := by
  unfold removable
  rw [List.filter_cons]
  split <;> rfl

/-- The markers of a page are pushed in their order. -/
theorem UndeleteState.visit_leads {σ : Type} {inv : List (List Candidate) → σ → Prop}
    {failed : Error → Prop} {deleter : Deleter σ} {size : Nat} (hdeleter : deleter.Sends inv failed)
    (hmax : size ≤ maxPageSize) (bucket : String) (accept : VersionEntry → Bool)
    (entries : List VersionEntry) (candidates : List Candidate) (state : UndeleteState) :
    LeadsTo (state.batcher.Shares inv size candidates) (visit bucket accept deleter entries state)
      fun answer link => answer.1.elim
        (answer.2.Goes (fun _ => False) fun next =>
          next.batcher.Shares inv size (candidates ++ removable accept entries) link)
        failed := by
  induction entries generalizing candidates state with
  | nil =>
    apply LeadsTo.pure
    intro link hshares
    rw [removable, List.filter_nil, List.map_nil, List.append_nil]
    exact hshares
  | cons entry rest ih =>
    rw [visit, removable_cons]
    split
    next hremoved =>
      refine (Batcher.Shares.push state.batcher candidates hdeleter hmax entry.candidate).bind ?_
      rintro ⟨answer, batcher⟩
      cases answer with
      | error e => exact .pure fun _ he => he
      | ok _ =>
        rw [List.append_cons _ _ (removable accept rest)]
        exact ih _ ⟨_, batcher⟩
    next hkept => exact ih _ _

end Command

/-! ## What is chosen -/

/-- A marker that hides a file whose key begins with a text. -/
structure Stored.Covers (start : String) (item : Stored) : Prop where
  marker : item.isMarker = true
  begins : BeginsWith start item.key
  file : isDirectoryMarker item.key = false

/-- What is chosen for removal among the entries before a place: only markers, with each of them all
that is above it, and every marker on top of its stack. -/
structure Uncovers (start : String) (items before : List Stored) (chosen : List Candidate) :
    Prop where
  covers : ∀ item ∈ items, item.candidate ∈ chosen → item.Covers start
  above : items.Pairwise fun newer older =>
    newer.key = older.key → older.candidate ∈ chosen → newer.candidate ∈ chosen
  top : ∀ item ∈ before, IsFirst items item → item.Covers start → item.candidate ∈ chosen

open Command (removable)

section Choosing

variable {σ : Type} {archive : Archive σ} {start : String}
variable {items before shown : List Stored} {seen chosen : List Candidate}
variable {content : List VersionEntry}

/-- What is listed before the newest that is left of a stack is deleted. -/
theorem gone_before_first {newer item : Stored} {gone : List Candidate}
    (h : IsFirst (remaining items gone) item) (hdistinct : items.Nodup)
    (hbefore : [newer, item].Sublist items) (hkey : newer.key = item.key) :
    newer.candidate ∈ gone := by
  by_contra hkept
  have hleft : item.candidate ∉ gone := (mem_remaining.mp h.mem).2
  obtain ⟨older, holder⟩ := List.head?_eq_some_iff.mp h
  have hstacked : [newer, item].Sublist (stack (remaining items gone) item.key) := by
    have hfiltered := (hbefore.filter fun item => !gone.contains item.candidate).filter
      (·.key == item.key)
    simpa [stack, remaining, hkept, hleft, hkey] using hfiltered
  have hnodup : (stack (remaining items gone) item.key).Nodup := (hdistinct.filter _).filter _
  -- Of two entries that are left, the second is not the newest.
  rw [holder] at hstacked hnodup
  have hbelow : item ∈ older := by
    rcases List.cons_sublist_cons'.mp hstacked with hboth | ⟨-, hitem⟩
    · exact hboth.subset (by simp)
    · exact hitem.subset (by simp)
  exact (List.nodup_cons.mp hnodup).1 hbelow

variable {accept : VersionEntry → Bool}

/-- What of a page is removed when every age is accepted. -/
theorem mem_removable_of_shows (hshows : archive.Shows seen start shown content)
    (haccept : ∀ entry, accept entry = true) {candidate : Candidate} :
    candidate ∈ removable accept content ↔
      ∃ item ∈ shown, item.Covers start ∧ IsFirst (remaining archive.items seen) item ∧
        candidate = item.candidate := by
  rw [removable, hshows.mem_candidates]
  simp only [haccept, Bool.and_true, VersionEntry.isUndeletable, Stored.entry_isMarker,
    Stored.entry_isLatest, Stored.entry_isDirectory, Archive.isLatest, Bool.and_eq_true,
    Bool.not_eq_true', decide_eq_true_eq]
  constructor
  · rintro ⟨item, hitem, hstart, -, ⟨⟨hmarker, hlatest⟩, hfile⟩, hsame⟩
    exact ⟨item, hitem, ⟨hmarker, hstart, hfile⟩, hlatest, hsame⟩
  · rintro ⟨item, hitem, hcovers, hlatest, hsame⟩
    have hunseen : item.candidate ∉ seen := (mem_remaining.mp hlatest.mem).2
    exact ⟨item, hitem, hcovers.begins, hunseen, ⟨⟨hcovers.marker, hlatest⟩, hcovers.file⟩, hsame⟩

theorem Uncovers.nil (start : String) (items : List Stored) : Uncovers start items [] [] :=
  ⟨nofun, List.pairwise_of_forall fun _ _ _ => nofun, nofun⟩

/-- A page is added to what was read. Whatever it takes for deleted was chosen before. -/
theorem Uncovers.page (h : Uncovers start archive.items before chosen)
    (hdistinct : (archive.items.map Stored.candidate).Nodup)
    (haccept : ∀ entry, accept entry = true) (hseen : seen ⊆ chosen)
    (hshows : archive.Shows seen start shown content) :
    Uncovers start archive.items (before ++ shown) (chosen ++ removable accept content) := by
  have hremoved : ∀ item ∈ archive.items, item.candidate ∈ removable accept content →
      item.Covers start ∧ IsFirst (remaining archive.items seen) item := by
    intro item hitem hcandidate
    obtain ⟨other, -, hcovers, hlatest, hsame⟩ :=
      (mem_removable_of_shows hshows haccept).mp hcandidate
    have hother : other ∈ archive.items := (mem_remaining.mp hlatest.mem).1
    obtain rfl := List.inj_on_of_nodup_map hdistinct hitem hother hsame
    exact ⟨hcovers, hlatest⟩
  refine ⟨?_, ?_, ?_⟩
  · intro item hitem hcandidate
    rcases List.mem_append.mp hcandidate with hearlier | hnow
    · exact h.covers item hitem hearlier
    · exact (hremoved item hitem hnow).1
  · rw [List.pairwise_iff_forall_sublist]
    intro newer older hbefore hkey hcandidate
    apply List.mem_append_left
    rcases List.mem_append.mp hcandidate with hearlier | hnow
    · exact List.pairwise_iff_forall_sublist.mp h.above hbefore hkey hearlier
    · -- It is listed as the latest, so what was above it is gone.
      have holder : older ∈ archive.items := hbefore.subset (by simp)
      have hlatest := (hremoved older holder hnow).2
      exact hseen (gone_before_first hlatest (List.Nodup.of_map _ hdistinct) hbefore hkey)
  · intro item hitem hfirst hcovers
    apply List.mem_append.mpr
    rcases List.mem_append.mp hitem with hearlier | hnow
    · exact .inl (h.top item hearlier hfirst hcovers)
    · -- The top of a stack is listed as the latest as long as it is there.
      by_cases hgone : item.candidate ∈ seen
      · exact .inl (hseen hgone)
      · exact .inr ((mem_removable_of_shows hshows haccept).mpr
          ⟨item, hnow, hcovers, hfirst.remaining hgone, rfl⟩)

end Choosing

/-! ## What is left -/

/-- Where a predicate passes from every element to those before it, filtering it out drops a
beginning of the list. -/
theorem takeWhile_append_filter_not {α : Type} {p : α → Bool} {l : List α}
    (h : l.Pairwise fun a b => p b = true → p a = true) :
    l.takeWhile p ++ l.filter (fun a => !p a) = l := by
  induction l with
  | nil => rfl
  | cons a l ih =>
    obtain ⟨hfirst, hrest⟩ := List.pairwise_cons.mp h
    cases ha : p a with
    | true => simp [ha, ih hrest]
    | false =>
      have hnone : ∀ b ∈ l, (!p b) = true := by
        intro b hb
        cases hpb : p b with
        | false => rfl
        | true => exact absurd (hfirst b hb hpb) (by simp [ha])
      simp [ha, List.filter_eq_self.mpr hnone]

namespace Uncovers

variable {start : String} {items : List Stored} {chosen : List Candidate}

/-- From a stack a number of markers is gone from the top. -/
theorem exists_markers (h : Uncovers start items items chosen) (key : String) :
    ∃ markers, stack items key = markers ++ stack (remaining items chosen) key ∧
      ∀ item ∈ markers, item.Covers start := by
  have hpairwise : (stack items key).Pairwise fun newer older =>
      chosen.contains older.candidate = true → chosen.contains newer.candidate = true := by
    refine (h.above.sublist List.filter_sublist).imp_of_mem ?_
    intro newer older hnewer holder habove hchosen
    have hkey : newer.key = older.key := (mem_stack.mp hnewer).2.trans (mem_stack.mp holder).2.symm
    simpa using habove hkey (by simpa using hchosen)
  refine ⟨(stack items key).takeWhile fun item => chosen.contains item.candidate, ?_, ?_⟩
  · rw [stack_remaining]
    exact (takeWhile_append_filter_not hpairwise).symm
  · intro item hitem
    have hchosen := List.mem_takeWhile_imp hitem
    have hstacked := (List.takeWhile_sublist _).subset hitem
    exact h.covers item (mem_stack.mp hstacked).1 (by simpa using hchosen)

/-- The version below a single marker is the current object again. -/
theorem visible (h : Uncovers start items items chosen) {key : String} {marker version : Stored}
    {older : List Stored} (hstack : stack items key = marker :: version :: older)
    (hcovers : marker.Covers start) (hversion : version.isMarker = false) :
    current? (remaining items chosen) key = some version := by
  obtain ⟨hmarker, hkey⟩ := mem_stack.mp (by rw [hstack]; simp : marker ∈ stack items key)
  obtain ⟨hbelow, -⟩ := mem_stack.mp (by rw [hstack]; simp : version ∈ stack items key)
  have hfirst : IsFirst items marker := by rw [IsFirst, hkey, hstack, List.head?_cons]
  have hgone : marker.candidate ∈ chosen := h.top marker hmarker hfirst hcovers
  -- No version is ever chosen.
  have hkept : version.candidate ∉ chosen := by
    intro hchosen
    have hmarks := (h.covers version hbelow hchosen).marker
    rw [hversion] at hmarks
    cases hmarks
  rw [current?, stack_remaining, hstack]
  simp [remaining, hgone, hkept, hversion]

end Uncovers

/-! ## A run of the command -/

namespace Command

section Running

variable {σ : Type} {link : Link σ} {archive : Archive σ} {client : Client σ} {start : String}
variable {accept : VersionEntry → Bool} {size : Nat}

namespace UndeleteState

/-- A listing stands between some entries, and the markers before it were pushed. -/
def Unread (archive : Archive σ) (start : String) (size n : Nat) (token : Option VersionMarker)
    (state : UndeleteState) (link : σ) : Prop :=
  ∃ before after chosen, archive.StandsAt n token before after ∧
    Uncovers start archive.items before chosen ∧
    state.batcher.Shares archive.HasLost size chosen link

/-- A page was fetched, and its markers are still to be pushed. -/
def Shown (archive : Archive σ) (start : String) (accept : VersionEntry → Bool) (size n : Nat)
    (page : Page (List VersionEntry) VersionMarker) (state : UndeleteState) (link : σ) : Prop :=
  ∃ before after chosen,
    (if page.continues then archive.StandsAt n page.next before after
      else before = archive.items) ∧
    Uncovers start archive.items before (chosen ++ removable accept page.content) ∧
    state.batcher.Shares archive.HasLost size chosen link

/-- All entries were read, and the markers were pushed. -/
def Done (archive : Archive σ) (start : String) (size : Nat) (state : UndeleteState) (link : σ) :
    Prop :=
  ∃ chosen, Uncovers start archive.items archive.items chosen ∧
    state.batcher.Shares archive.HasLost size chosen link

/-- The page behind a place. A fetch that fails changes nothing. -/
theorem fetch_leads (hserves : link.Serves archive) (hlink : client.link = link)
    (haccept : ∀ entry, accept entry = true) (n : Nat) (token : Option VersionMarker)
    (state : UndeleteState) :
    LeadsTo (Unread archive start size n token state)
      (VersionListing.source client ⟨archive.bucket, start⟩ token) fun answer link =>
      Settles (fun _ => True ∧ Unread archive start size n token state link)
        (fun page => ∃ m < n, Shown archive start accept size m page state link) answer := by
  apply LeadsTo.of_forall
  rintro link' ⟨before, after, chosen, hstands, huncovers, batches, hlost, hbatched, htotals⟩
  obtain rfl := hstands.token_eq
  refine ((hserves.source_leads hlink start hstands.between batches.flatten).at_state hlost).mono ?_
  rintro answer link'' ⟨hgone, hpage⟩
  have hshares : state.batcher.Shares archive.HasLost size chosen link'' :=
    ⟨batches, hgone, hbatched, htotals⟩
  cases answer with
  | error e => exact ⟨trivial, before, after, chosen, hstands, huncovers, hshares⟩
  | ok page =>
    obtain ⟨shown, rest, seen, rfl, hseen, -, hshows, hfollows⟩ := hpage page rfl
    have hchosen : batches.flatten ⊆ chosen := by
      rw [← hbatched.sent_append_pending]
      exact List.subset_append_left _ _
    obtain ⟨m, hm, hnext⟩ := hfollows.stands hstands
    exact ⟨m, hm, before ++ shown, rest, chosen, hnext,
      huncovers.page hserves.distinct haccept (List.Subset.trans hseen hchosen) hshows, hshares⟩

/-- A page leads to the place behind it, or to the end. -/
theorem shown_leads (hserves : link.Serves archive) (hlink : client.link = link)
    (hmax : size ≤ maxPageSize) (n : Nat) (page : Page (List VersionEntry) VersionMarker)
    (state : UndeleteState) :
    LeadsTo (Shown archive start accept size n page state)
      (visit archive.bucket accept (client.deleter archive.bucket) page.content state)
      fun answer link => answer.1.elim
        (answer.2.Goes (Done archive start size · link) fun next =>
          if page.continues then Unread archive start size n page.next next link
          else Done archive start size next link)
        fun _ => True := by
  apply LeadsTo.of_forall
  rintro link' ⟨before, after, chosen, hnext, huncovers, hshares⟩
  have hvisit := visit_leads (hserves.deleter_sends hlink) hmax archive.bucket accept page.content
    chosen state
  refine (hvisit.at_state hshares).mono ?_
  rintro ⟨failure, outcome⟩ link'' hanswer
  cases failure with
  | some e => trivial
  | none =>
    cases outcome with
    | stop next => exact hanswer.elim
    | more next =>
      change if page.continues then _ else _
      split at hnext
      next hcontinues =>
        rw [if_pos hcontinues]
        exact ⟨before, after, _, hnext, huncovers, hanswer⟩
      next hlast =>
        subst hnext
        rw [if_neg hlast]
        exact ⟨_, huncovers, hanswer⟩

/-- Reading a listing to its end pushes the markers of all of it. -/
theorem visiting_leads (hserves : link.Serves archive) (hlink : client.link = link)
    (haccept : ∀ entry, accept entry = true) (hcount : archive.items.length < Run.allPages)
    (hpos : 1 ≤ size) (hmax : size ≤ maxPageSize) :
    LeadsTo (fun state => archive.gone state = [])
      (visiting (VersionListing.source client ⟨archive.bucket, start⟩)
        (visit archive.bucket accept (client.deleter archive.bucket)) ⟨[], size, [], 0, 0, 0⟩)
      fun visited link =>
        visited.failure.elim (Done archive start size visited.state link) fun _ => True := by
  have hzero : ∀ token state link, ¬ Unread archive start size 0 token state link := by
    rintro token state link ⟨before, after, chosen, hstands, -⟩
    exact absurd hstands.bound (Nat.zero_ne_add_one _)
  refine (Command.visiting_leads _ _ _ hzero (fetch_leads hserves hlink haccept)
    (shown_leads hserves hlink hmax) (n := archive.items.length + 1) hcount _).weaken ?_
  intro link' hfresh
  exact ⟨[], archive.items, [], .start archive, .nil start archive.items,
    Batcher.shares_new hpos hfresh⟩

/-- When the last request has succeeded, the markers of all entries are removed. -/
theorem finish_leads (hserves : link.Serves archive) (hlink : client.link = link) (hpos : 1 ≤ size)
    (hmax : size ≤ maxPageSize) (state : UndeleteState) :
    LeadsTo (Done archive start size state)
      (state.batcher.finish (client.deleter archive.bucket)) fun answer link =>
      ∀ summary, answer = .ok summary →
        Uncovers start archive.items archive.items (archive.gone link) := by
  apply LeadsTo.of_forall
  rintro link' ⟨chosen, huncovers, hshares⟩
  have hfinish := Batcher.Shares.finish state.batcher chosen (hserves.deleter_sends hlink) hmax
  refine (hfinish.at_state hshares).mono ?_
  rintro _ link'' hsettled summary rfl
  have hgone : archive.gone link'' = chosen := hsettled.1.trans (inPages_flatten hpos _)
  rwa [hgone]

end UndeleteState

variable {machine : Machine σ}

/-- A run that has succeeded has removed what should go. -/
theorem undelete_uncovers (hserves : machine.link.Serves archive)
    (hcount : archive.items.length < Run.allPages) (settingsPath : Option String)
    {options : UndeleteOptions} (hpath : StorePath.parse options.path = .ok ⟨archive.bucket, start⟩)
    (hreal : options.dryRun = false) (hsince : options.since = none) :
    Run.LeadsTo (fun link => archive.gone link = []) (undelete machine settingsPath options)
      fun _ link => Uncovers start archive.items archive.items (archive.gone link) := by
  unfold undelete
  refine .bind_of_keeps (Run.Keeps.ofExcept _) fun path hfound => ?_
  obtain rfl := Except.ok.inj (hpath.symm.trans hfound)
  refine .bind_of_keeps (Run.Keeps.connect machine settingsPath) ?_
  rintro ⟨settings, client⟩ hlink
  have haccept : ∀ entry : VersionEntry,
      withinAge entry.time machine.now none (ageBound options.since) = true := by
    intro entry
    rw [hsince]
    rfl
  dsimp only
  rw [chooseDeleter_of_real client archive.bucket hreal]
  refine .bind_of_keeps (Run.Keeps.ofExcept _) fun batcher hbatcher => ?_
  obtain ⟨rfl, hpos, hmax⟩ := Batcher.of_new hbatcher
  refine .bind_of_keeps (Run.Keeps.printLine _) fun _ _ => ?_
  refine (Run.LeadsTo.visitPages
    (UndeleteState.visiting_leads hserves hlink haccept hcount hpos hmax)).bind fun visited => ?_
  refine .bind_of_keeps (Run.Keeps.print _) fun _ _ => ?_
  refine (Run.LeadsTo.failIf visited.failure).bind fun _ => ?_
  refine (Run.LeadsTo.onLink
    (UndeleteState.finish_leads hserves hlink hpos hmax visited.state)).bind fun answer => ?_
  refine .bind_of_keeps (Run.Keeps.ofExcept answer) fun summary hsummary => ?_
  rw [hreal, if_neg Bool.false_ne_true]
  exact (Run.Keeps.printLine _).leadsTo.mono fun _ _ hdone => hdone.2 summary hsummary

/-- When a run that removes delete markers below a path has succeeded, a number of markers is gone
from the top of each stack and nothing else, and the marker on top is gone from each that hides a
file. So an object is visible again where a version stands right below it. -/
theorem undelete_shows_previous (hserves : machine.link.Serves archive)
    (hcount : archive.items.length < Run.allPages) (settingsPath : Option String)
    {options : UndeleteOptions} (hpath : StorePath.parse options.path = .ok ⟨archive.bucket, start⟩)
    (hreal : options.dryRun = false) (hsince : options.since = none) {world : World σ}
    (hfresh : archive.gone world.link = [])
    (hok : ((undelete machine settingsPath options).run.run world).1 = .ok ()) :
    let gone := archive.gone ((undelete machine settingsPath options).run.run world).2.link
    (∀ key, ∃ markers,
      stack archive.items key = markers ++ stack (remaining archive.items gone) key ∧
      ∀ item ∈ markers, item.Covers start) ∧
    (∀ item, IsFirst archive.items item → item.Covers start → item.candidate ∈ gone) ∧
    ∀ key marker version older, stack archive.items key = marker :: version :: older →
      marker.Covers start → version.isMarker = false →
      current? (remaining archive.items gone) key = some version := by
  intro gone
  have huncovers : Uncovers start archive.items archive.items gone :=
    undelete_uncovers hserves hcount settingsPath hpath hreal hsince world hfresh () hok
  refine ⟨huncovers.exists_markers, ?_, ?_⟩
  · intro item hfirst hcovers
    exact huncovers.top item hfirst.mem hfirst hcovers
  · intro key marker version older hstack hcovers hversion
    exact huncovers.visible hstack hcovers hversion

end Running

/-- Undeleting below `data/`. -/
def undeleteData : UndeleteOptions := ⟨"s3://b/data/", none, false, none⟩

/-- Objects that were deleted once and twice. -/
def deletedStacks : List Stored :=
  [⟨"data/a", "m1", none, none, true⟩, ⟨"data/a", "v0", some 5, none, false⟩,
    ⟨"data/b", "m2", none, none, true⟩, ⟨"data/b", "m1", none, none, true⟩,
    ⟨"data/b", "v0", some 3, none, false⟩]

theorem deletedStacks_distinct : (deletedStacks.map Stored.candidate).Nodup := by decide

/-- The object that was deleted once is visible again. -/
theorem undelete_shows_previous_of_one_marker :
    let machine := Machine.plain (.vault deletedStacks 1 true)
    let world : World (List Candidate) := ⟨.empty, "", "", []⟩
    let after := ((undelete machine none undeleteData).run.run world).2
    after.link = [⟨"data/a", some "m1"⟩, ⟨"data/b", some "m2"⟩] ∧
      current? deletedStacks "data/a" = none ∧
      current? (remaining deletedStacks after.link) "data/a" =
        some ⟨"data/a", "v0", some 5, none, false⟩ := by
  intro machine world after
  have hserves := Link.vault_serves "b" deletedStacks_distinct Nat.one_pos true
  have hpath : StorePath.parse undeleteData.path = .ok ⟨"b", "data/"⟩ := by rfl
  have hok : ((undelete machine none undeleteData).run.run world).1 = .ok () := by decide +kernel
  obtain ⟨-, -, hshows⟩ := undelete_shows_previous hserves (by decide) none hpath rfl rfl rfl hok
  have hstack : stack deletedStacks "data/a" =
      [⟨"data/a", "m1", none, none, true⟩, ⟨"data/a", "v0", some 5, none, false⟩] := by decide
  have hshown := hshows "data/a" _ _ [] hstack ⟨rfl, by decide, by decide⟩ rfl
  refine ⟨by decide +kernel, by decide, ?_⟩
  simpa only [Archive.vault, id_eq] using hshown

/-- The object that was deleted twice is still hidden, by the older of its markers. -/
theorem undelete_leaves_hidden :
    let machine := Machine.plain (.vault deletedStacks 1 true)
    let world : World (List Candidate) := ⟨.empty, "", "", []⟩
    let answer := (undelete machine none undeleteData).run.run world
    machine.link.Serves (.vault "b" deletedStacks 1 true) ∧ answer.1 = .ok () ∧
      stack (remaining deletedStacks answer.2.link) "data/b" =
        [⟨"data/b", "m1", none, none, true⟩, ⟨"data/b", "v0", some 3, none, false⟩] ∧
      current? (remaining deletedStacks answer.2.link) "data/b" = none := by
  intro machine world answer
  refine ⟨Link.vault_serves "b" deletedStacks_distinct Nat.one_pos true, ?_⟩
  decide +kernel

end Command

end BucketCare

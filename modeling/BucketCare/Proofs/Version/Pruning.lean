import BucketCare.Proofs.Version.Archive

/-!
# Pruning and the current objects

Pruning removes superseded versions and every delete marker. A current object is the newest of its
key and no marker, and that it stays. An object that is deleted has a marker on top of its stack:
when the marker goes, all below it must go too, or the newest version that is left comes back. They
do go, since they are older and since none of them is listed as the latest, provided that the whole
stack is listed as it was before the marker went.

That is so when the listing is one of a snapshot, and when no page ends inside such a stack. A live
listing by pages that end anywhere brings objects back: by the time the next page is fetched the
marker can be gone, and the version behind it is listed as the latest and stays.

## Main definitions

* `Dated` — entries with times that never increase towards the bottom of a stack
* `Spares` — what is chosen for deletion among the entries that were read
* `Archive.KeepsDeletedTogether` — no page ends inside the stack of a deleted object

## Main results

* `Spares.page` — one page
* `Spares.current?_eq` — the current objects stay as they are
* `Command.listVersions_keeps_current` — a run of the command
* `Command.listVersions_brings_back` — a run that brings an object back
-/

namespace BucketCare

/-- Every entry has a time, and within a key no entry is newer than the ones before it. -/
structure Dated (items : List Stored) : Prop where
  present : ∀ item ∈ items, (Timestamp.instant? item.time).isSome = true
  ordered : items.Pairwise fun newer older => newer.key = older.key →
    ∀ t ∈ Timestamp.instant? newer.time, ∀ s ∈ Timestamp.instant? older.time,
      s.nanoseconds ≤ t.nanoseconds

/-- No page ends inside the stack of an object that is deleted. -/
def Archive.KeepsDeletedTogether {σ : Type} (archive : Archive σ) : Prop :=
  ∀ before after, archive.Between before after → ∀ first, IsFirst archive.items first →
    first.isMarker = true → ∀ item ∈ before, item.key = first.key →
      ∀ other ∈ after, other.key ≠ first.key

open Command (VersionQuery VersionState prunable)

/-- An entry is listed, whenever it is read. -/
def Stored.Picked (query : VersionQuery) (start : String) (item : Stored) : Prop :=
  BeginsWith start item.key ∧ VersionState.selects query (item.entry false) = true

/-- What is older passes a bound on the age from below when the newer does. -/
theorem withinAge_of_older {t s now : Instant} {olderThan : Option Span}
    (hle : s.nanoseconds ≤ t.nanoseconds) (h : withinAge (some t) now olderThan none = true) :
    withinAge (some s) now olderThan none = true := by
  cases olderThan with
  | none => rfl
  | some bound =>
    have hbound : bound.nanoseconds ≤ now.nanoseconds - t.nanoseconds := by
      simpa [withinAge] using h
    have holder : bound.nanoseconds ≤ now.nanoseconds - s.nanoseconds := by omega
    simpa [withinAge] using holder

section Choosing

variable {σ : Type} {archive : Archive σ} {query : VersionQuery} {start : String}
variable {items before shown rest : List Stored} {seen chosen : List Candidate}
variable {content : List VersionEntry}

theorem selects_entry (query : VersionQuery) (item : Stored) (isLatest : Bool) :
    VersionState.selects query (item.entry isLatest) =
      VersionState.selects query (item.entry false) := by
  simp [VersionState.selects]

/-- What is below the newest entry of a key is at least as old, and picked like it. -/
theorem Dated.picked (h : Dated items) (hnewer : query.newerThan = none) {first item : Stored}
    (hfirst : IsFirst items first) (hitem : item ∈ items) (hkey : item.key = first.key)
    (hpicked : first.Picked query start) : item.Picked query start := by
  obtain ⟨hstart, hselects⟩ := hpicked
  refine ⟨hkey ▸ hstart, ?_⟩
  rcases hfirst.eq_or_rel h.ordered hitem hkey with rfl | holder
  · exact hselects
  -- The one bound on the age is one from below, and what is below is older.
  obtain ⟨t, ht⟩ := Option.isSome_iff_exists.mp (h.present first hfirst.mem)
  obtain ⟨s, hs⟩ := Option.isSome_iff_exists.mp (h.present item hitem)
  have hle : s.nanoseconds ≤ t.nanoseconds := holder hkey.symm t ht s hs
  simp only [VersionState.selects, Stored.entry_isDirectory, Stored.entry_time, hkey, ht, hs,
    hnewer, Bool.and_eq_true] at hselects ⊢
  exact ⟨hselects.1, withinAge_of_older hle hselects.2⟩

/-- What of a page is pruned. -/
theorem mem_prunable_of_shows (hshows : archive.Shows seen start shown content)
    {candidate : Candidate} :
    candidate ∈ prunable (content.filter (VersionState.selects query)) ↔
      ∃ item ∈ shown, item.Picked query start ∧ item.candidate ∉ seen ∧
        (item.isMarker = true ∨ archive.isLatest seen item = false) ∧
        candidate = item.candidate := by
  rw [prunable, List.filter_filter, hshows.mem_candidates]
  refine exists_congr fun item => and_congr_right fun _ => ?_
  rw [Stored.Picked, ← selects_entry query item (archive.isLatest seen item)]
  simp only [VersionEntry.isPrunable, Stored.entry_isMarker, Stored.entry_isLatest,
    Bool.and_eq_true, Bool.or_eq_true, Bool.not_eq_true']
  tauto

/-- What is chosen for deletion among the entries before a place: no current object, and with the
marker on top of a stack all that was read of the stack. -/
structure Spares (query : VersionQuery) (start : String) (items before : List Stored)
    (chosen : List Candidate) : Prop where
  passed : ∀ candidate ∈ chosen, ∃ item ∈ before, item.candidate = candidate ∧
    item.Picked query start
  visible : ∀ item, IsFirst items item → item.isMarker = false → item.candidate ∉ chosen
  hidden : ∀ first, IsFirst items first → first.isMarker = true → first.candidate ∈ chosen →
    ∀ item ∈ before, item.key = first.key → item.candidate ∈ chosen

theorem Spares.nil : Spares query start items [] [] :=
  ⟨nofun, fun _ _ _ => List.not_mem_nil, nofun⟩

/-- A page is added to what was read. Of a deleted object of which the page shows something, the
listing does not know of any deletion yet. -/
theorem Spares.page (h : Spares query start archive.items before chosen)
    (hdistinct : (archive.items.map Stored.candidate).Nodup) (hdated : Dated archive.items)
    (hnewer : query.newerThan = none) (hitems : archive.items = before ++ (shown ++ rest))
    (hshows : archive.Shows seen start shown content)
    (hwhole : ∀ first, IsFirst archive.items first → first.isMarker = true →
      ∀ item ∈ shown, item.key = first.key →
        ∀ other ∈ archive.items, other.key = first.key → other.candidate ∉ seen) :
    Spares query start archive.items (before ++ shown)
      (chosen ++ prunable (content.filter (VersionState.selects query))) := by
  have hbefore : ∀ item ∈ before, item ∈ archive.items := by
    intro item hitem
    rw [hitems]
    exact List.mem_append_left _ hitem
  have hshown : ∀ item ∈ shown, item ∈ archive.items := by
    intro item hitem
    rw [hitems]
    exact List.mem_append_right _ (List.mem_append_left _ hitem)
  refine ⟨?_, ?_, ?_⟩
  · intro candidate hcandidate
    rcases List.mem_append.mp hcandidate with hearlier | hnow
    · obtain ⟨item, hitem, hrest⟩ := h.passed candidate hearlier
      exact ⟨item, List.mem_append_left _ hitem, hrest⟩
    · obtain ⟨item, hitem, hpicked, -, -, rfl⟩ := (mem_prunable_of_shows hshows).mp hnow
      exact ⟨item, List.mem_append_right _ hitem, rfl, hpicked⟩
  · intro item hfirst hversion hcandidate
    rcases List.mem_append.mp hcandidate with hearlier | hnow
    · exact h.visible item hfirst hversion hearlier
    · obtain ⟨other, hother, -, hunseen, hold, hsame⟩ := (mem_prunable_of_shows hshows).mp hnow
      obtain rfl := List.inj_on_of_nodup_map hdistinct hfirst.mem (hshown other hother) hsame
      -- It is not deleted, so it is listed as the latest.
      have hlatest : archive.isLatest seen item = true := decide_eq_true (hfirst.remaining hunseen)
      simp [hversion, hlatest] at hold
  · intro first hfirst hmarker hchosen item hitem hkey
    have hpicked : first.Picked query start := by
      rcases List.mem_append.mp hchosen with hearlier | hnow
      · obtain ⟨other, hother, hsame, hpicked⟩ := h.passed _ hearlier
        obtain rfl :=
          List.inj_on_of_nodup_map hdistinct (hbefore other hother) hfirst.mem hsame
        exact hpicked
      · obtain ⟨other, hother, hpicked, -, -, hsame⟩ := (mem_prunable_of_shows hshows).mp hnow
        obtain rfl := List.inj_on_of_nodup_map hdistinct hfirst.mem (hshown other hother) hsame
        exact hpicked
    apply List.mem_append.mpr
    rcases List.mem_append.mp hitem with hearlier | hnow
    · -- The marker was read before the rest of its stack, so it was chosen before.
      have hread : first ∈ before := (hitems ▸ hfirst).mem_before hearlier hkey
      rcases List.mem_append.mp hchosen with hchosen | hchosen
      · exact .inl (h.hidden first hfirst hmarker hchosen item hearlier hkey)
      · obtain ⟨other, hother, -, -, -, hsame⟩ := (mem_prunable_of_shows hshows).mp hchosen
        rw [hitems, List.map_append, List.nodup_append] at hdistinct
        exact absurd hsame (hdistinct.2.2 _ (List.mem_map_of_mem hread) _
          (List.mem_map_of_mem (List.mem_append_left _ hother)))
    · have hunseen := hwhole first hfirst hmarker item hnow hkey
      refine .inr ((mem_prunable_of_shows hshows).mpr ⟨item, hnow,
        hdated.picked hnewer hfirst (hshown item hnow) hkey hpicked,
        hunseen item (hshown item hnow) hkey, ?_, rfl⟩)
      by_cases hsame : item = first
      · exact .inl (hsame ▸ hmarker)
      · have hlatest := hfirst.remaining (hunseen first hfirst.mem rfl)
        exact .inr (decide_eq_false fun hitem => hsame (hlatest.unique hitem hkey))

/-- When everything was read, the current objects are what they were. -/
theorem Spares.current?_eq (h : Spares query start items items chosen) (key : String) :
    current? (remaining items chosen) key = current? items key := by
  unfold current?
  rw [stack_remaining]
  cases hstack : stack items key with
  | nil => rfl
  | cons first older =>
    obtain ⟨hmem, hkey⟩ := mem_stack.mp (hstack ▸ List.mem_cons_self : first ∈ stack items key)
    subst hkey
    have hfirst : IsFirst items first := by rw [IsFirst, hstack, List.head?_cons]
    by_cases hgone : first.candidate ∈ chosen
    · -- It is a marker, and nothing of the stack is left.
      have hmarker : first.isMarker = true := by
        by_contra hversion
        exact h.visible first hfirst (by simpa using hversion) hgone
      have hnone : remaining (first :: older) chosen = [] := by
        rw [← hstack, List.eq_nil_iff_forall_not_mem]
        intro item hitem
        obtain ⟨hstacked, hkept⟩ := mem_remaining.mp hitem
        obtain ⟨hread, hkey⟩ := mem_stack.mp hstacked
        exact hkept (h.hidden first hfirst hmarker hgone item hread hkey)
      rw [hnone]
      simp [Option.filter, hmarker]
    · simp [remaining, hgone]

/-- Where a page shows something of a deleted object, no deletion of it is taken into account: not
for a snapshot, and not where such objects are kept together. -/
theorem Spares.unseen (h : Spares query start archive.items before chosen)
    (hdistinct : (archive.items.map Stored.candidate).Nodup)
    (hbetween : archive.Between before (shown ++ rest)) (hseen : seen ⊆ chosen)
    (hwhole : seen = [] ∨ archive.KeepsDeletedTogether) :
    ∀ first, IsFirst archive.items first → first.isMarker = true →
      ∀ item ∈ shown, item.key = first.key →
        ∀ other ∈ archive.items, other.key = first.key → other.candidate ∉ seen := by
  intro first hfirst hmarker item hitem hkey other hother hsame hgone
  rcases hwhole with rfl | hwhole
  · cases hgone
  obtain ⟨read, hread, hcandidate, -⟩ := h.passed _ (hseen hgone)
  have hmem : read ∈ archive.items := hbetween.1 ▸ List.mem_append_left _ hread
  obtain rfl := List.inj_on_of_nodup_map hdistinct hmem hother hcandidate
  exact hwhole _ _ hbetween first hfirst hmarker read hread hsame item
    (List.mem_append_left _ hitem) hkey

end Choosing

namespace Command

section Running

variable {σ : Type} {link : Link σ} {archive : Archive σ} {client : Client σ}
variable {query : VersionQuery} {start : String}

/-- A listing stands between some entries, and what was chosen before spares the current objects. -/
def SparesBefore (archive : Archive σ) (query : VersionQuery) (start : String) (n : Nat)
    (token : Option VersionMarker) (read : List VersionEntry)
    (place : List Stored × List Stored) : Prop :=
  archive.StandsAt n token place.1 place.2 ∧
    Spares query start archive.items place.1 (prunable (query.picks read))

/-- What was chosen of all entries spares the current objects. -/
def SparesAll (archive : Archive σ) (query : VersionQuery) (start : String)
    (read : List VersionEntry) (_ : List Stored × List Stored) : Prop :=
  Spares query start archive.items archive.items (prunable (query.picks read))

/-- Without a limit a page adds what it selects. -/
theorem prunable_picks_append (hlimit : query.limit = none) (read content : List VersionEntry) :
    prunable (query.picks (read ++ content)) =
      prunable (query.picks read) ++ prunable (content.filter (VersionState.selects query)) := by
  simp [VersionQuery.picks, hlimit, prunable_append]

/-- A page leads from one place to the next. -/
theorem SparesBefore.leadsOn (hdistinct : (archive.items.map Stored.candidate).Nodup)
    (hdated : Dated archive.items) (hlimit : query.limit = none) (hnewer : query.newerThan = none)
    (hwhole : (∀ state, archive.seen state = []) ∨ archive.KeepsDeletedTogether) {n : Nat}
    {token : Option VersionMarker} {read : List VersionEntry}
    {before after shown rest : List Stored} {seen : List Candidate}
    {page : Page (List VersionEntry) VersionMarker}
    (h : SparesBefore archive query start n token read (before, after))
    (hafter : after = shown ++ rest) (hseen : seen ⊆ prunable (query.picks read))
    (hstate : ∃ state, archive.seen state = seen)
    (hshows : archive.Shows seen start shown page.content)
    (hfollows : archive.Follows before shown rest page) :
    ∃ place, ∃ m < n,
      LeadsOn (SparesBefore archive query start) (SparesAll archive query start) m page read
        place := by
  subst hafter
  obtain ⟨hstands, hspares⟩ := h
  have hbetween := hstands.between
  have hnone : seen = [] ∨ archive.KeepsDeletedTogether := by
    obtain ⟨state, rfl⟩ := hstate
    exact hwhole.imp_left fun hsnapshot => hsnapshot state
  have hpage : Spares query start archive.items (before ++ shown)
      (prunable (query.picks (read ++ page.content))) := by
    rw [prunable_picks_append hlimit]
    exact hspares.page hdistinct hdated hnewer hbetween.1 hshows
      (hspares.unseen hdistinct hbetween hseen hnone)
  obtain ⟨m, hm, hnext⟩ := hfollows.stands hstands
  refine ⟨(before ++ shown, rest), m, hm, ?_⟩
  unfold LeadsOn
  split at hnext
  next hcontinues =>
    rw [if_pos hcontinues]
    exact ⟨hnext, hpage⟩
  next hlast =>
    rw [if_neg hlast, SparesAll]
    rwa [hnext] at hpage

/-- Pruning without a limit, and of any age, spares the current objects. -/
theorem gather_spares (hserves : link.Serves archive) (hlink : client.link = link)
    (hdated : Dated archive.items) (hlimit : query.limit = none) (hnewer : query.newerThan = none)
    (hwhole : (∀ state, archive.seen state = []) ∨ archive.KeepsDeletedTogether)
    (hcount : archive.items.length < Run.allPages) {size : Nat} (hpos : 1 ≤ size)
    (hmax : size ≤ maxPageSize) (report : Option Char) :
    LeadsTo (fun state => archive.gone state = [])
      (gather (VersionListing.source client ⟨archive.bucket, start⟩) query
        (client.deleter archive.bucket) (.opening report true size))
      fun answer state => ∀ deleted, answer.2 = .ok deleted →
        Spares query start archive.items archive.items (archive.gone state) := by
  let inv := fun (_ : List Stored × List Stored) => archive.HasLost
  have hdeleter : ∀ place, (client.deleter archive.bucket).Sends (inv place) fun _ => True :=
    fun _ => hserves.deleter_sends hlink
  have hzero : ∀ token read place, ¬ SparesBefore archive query start 0 token read place :=
    fun _ _ _ h => absurd h.1.bound (Nat.zero_ne_add_one _)
  have hfetch : ∀ n token read place batches, SparesBefore archive query start n token read place →
      batches.flatten <+: prunable (query.picks read) →
      LeadsTo (inv place batches) (VersionListing.source client ⟨archive.bucket, start⟩ token)
        fun answer state => Settles (fun _ => True ∧ inv place batches state)
          (fun page => ∃ next, inv next batches state ∧ ∃ m < n,
            LeadsOn (SparesBefore archive query start) (SparesAll archive query start) m page read
              next)
          answer := by
    rintro n token read ⟨before, after⟩ batches hplace hprefix
    obtain rfl := hplace.1.token_eq
    refine (hserves.source_leads hlink start hplace.1.between batches.flatten).mono ?_
    rintro answer state ⟨hgone, hpage⟩
    cases answer with
    | error e => exact ⟨trivial, hgone⟩
    | ok page =>
      -- What the listing takes for deleted is in some batch, so it was chosen before.
      obtain ⟨shown, rest, seen, hafter, hseen, hstate, hshows, hfollows⟩ := hpage page rfl
      obtain ⟨next, m, hm, hon⟩ := hplace.leadsOn hserves.distinct hdated hlimit hnewer hwhole
        hafter (fun _ h => hprefix.subset (hseen h)) hstate hshows hfollows
      exact ⟨next, hgone, m, hm, hon⟩
  have hstart : SparesBefore archive query start (archive.items.length + 1) none []
      ([], archive.items) := by
    refine ⟨.start archive, ?_⟩
    simpa [VersionQuery.picks, hlimit, prunable] using Spares.nil
  refine ((gather_leads _ _ _ hfetch hdeleter hmax hzero hcount hstart hpos).weaken ?_).mono ?_
  · exact fun _ hgone => hgone
  rintro ⟨visited, answer⟩ state hanswer deleted rfl
  obtain ⟨read, place, hstops, -, hgone, -⟩ := hanswer
  have hall : SparesAll archive query start read place := by
    rcases hstops with hall | ⟨hreached, -⟩
    · exact hall
    · simp [limitReached, hlimit] at hreached
  have hsent : archive.gone state = prunable (query.picks read) :=
    hgone.trans (inPages_flatten hpos _)
  rw [hsent]
  exact hall

variable {machine : Machine σ}

theorem listVersions_spares (hserves : machine.link.Serves archive) (hdated : Dated archive.items)
    (hwhole : (∀ state, archive.seen state = []) ∨ archive.KeepsDeletedTogether)
    (hcount : archive.items.length < Run.allPages) (settingsPath : Option String)
    {options : VersionOptions} (hpath : StorePath.parse options.path = .ok ⟨archive.bucket, start⟩)
    (hdelete : options.delete = true) (hreal : options.dryRun = false)
    (hlimit : options.limit = none) (hsince : options.since = none) :
    Run.LeadsTo (fun link => archive.gone link = []) (listVersions machine settingsPath options)
      fun _ link =>
        ∃ query, Spares query start archive.items archive.items (archive.gone link) := by
  rw [listVersions_eq]
  refine .bind_of_keeps (Run.Keeps.ofExcept _) fun path hfound => ?_
  obtain rfl := Except.ok.inj (hpath.symm.trans hfound)
  refine .bind_of_keeps (Run.Keeps.connect machine settingsPath) ?_
  rintro ⟨settings, client⟩ hlink
  refine .bind_of_keeps (Run.Keeps.ofExcept _) fun separator _ => ?_
  refine .bind_of_keeps (keeps_openFiles options separator) ?_
  rintro _ rfl
  refine .bind_of_keeps (keeps_openListing hdelete _ (options.report separator)) ?_
  rintro _ ⟨rfl, hpos, hmax⟩
  have hnewer : ageBound options.since = none := by rw [hsince]; rfl
  rw [chooseDeleter_of_real client archive.bucket hreal]
  refine (Run.LeadsTo.onLink (gather_spares hserves hlink hdated hlimit hnewer hwhole hcount hpos
    hmax (options.report separator))).bind ?_
  rintro ⟨visited, answer⟩
  cases answer with
  | error e =>
    exact (keeps_conclude_error options visited e).leadsTo.mono fun _ _ h => h.1.elim
  | ok deleted =>
    refine (keeps_conclude_ok options visited deleted).leadsTo.mono ?_
    rintro _ link ⟨-, hspares⟩
    exact ⟨_, hspares deleted rfl⟩

/-- When a run that prunes below a path has succeeded, the current object of every key is what it
was, provided that the listing is one of a snapshot or that no page ends inside the stack of a
deleted object. -/
theorem listVersions_keeps_current (hserves : machine.link.Serves archive)
    (hdated : Dated archive.items)
    (hwhole : (∀ state, archive.seen state = []) ∨ archive.KeepsDeletedTogether)
    (hcount : archive.items.length < Run.allPages) (settingsPath : Option String)
    {options : VersionOptions} (hpath : StorePath.parse options.path = .ok ⟨archive.bucket, start⟩)
    (hdelete : options.delete = true) (hreal : options.dryRun = false)
    (hlimit : options.limit = none) (hsince : options.since = none) {world : World σ}
    (hfresh : archive.gone world.link = [])
    (hok : ((listVersions machine settingsPath options).run.run world).1 = .ok ()) :
    let after := ((listVersions machine settingsPath options).run.run world).2
    ∀ key, current? (remaining archive.items (archive.gone after.link)) key =
      current? archive.items key := by
  intro after key
  obtain ⟨query, hspares⟩ := listVersions_spares hserves hdated hwhole hcount settingsPath hpath
    hdelete hreal hlimit hsince world hfresh () hok
  exact hspares.current?_eq key

end Running

/-! ## Two listings of one bucket -/

/-- A deleted object with a version below its marker, and an object that was replaced. -/
def twoStacks : List Stored :=
  [⟨"data/a", "m1", none, some ⟨7, 0⟩, true⟩, ⟨"data/a", "v0", some 5, some ⟨6, 0⟩, false⟩,
    ⟨"data/b", "v2", some 4, some ⟨5, 0⟩, false⟩, ⟨"data/b", "v1", some 3, some ⟨5, 0⟩, false⟩]

theorem twoStacks_distinct : (twoStacks.map Stored.candidate).Nodup := by decide

theorem twoStacks_dated : Dated twoStacks := ⟨by decide, by decide +kernel⟩

/-- Pruning below `data/`, with a request for each deletion. -/
def pruneEach : VersionOptions :=
  ⟨"s3://b/data/", none, none, none, false, true, none, none, none, true, false, some 1⟩

/-- From a snapshot the whole stack of the deleted object is pruned. -/
theorem listVersions_keeps_current_of_snapshot :
    let machine := Machine.plain (.vault twoStacks 1 false)
    let world : World (List Candidate) := ⟨.empty, "", "", []⟩
    let after := ((listVersions machine none pruneEach).run.run world).2
    after.link = [⟨"data/a", some "m1"⟩, ⟨"data/a", some "v0"⟩, ⟨"data/b", some "v1"⟩] ∧
      ∀ key, current? (remaining twoStacks after.link) key = current? twoStacks key := by
  intro machine world after
  have hserves := Link.vault_serves "b" twoStacks_distinct Nat.one_pos false
  have hpath : StorePath.parse pruneEach.path = .ok ⟨"b", "data/"⟩ := by rfl
  have hok : ((listVersions machine none pruneEach).run.run world).1 = .ok () := by
    decide +kernel
  have hkept := listVersions_keeps_current hserves twoStacks_dated (.inl fun _ => rfl) (by decide)
    none hpath rfl rfl rfl rfl rfl hok
  refine ⟨by decide +kernel, ?_⟩
  simpa only [Archive.vault, id_eq] using hkept

/-- By a live listing, a page for each entry, only its marker is pruned: the version below it is
listed as the latest by then, and it is the current object again. -/
theorem listVersions_brings_back :
    let machine := Machine.plain (.vault twoStacks 1 true)
    let world : World (List Candidate) := ⟨.empty, "", "", []⟩
    let answer := (listVersions machine none pruneEach).run.run world
    machine.link.Serves (.vault "b" twoStacks 1 true) ∧ Dated twoStacks ∧ answer.1 = .ok () ∧
      current? twoStacks "data/a" = none ∧
      current? (remaining twoStacks answer.2.link) "data/a" =
        some ⟨"data/a", "v0", some 5, some ⟨6, 0⟩, false⟩ := by
  intro machine world answer
  refine ⟨Link.vault_serves "b" twoStacks_distinct Nat.one_pos true, twoStacks_dated, ?_⟩
  decide +kernel

end Command

end BucketCare

import BucketCare.Proofs.Command.Outputs
import Mathlib.Data.List.Nodup

/-!
# Stores that keep versions

A bucket that keeps versions holds, for each key, a stack of versions and delete markers with the
newest on top. A deletion that names a version takes out that entry and no other, and the newest
that is left is the latest. The current object of a key is its latest entry, unless that is a
delete marker.

A listing goes through what the bucket held at first, from one page to the next. It may overlook
what was deleted in the meantime, or still show it: a live listing sees every deletion at once, one
of a snapshot sees none. Where a page may end is up to the store.

## Main definitions

* `Stored` — an entry of a bucket, with `stack`, `remaining` and `current?`
* `Archive` — a bucket and what was deleted of it
* `Archive.StandsAt` — the place that a listing has come to
* `Link.Serves` — what a link to such a bucket answers
* `Link.vault` — a link to a bucket that is listed by pages of some length, live or as a snapshot

## Main results

* `Link.Serves.source_leads` — what a page shows
* `Link.vault_serves` — such a link exists
-/

namespace BucketCare

/-- A version or a delete marker, as a bucket holds it. -/
structure Stored where
  key : String
  version : String
  size : Option Int
  time : Option Timestamp
  isMarker : Bool
  deriving DecidableEq, Repr

namespace Stored

/-- The name of an entry in a deletion. -/
def candidate (item : Stored) : Candidate := ⟨item.key, some item.version⟩

/-- The entry in a reply. -/
def listed (item : Stored) (isLatest : Bool) : ListedVersion :=
  ⟨some item.key, some item.version, item.size, item.time, some isLatest⟩

/-- The entry on a page. -/
def entry (item : Stored) (isLatest : Bool) : VersionEntry :=
  if item.isMarker then VersionListing.markerEntry (item.listed isLatest)
  else VersionListing.versionEntry (item.listed isLatest)

variable (item : Stored) (isLatest : Bool)

@[simp] theorem entry_key : (item.entry isLatest).key = item.key := by
  unfold entry
  split <;> rfl

@[simp] theorem entry_candidate : (item.entry isLatest).candidate = item.candidate := by
  unfold entry
  split <;> rfl

@[simp] theorem entry_time : (item.entry isLatest).time = Timestamp.instant? item.time := by
  unfold entry
  split <;> rfl

@[simp] theorem entry_isLatest : (item.entry isLatest).isLatest = isLatest := by
  unfold entry
  split <;> rfl

@[simp] theorem entry_isMarker : (item.entry isLatest).isMarker = item.isMarker := by
  unfold entry
  split
  next hmarker => exact hmarker.symm
  next hversion => exact (Bool.eq_false_iff.mpr hversion).symm

@[simp] theorem entry_isDirectory :
    (item.entry isLatest).isDirectory = isDirectoryMarker item.key := by
  rw [VersionEntry.isDirectory, entry_key]

end Stored

/-- The entries of a key, the newest first. -/
def stack (items : List Stored) (key : String) : List Stored := items.filter (·.key == key)

/-- What is left when some entries are deleted. -/
def remaining (items : List Stored) (gone : List Candidate) : List Stored :=
  items.filter fun item => !gone.contains item.candidate

/-- The current object of a key: its newest entry, unless that is a delete marker. -/
def current? (items : List Stored) (key : String) : Option Stored :=
  (stack items key).head?.filter fun item => !item.isMarker

/-- An entry is the newest of its key. -/
def IsFirst (items : List Stored) (item : Stored) : Prop :=
  (stack items item.key).head? = some item

instance (items : List Stored) (item : Stored) : Decidable (IsFirst items item) :=
  inferInstanceAs (Decidable (_ = _))

theorem mem_stack {items : List Stored} {key : String} {item : Stored} :
    item ∈ stack items key ↔ item ∈ items ∧ item.key = key := by
  simp [stack]

theorem stack_append (before after : List Stored) (key : String) :
    stack (before ++ after) key = stack before key ++ stack after key := List.filter_append ..

theorem mem_remaining {items : List Stored} {gone : List Candidate} {item : Stored} :
    item ∈ remaining items gone ↔ item ∈ items ∧ item.candidate ∉ gone := by
  simp [remaining]

/-- The stack that is left is the old one without what was deleted. -/
theorem stack_remaining (items : List Stored) (gone : List Candidate) (key : String) :
    stack (remaining items gone) key = remaining (stack items key) gone := by
  simp [stack, remaining, List.filter_filter, Bool.and_comm]

theorem IsFirst.mem {items : List Stored} {item : Stored} (h : IsFirst items item) :
    item ∈ items := (mem_stack.mp (List.mem_of_head? h)).1

/-- A key has one newest entry. -/
theorem IsFirst.unique {items : List Stored} {first item : Stored} (h : IsFirst items first)
    (hitem : IsFirst items item) (hkey : item.key = first.key) : item = first := by
  rw [IsFirst, hkey] at hitem
  exact Option.some.inj (hitem.symm.trans h)

/-- The newest entry of a key stands before any other. -/
theorem IsFirst.mem_before {before after : List Stored} {first item : Stored}
    (h : IsFirst (before ++ after) first) (hitem : item ∈ before) (hkey : item.key = first.key) :
    first ∈ before := by
  -- Something of the key stands before, so the top of the whole stack does.
  have hsome : stack before first.key ≠ [] := List.ne_nil_of_mem (mem_stack.mpr ⟨hitem, hkey⟩)
  rw [IsFirst, stack_append, List.head?_append_of_ne_nil _ hsome] at h
  exact (mem_stack.mp (List.mem_of_head? h)).1

/-- What is below the newest entry of a key stands behind it. -/
theorem IsFirst.eq_or_rel {items : List Stored} {first item : Stored} {r : Stored → Stored → Prop}
    (h : IsFirst items first) (hordered : items.Pairwise r) (hitem : item ∈ items)
    (hkey : item.key = first.key) : item = first ∨ r first item := by
  obtain ⟨older, holder⟩ := List.head?_eq_some_iff.mp h
  have hstack : (stack items first.key).Pairwise r := hordered.sublist List.filter_sublist
  have hmem : item ∈ stack items first.key := mem_stack.mpr ⟨hitem, hkey⟩
  rw [holder] at hstack hmem
  rcases List.mem_cons.mp hmem with hsame | hbelow
  · exact .inl hsame
  · exact .inr (List.rel_of_pairwise_cons hstack hbelow)

/-- What is not deleted stays the newest. -/
theorem IsFirst.remaining {items : List Stored} {item : Stored} {gone : List Candidate}
    (h : IsFirst items item) (hkept : item.candidate ∉ gone) :
    IsFirst (remaining items gone) item := by
  obtain ⟨older, holder⟩ := List.head?_eq_some_iff.mp h
  rw [IsFirst, stack_remaining, holder]
  simp [BucketCare.remaining, hkept]

/-- Where a listing goes on behind some entries. -/
def tokenBehind (before : List Stored) : Option VersionMarker :=
  before.getLast?.map fun item => ⟨item.key, some item.version⟩

/-- A bucket that keeps versions, as a link holds it. -/
structure Archive (σ : Type) where
  bucket : String
  /-- What it held at first, in the order of a listing. -/
  items : List Stored
  /-- What was deleted of it. -/
  gone : σ → List Candidate
  /-- The deletions that a listing takes into account. -/
  seen : σ → List Candidate
  /-- A page may end between these entries. -/
  cut : List Stored → List Stored → Prop

namespace Archive

variable {σ : Type} (archive : Archive σ)

/-- A listing may stand between these entries. -/
def Between (before after : List Stored) : Prop :=
  archive.items = before ++ after ∧ (before = [] ∨ archive.cut before after)

/-- An entry is flagged as the latest, for a listing that takes some deletions into account. -/
def isLatest (seen : List Candidate) (item : Stored) : Bool :=
  decide (IsFirst (remaining archive.items seen) item)

/-- A page shows some entries: those that begin with a text and that are not deleted, as far as the
listing knows. -/
def Shows (seen : List Candidate) (start : String) (shown : List Stored)
    (content : List VersionEntry) : Prop :=
  ∀ entry, entry ∈ content ↔ ∃ item ∈ shown, BeginsWith start item.key ∧ item.candidate ∉ seen ∧
    entry = item.entry (archive.isLatest seen item)

/-- A page leads on to the rest of a listing, or ends it. -/
def Follows (before shown rest : List Stored) (page : Page (List VersionEntry) VersionMarker) :
    Prop :=
  if page.continues then
    shown ≠ [] ∧ page.next = tokenBehind (before ++ shown) ∧ archive.Between (before ++ shown) rest
  else rest = []

/-- Where a listing stands: between some entries and behind a token, with a bound on the pages that
are left. -/
structure StandsAt (n : Nat) (token : Option VersionMarker) (before after : List Stored) :
    Prop where
  bound : n = after.length + 1
  token_eq : token = tokenBehind before
  between : archive.Between before after

/-- What was deleted are some batches. -/
def HasLost (batches : List (List Candidate)) (state : σ) : Prop :=
  archive.gone state = batches.flatten

variable {archive}

/-- What is chosen of a page by its entries. -/
theorem Shows.mem_candidates {seen : List Candidate} {start : String} {shown : List Stored}
    {content : List VersionEntry} (h : archive.Shows seen start shown content)
    (chooses : VersionEntry → Bool) {candidate : Candidate} :
    candidate ∈ (content.filter chooses).map VersionEntry.candidate ↔
      ∃ item ∈ shown, BeginsWith start item.key ∧ item.candidate ∉ seen ∧
        chooses (item.entry (archive.isLatest seen item)) = true ∧
        candidate = item.candidate := by
  simp only [List.mem_map, List.mem_filter]
  constructor
  · rintro ⟨entry, ⟨hentry, hchosen⟩, rfl⟩
    obtain ⟨item, hitem, hstart, hseen, rfl⟩ := (h entry).mp hentry
    exact ⟨item, hitem, hstart, hseen, hchosen, item.entry_candidate _⟩
  · rintro ⟨item, hitem, hstart, hseen, hchosen, rfl⟩
    exact ⟨_, ⟨(h _).mpr ⟨item, hitem, hstart, hseen, rfl⟩, hchosen⟩, item.entry_candidate _⟩

theorem StandsAt.start (archive : Archive σ) :
    archive.StandsAt (archive.items.length + 1) none [] archive.items :=
  ⟨rfl, rfl, rfl, .inl rfl⟩

/-- A page leads to a place with less behind it, or to the end. -/
theorem Follows.stands {before shown rest : List Stored}
    {page : Page (List VersionEntry) VersionMarker} {n : Nat} {token : Option VersionMarker}
    (h : archive.Follows before shown rest page)
    (hstands : archive.StandsAt n token before (shown ++ rest)) :
    ∃ m < n, if page.continues then archive.StandsAt m page.next (before ++ shown) rest
      else before ++ shown = archive.items := by
  obtain ⟨rfl, -, hitems, -⟩ := hstands
  unfold Follows at h
  split at h
  next hcontinues =>
    obtain ⟨hsome, hnext, hbetween⟩ := h
    have hless : rest.length + 1 < (shown ++ rest).length + 1 := by
      have hpos := List.length_pos_iff.mpr hsome
      rw [List.length_append]
      omega
    refine ⟨rest.length + 1, hless, ?_⟩
    rw [if_pos hcontinues]
    exact ⟨rfl, hnext, hbetween⟩
  next hlast =>
    subst h
    rw [List.append_nil] at hitems
    refine ⟨0, Nat.succ_pos _, ?_⟩
    rw [if_neg hlast]
    exact hitems.symm

end Archive

section Serving

variable {σ : Type} {link : Link σ} {archive : Archive σ}

/-- A link to a bucket that keeps versions. It lists what the bucket held at first from where a
listing stands, and it deletes what it does not refuse. -/
structure Link.Serves (link : Link σ) (archive : Archive σ) : Prop where
  /-- A key and a version name one entry. -/
  distinct : (archive.items.map Stored.candidate).Nodup
  /-- A listing takes no deletion into account that was not made. -/
  seen_subset : ∀ state, archive.seen state ⊆ archive.gone state
  lists : ∀ {start limit before after state reply}, archive.Between before after →
    ((link.send (VersionListing.request ⟨archive.bucket, start⟩ limit (tokenBehind before))).run
      state).1 = .ok reply →
    ∃ shown rest, after = shown ++ rest ∧
      archive.Shows (archive.seen state) start shown (VersionListing.pageOf reply).content ∧
      archive.Follows before shown rest (VersionListing.pageOf reply)
  /-- A listing deletes nothing. -/
  gone_of_list : ∀ start limit token state,
    archive.gone ((link.send (VersionListing.request ⟨archive.bucket, start⟩ limit token)).run
      state).2 = archive.gone state
  /-- A deletion that refuses nothing deletes what it names. -/
  gone_of_delete : ∀ {objects state},
    ((link.send (.deleteObjects archive.bucket objects)).run state).1 = .ok [] →
      archive.gone ((link.send (.deleteObjects archive.bucket objects)).run state).2 =
        archive.gone state ++ objects

namespace Link.Serves

variable {client : Client σ} {before after : List Stored}

/-- What a page shows, and where the listing goes on. -/
theorem source_leads (h : link.Serves archive) (hlink : client.link = link) (start : String)
    (hbetween : archive.Between before after) (gone : List Candidate) :
    LeadsTo (fun state => archive.gone state = gone)
      (VersionListing.source client ⟨archive.bucket, start⟩ (tokenBehind before))
      fun answer state => archive.gone state = gone ∧ ∀ page, answer = .ok page →
        ∃ shown rest seen, after = shown ++ rest ∧ seen ⊆ gone ∧
          (∃ state, archive.seen state = seen) ∧ archive.Shows seen start shown page.content ∧
          archive.Follows before shown rest page := by
  subst hlink
  rintro state rfl
  let request := VersionListing.request ⟨archive.bucket, start⟩ client.pageSize (tokenBehind before)
  have hsource :
      (VersionListing.source client ⟨archive.bucket, start⟩ (tokenBehind before)).run state =
      ((((client.link.send request).run state).1.mapError Fault.toError).map VersionListing.pageOf,
        ((client.link.send request).run state).2) := by
    rw [VersionListing.source, StateT.run_bind, Client.request_run]
    rfl
  rw [hsource]
  refine ⟨h.gone_of_list _ _ _ _, ?_⟩
  intro page hpage
  cases hreply : ((client.link.send request).run state).1 with
  | error fault =>
    rw [hreply] at hpage
    cases hpage
  | ok reply =>
    rw [hreply] at hpage
    obtain rfl := Except.ok.inj hpage
    obtain ⟨shown, rest, hafter, hshows, hfollows⟩ := h.lists hbetween hreply
    exact ⟨shown, rest, _, hafter, h.seen_subset state, ⟨state, rfl⟩, hshows, hfollows⟩

/-- What is deleted are the batches that were sent. -/
theorem deleter_sends (h : link.Serves archive) (hlink : client.link = link) :
    (client.deleter archive.bucket).Sends
      archive.HasLost (fun _ => True) := by
  subst hlink
  intro batches batch hsmall state hgone
  have hdelete : (client.deleter archive.bucket batch).run state =
      ((((client.link.send (.deleteObjects archive.bucket batch)).run state).1.mapError
        Fault.toError).map (Client.outcomeOf batch.length),
        ((client.link.send (.deleteObjects archive.bucket batch)).run state).2) := by
    rw [Client.deleter, if_neg (Nat.not_lt.mpr hsmall), StateT.run_bind, Client.request_run]
    rfl
  rw [hdelete]
  cases hreply : ((client.link.send (.deleteObjects archive.bucket batch)).run state).1 with
  | error fault => exact trivial
  | ok faults =>
    cases faults with
    | cons fault rest => exact trivial
    | nil =>
      have hmore := h.gone_of_delete hreply
      change archive.gone _ = (batches ++ [batch]).flatten
      rw [hmore, hgone, List.flatten_append, List.flatten_singleton]

end Link.Serves

end Serving

/-! ## A vault -/

section Vault

/-- What is listed behind a marker. -/
def behind (items : List Stored) : Option String → Option String → List Stored
  | none, _ => items
  | some key, version =>
    (items.dropWhile fun item => !(item.key == key && some item.version == version)).drop 1

/-- The reply that shows some entries, for a listing that takes some deletions into account. -/
def replyOf (items : List Stored) (seen : List Candidate) (start : String) (shown : List Stored)
    (goesOn : Bool) : VersionsReply :=
  let visible := shown.filter fun item =>
    decide (BeginsWith start item.key) && !seen.contains item.candidate
  let listed := fun item : Stored => item.listed (decide (IsFirst (remaining items seen) item))
  ⟨(visible.filter fun item => !item.isMarker).map listed,
    (visible.filter fun item => item.isMarker).map listed, some goesOn,
    shown.getLast?.map (·.key), shown.getLast?.map (·.version)⟩

/-- A link to a bucket that keeps versions, which is listed by pages of some length: live, or as a
snapshot of what it held at first. Its state is what was deleted. -/
def Link.vault (items : List Stored) (size : Nat) (live : Bool) : Link (List Candidate) where
  send
    | .listVersions _ start _ key version => fun gone =>
      let after := behind items key version
      (.ok (replyOf items (if live then gone else []) start (after.take size)
        !(after.drop size).isEmpty), gone)
    | .deleteObjects _ objects => fun gone => (.ok [], gone ++ objects)
    | _ => return .error .timeout
  clock _ := ⟨0⟩

/-- The bucket behind such a link. Its pages end between full pages. -/
def Archive.vault (bucket : String) (items : List Stored) (size : Nat) (live : Bool) :
    Archive (List Candidate) where
  bucket
  items
  gone := id
  seen := fun gone => if live then gone else []
  cut before _ := size ∣ before.length

variable {items before after shown : List Stored} {seen : List Candidate} {start : String}

theorem behind_tokenBehind (hdistinct : (items.map Stored.candidate).Nodup)
    (hitems : items = before ++ after) :
    behind items ((tokenBehind before).map (·.key)) ((tokenBehind before).bind (·.version)) =
      after := by
  rcases List.eq_nil_or_concat before with rfl | ⟨init, last, rfl⟩
  · simpa [tokenBehind, behind] using hitems
  rw [List.concat_eq_append, List.append_assoc] at hitems
  rw [List.concat_eq_append]
  -- No entry before the last one has its name.
  have hother : ∀ item ∈ init, (!(item.key == last.key && some item.version == some last.version)) =
      true := by
    intro item hitem
    have hne : item.candidate ≠ last.candidate := by
      rw [hitems, List.map_append, List.nodup_append] at hdistinct
      exact hdistinct.2.2 _ (List.mem_map_of_mem hitem) _ (by simp)
    simpa [Stored.candidate, imp_iff_not_or] using hne
  rw [hitems]
  simp only [tokenBehind, List.getLast?_concat, Option.map_some, Option.bind_some, behind]
  rw [List.dropWhile_append_of_pos hother]
  simp

theorem mem_replyOf {entry : VersionEntry} {goesOn : Bool} :
    entry ∈ (VersionListing.pageOf (replyOf items seen start shown goesOn)).content ↔
      ∃ item ∈ shown, BeginsWith start item.key ∧ item.candidate ∉ seen ∧
        entry = item.entry (decide (IsFirst (remaining items seen) item)) := by
  rw [VersionListing.mem_pageOf, replyOf]
  simp only [List.mem_append, List.mem_map, List.mem_filter, Bool.and_eq_true, decide_eq_true_eq,
    Bool.not_eq_true']
  constructor
  · rintro (⟨_, ⟨item, ⟨⟨hitem, hstart, hseen⟩, hmarker⟩, rfl⟩, rfl⟩ |
      ⟨_, ⟨item, ⟨⟨hitem, hstart, hseen⟩, hmarker⟩, rfl⟩, rfl⟩)
    · exact ⟨item, hitem, hstart, by simpa using hseen, by simp [Stored.entry, hmarker]⟩
    · exact ⟨item, hitem, hstart, by simpa using hseen, by simp [Stored.entry, hmarker]⟩
  · rintro ⟨item, hitem, hstart, hseen, rfl⟩
    have hvisible : (item ∈ shown ∧ BeginsWith start item.key ∧
        seen.contains item.candidate = false) := ⟨hitem, hstart, by simpa using hseen⟩
    cases hmarker : item.isMarker with
    | false => exact .inl ⟨_, ⟨item, ⟨hvisible, hmarker⟩, rfl⟩, by simp [Stored.entry, hmarker]⟩
    | true => exact .inr ⟨_, ⟨item, ⟨hvisible, hmarker⟩, rfl⟩, by simp [Stored.entry, hmarker]⟩

/-- Such a link serves such a bucket. -/
theorem Link.vault_serves (bucket : String) (hdistinct : (items.map Stored.candidate).Nodup)
    {size : Nat} (hsize : 0 < size) (live : Bool) :
    (Link.vault items size live).Serves (.vault bucket items size live) where
  distinct := hdistinct
  seen_subset gone := by
    cases live
    · exact List.nil_subset _
    · exact List.Subset.refl _
  lists := by
    rintro start limit before after gone reply ⟨hitems, hcut⟩ hreply
    obtain rfl := Except.ok.inj hreply
    rw [behind_tokenBehind hdistinct hitems]
    refine ⟨after.take size, after.drop size, (List.take_append_drop size after).symm,
      fun entry => mem_replyOf, ?_⟩
    cases hrest : after.drop size with
    | nil => rfl
    | cons item rest =>
      -- A page that is not the last one is full.
      have hlonger : size < after.length := by
        have hsome : after.drop size ≠ [] := by simp [hrest]
        simpa [List.drop_eq_nil_iff] using hsome
      have hfull : (after.take size).length = size := List.length_take_of_le (Nat.le_of_lt hlonger)
      have hshown : after.take size ≠ [] := by
        intro hnone
        rw [hnone] at hfull
        exact absurd hfull (Nat.ne_of_lt hsize)
      obtain ⟨last, hlast⟩ : ∃ last, (after.take size).getLast? = some last :=
        ⟨_, List.getLast?_eq_some_getLast hshown⟩
      have hbefore : size ∣ before.length := by
        rcases hcut with rfl | hcut
        · exact Nat.dvd_zero size
        · exact hcut
      unfold Archive.Follows
      rw [if_pos (by
        simp [Page.continues, VersionListing.pageOf, VersionListing.page, replyOf, hlast])]
      refine ⟨hshown, ?_, ?_, .inr ?_⟩
      · simp [VersionListing.pageOf, VersionListing.page, replyOf, tokenBehind, hlast]
      · rw [hitems, List.append_assoc, ← hrest, List.take_append_drop]
      · change size ∣ (before ++ after.take size).length
        rw [List.length_append, hfull]
        exact Nat.dvd_add hbefore (Nat.dvd_refl size)
  gone_of_list start limit token gone := rfl
  gone_of_delete _ := rfl

end Vault

end BucketCare

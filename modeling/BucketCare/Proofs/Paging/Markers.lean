import BucketCare.Listing.Objects
import BucketCare.Proofs.Command.Outputs
import BucketCare.Proofs.Deletion.Batches
import BucketCare.Proofs.Paging.Stopping
import BucketCare.Proofs.Text.Bytes

/-!
# Listing objects by markers

A store that speaks the first version of the interface goes on behind a marker: it answers with the
items whose names come after it. Where the store names no marker, the listing makes one, the greater
of the last key and the last folder of a page. Objects and folders arrive apart, each in ascending
order, so this is the name of the last item of the page, whichever of the two it is. Every request
therefore goes on exactly behind the items that were shown, and the pages are those that
continuation tokens lead through in the second version.

## Main definitions

* `ShelfItem`, `Shelf` — what a store shows below a path, in the order of the names
* `Client.Shows` — a store answers the requests for a listing with what a shelf holds
* `Shelf.pages` — a shelf cut into pages
* `Source.HandsOut` — a source of pages hands out a shelf
* `Cursor.gather` — a listing read to its end

## Main results

* `Shelf.exists_perm` — any items of different names can be put on a shelf
* `nextMarker_eq` — the marker of a page is the name of its last item
* `Source.HandsOut.serves` — a source that hands out a shelf serves its pages
* `Cursor.gather_of_serves` — what is gathered from a source that serves some pages
* `Shelf.gather_pages` — both versions of the interface lead through the pages of a shelf
-/

namespace BucketCare

/-! ## Shelves -/

/-- An object that a store shows in a listing, or a folder. -/
inductive ShelfItem where
  | object (key : String) (size : Option Int) (time : Option Timestamp)
      (etag storageClass : Option String)
  | folder (name : String)
  deriving DecidableEq, Repr

namespace ShelfItem

/-- The key of an object, or the name of a folder. -/
def name : ShelfItem → String
  | object key .. => key
  | folder name => name

/-- The object as a reply lists it. -/
def listed? : ShelfItem → Option ListedObject
  | object key size time etag storageClass => some ⟨some key, size, time, etag, storageClass⟩
  | folder _ => none

/-- The folder as a reply lists it. -/
def folder? : ShelfItem → Option String
  | object .. => none
  | folder name => some name

/-- The object as a listing shows it. -/
def entry? (item : ShelfItem) : Option ObjectEntry := item.listed?.map ObjectListing.entry

theorem name_of_entry? {item : ShelfItem} {entry : ObjectEntry} (h : item.entry? = some entry) :
    item.name = entry.key := by
  cases item <;> cases h
  rfl

theorem name_of_folder? {item : ShelfItem} {name : String} (h : item.folder? = some name) :
    item.name = name := by
  cases item <;> cases h
  rfl

end ShelfItem

/-- The objects and the folders among some items. -/
def ObjectPage.ofItems (items : List ShelfItem) : ObjectPage :=
  ⟨items.filterMap ShelfItem.entry?, items.filterMap ShelfItem.folder?⟩

/-- The items that a store shows below a path: finitely many of them, with no two of one name, in
the order of the bytes of their names. -/
structure Shelf where
  items : List ShelfItem
  ascending : items.Pairwise fun a b => Text.bytes a.name < Text.bytes b.name

namespace Shelf

variable (shelf : Shelf) {before rest : List ShelfItem}

/-- The items behind a marker; all of them if there is no marker. -/
def behind : Option String → List ShelfItem
  | none => shelf.items
  | some marker => shelf.items.filter fun item => Text.bytes marker < Text.bytes item.name

theorem ascending_name : shelf.items.Pairwise fun a b => a.name < b.name :=
  shelf.ascending.imp Text.bytes_lt_bytes.mp

theorem behind_some (marker : String) :
    shelf.behind (some marker) = shelf.items.filter fun item => marker < item.name := by
  simp only [behind, Text.bytes_lt_bytes]

variable {shelf}

/-- The items behind the last of the first items are the other ones. -/
theorem behind_getLast? (h : shelf.items = before ++ rest) :
    shelf.behind (before.getLast?.map ShelfItem.name) = rest := by
  rcases List.eq_nil_or_concat before with rfl | ⟨earlier, last, rfl⟩
  · exact h
  · -- The marker is the name of the last item, which parts those before it from those behind it.
    have hascending := shelf.ascending_name
    simp only [List.concat_eq_append, List.getLast?_concat, Option.map_some] at h ⊢
    rw [h, List.pairwise_append, List.pairwise_append] at hascending
    obtain ⟨⟨-, -, hearlier⟩, -, hrest⟩ := hascending
    have hnone : earlier.filter (fun item => last.name < item.name) = [] := by
      apply List.filter_eq_nil_iff.mpr
      intro item hmem
      simpa using String.lt_asymm (hearlier item hmem last (.head _))
    have hself : [last].filter (fun item => last.name < item.name) = [] :=
      List.filter_cons_of_neg (by simp)
    have hall : rest.filter (fun item => last.name < item.name) = rest := by
      apply List.filter_eq_self.mpr
      intro item hmem
      simpa using hrest last (by simp) item hmem
    rw [behind_some, h, List.filter_append, List.filter_append, hnone, hself, hall]
    rfl

/-- Any items of different names can be put on a shelf. -/
theorem exists_perm {items : List ShelfItem} (h : (items.map ShelfItem.name).Nodup) :
    ∃ shelf : Shelf, shelf.items.Perm items := by
  induction items with
  | nil => exact ⟨⟨[], .nil⟩, .nil⟩
  | cons item items ih =>
    rw [List.map_cons, List.nodup_cons] at h
    obtain ⟨hnew, hdistinct⟩ := h
    obtain ⟨shelf, hperm⟩ := ih hdistinct
    -- The new item goes between the items before it and the items behind it.
    let before := shelf.items.filter fun other => other.name < item.name
    let after := shelf.items.filter fun other => item.name < other.name
    have hbefore : before.Pairwise fun a b => a.name < b.name := shelf.ascending_name.filter _
    have hafter : after.Pairwise fun a b => a.name < b.name := shelf.ascending_name.filter _
    refine ⟨⟨before ++ item :: after, ?_⟩, ?_⟩
    · refine List.Pairwise.imp Text.bytes_lt_bytes.mpr ?_
      rw [List.pairwise_append, List.pairwise_cons]
      refine ⟨hbefore, ⟨fun other h => by simpa [after] using (List.mem_filter.mp h).2, hafter⟩, ?_⟩
      intro a ha b hb
      have hlow : a.name < item.name := by simpa using (List.mem_filter.mp ha).2
      rcases List.mem_cons.mp hb with rfl | hb
      · exact hlow
      · have hhigh : item.name < b.name := by simpa using (List.mem_filter.mp hb).2
        exact String.lt_trans hlow hhigh
    · have hother : after = shelf.items.filter fun other => !decide (other.name < item.name) := by
        apply List.filter_congr
        intro other hmem
        have hne : other.name ≠ item.name := by
          intro heq
          exact hnew (heq ▸ List.mem_map_of_mem (hperm.mem_iff.mp hmem))
        rcases lt_or_gt_of_ne hne with hlt | hlt
        · simp [hlt, String.lt_asymm hlt]
        · simp [hlt, String.lt_asymm hlt]
      have hsplit : (before ++ after).Perm shelf.items := by
        rw [hother]
        exact List.filter_append_perm _ _
      exact List.perm_middle.trans ((hsplit.trans hperm).cons item)

end Shelf

/-! ## The marker of a page -/

theorem laterText_left {a : String} {b : Option String} (h : ∀ text, b = some text → text < a) :
    laterText (some a) b = some a := by
  cases b with
  | none => rfl
  | some text => exact if_neg (String.lt_asymm (h text rfl))

theorem laterText_right {a : Option String} {b : String} (h : ∀ text, a = some text → text < b) :
    laterText a (some b) = some b := by
  cases a with
  | none => rfl
  | some text => exact if_pos (h text rfl)

/-- The marker of a page of ascending items is the name of the last of them. -/
theorem nextMarker_eq {items : List ShelfItem} (h : items.Pairwise fun a b => a.name < b.name) :
    nextMarker none ((items.filterMap ShelfItem.entry?).map ObjectEntry.key)
      (items.filterMap ShelfItem.folder?) = items.getLast?.map ShelfItem.name := by
  rcases List.eq_nil_or_concat items with rfl | ⟨earlier, last, rfl⟩
  · rfl
  rw [List.concat_eq_append] at h ⊢
  have hless : ∀ item ∈ earlier, item.name < last.name := fun item hmem =>
    (List.pairwise_append.mp h).2.2 item hmem last (.head _)
  rw [List.filterMap_append, List.filterMap_append, List.map_append, List.getLast?_concat]
  cases last with
  | object key size time etag storageClass =>
    -- The folders of the page come before its last object.
    have hfolders : ∀ name, (earlier.filterMap ShelfItem.folder?).getLast? = some name →
        name < key := by
      intro name hlast
      obtain ⟨item, hmem, hitem⟩ := List.mem_filterMap.mp (List.mem_of_getLast? hlast)
      exact ShelfItem.name_of_folder? hitem ▸ hless item hmem
    have hnone : [ShelfItem.object key size time etag storageClass].filterMap
        ShelfItem.folder? = [] := rfl
    have hlast : [ShelfItem.object key size time etag storageClass].filterMap
        ShelfItem.entry? = [⟨key, size.getD 0, Timestamp.instant? time, etag, storageClass⟩] := rfl
    rw [hnone, hlast, List.append_nil, List.map_singleton, nextMarker, List.getLast?_concat]
    exact laterText_left hfolders
  | folder name =>
    -- The objects of the page come before its last folder.
    have hkeys : ∀ key, ((earlier.filterMap ShelfItem.entry?).map ObjectEntry.key).getLast? =
        some key → key < name := by
      intro key hlast
      obtain ⟨entry, hentry, rfl⟩ := List.mem_map.mp (List.mem_of_getLast? hlast)
      obtain ⟨item, hmem, hitem⟩ := List.mem_filterMap.mp hentry
      exact ShelfItem.name_of_entry? hitem ▸ hless item hmem
    have hnone : [ShelfItem.folder name].filterMap ShelfItem.entry? = [] := rfl
    have hlast : [ShelfItem.folder name].filterMap ShelfItem.folder? = [name] := rfl
    rw [hnone, hlast, List.map_nil, List.append_nil, nextMarker, List.getLast?_concat]
    exact laterText_right hkeys

/-! ## Pages of a shelf -/

/-- A source of pages hands out a shelf: asked for what lies behind the mark of an item, it gives
the first items there, and a page behind which more remain ends in the mark of its last item. -/
def Source.HandsOut {σ : Type} (source : Source σ ObjectPage String) (shelf : Shelf) (limit : Nat)
    (mark : ShelfItem → String) : Prop :=
  ∀ before rest, shelf.items = before ++ rest → ∀ state, ∃ page state',
    (source (before.getLast?.map mark)).run state = (.ok page, state') ∧
    page.content = .ofItems (rest.take limit) ∧
    page.truncated = decide (limit < rest.length) ∧
    (limit < rest.length → page.next = (rest.take limit).getLast?.map mark)

/-- Items cut into pages of some size; there is a page even if there are no items. -/
def pageItems (limit : Nat) (items : List ShelfItem) : List (List ShelfItem) :=
  if items = [] then [[]] else inPages limit items

theorem pageItems_of_le {limit : Nat} {items : List ShelfItem} (hlimit : 1 ≤ limit)
    (h : items.length ≤ limit) : pageItems limit items = [items] := by
  by_cases hempty : items = []
  · simp [pageItems, hempty]
  · rw [pageItems, if_neg hempty]
    rcases Nat.lt_or_eq_of_le h with hless | hfull
    · rw [inPages_of_lt hless, if_neg hempty]
    · have hnone : inPages limit ([] : List ShelfItem) = [] := inPages_of_lt hlimit
      simpa [hnone] using inPages_append hlimit hfull []

theorem pageItems_of_lt {limit : Nat} {items : List ShelfItem} (hlimit : 1 ≤ limit)
    (h : limit < items.length) :
    pageItems limit items = items.take limit :: pageItems limit (items.drop limit) := by
  have hitems : items ≠ [] := by
    rintro rfl
    simp at h
  have hdrop : items.drop limit ≠ [] := by simpa using h
  have hfull : (items.take limit).length = limit := List.length_take_of_le (Nat.le_of_lt h)
  rw [pageItems, pageItems, if_neg hitems, if_neg hdrop]
  conv_lhs => rw [← List.take_append_drop limit items]
  exact inPages_append hlimit hfull _

theorem pageItems_flatten {limit : Nat} (hlimit : 1 ≤ limit) (items : List ShelfItem) :
    (pageItems limit items).flatten = items := by
  unfold pageItems
  split
  next h => simp [h]
  · exact inPages_flatten hlimit items

theorem length_pageItems {limit : Nat} (hlimit : 1 ≤ limit) (items : List ShelfItem) :
    (pageItems limit items).length = max 1 ((items.length + limit - 1) / limit) := by
  cases items with
  | nil =>
    have hnone : (0 + limit - 1) / limit = 0 := Nat.div_eq_of_lt (by omega)
    rw [List.length_nil, hnone]
    rfl
  | cons item items =>
    have hsome : 1 ≤ ((item :: items).length + limit - 1) / limit := by
      rw [Nat.le_div_iff_mul_le hlimit, List.length_cons]
      omega
    rw [Nat.max_eq_right hsome, pageItems, if_neg (List.cons_ne_nil _ _), inPages, List.length_map,
      List.length_range]

namespace Shelf

/-- The pages of a shelf. -/
def pages (shelf : Shelf) (limit : Nat) : List ObjectPage :=
  (pageItems limit shelf.items).map .ofItems

end Shelf

theorem ObjectPage.flatMap_objects (parts : List (List ShelfItem)) :
    (parts.map ObjectPage.ofItems).flatMap objects = parts.flatten.filterMap ShelfItem.entry? := by
  rw [List.filterMap_flatten, List.flatMap_def, List.map_map]
  rfl

theorem ObjectPage.flatMap_folders (parts : List (List ShelfItem)) :
    (parts.map ObjectPage.ofItems).flatMap folders = parts.flatten.filterMap ShelfItem.folder? := by
  rw [List.filterMap_flatten, List.flatMap_def, List.map_map]
  rfl

/-- A source that hands out a shelf serves the pages of what is left of it. -/
theorem Source.HandsOut.serves {σ : Type} {source : Source σ ObjectPage String} {shelf : Shelf}
    {limit : Nat} {mark : ShelfItem → String} (h : source.HandsOut shelf limit mark)
    (hlimit : 1 ≤ limit) {before rest : List ShelfItem} (hsplit : shelf.items = before ++ rest)
    (state : σ) : ∃ earlier last,
      source.Serves (earlier ++ [last]) (before.getLast?.map mark) state ∧
      (∀ page ∈ earlier, page.continues = true) ∧ last.continues = false ∧
      (earlier ++ [last]).map Page.content = (pageItems limit rest).map .ofItems := by
  -- What is left gets shorter with each page, since a page that does not end the shelf is full.
  induction hcount : rest.length using Nat.strongRecOn generalizing before rest state with
  | ind count ih =>
    obtain ⟨page, state', hrun, hcontent, htruncated, hnext⟩ :=
      h before rest hsplit state
    by_cases hmore : limit < rest.length
    · -- The page ends in the mark of its last item, behind which lies what is left.
      have hsome : rest.take limit ≠ [] := by
        rw [← List.length_pos_iff, List.length_take]
        omega
      have hlast := List.getLast?_eq_some_getLast hsome
      have hpage : page.continues = true := by
        simp [Page.continues, htruncated, hmore, hnext hmore, hlast]
      have hrest : shelf.items = (before ++ rest.take limit) ++ rest.drop limit := by
        rw [List.append_assoc, List.take_append_drop, hsplit]
      have hless : (rest.drop limit).length < count := by
        rw [List.length_drop]
        omega
      obtain ⟨earlier, last, hserves, hgoes, hends, hcontents⟩ := ih _ hless hrest state' rfl
      rw [List.getLast?_append, hlast, Option.some_or, ← hlast, ← hnext hmore] at hserves
      refine ⟨page :: earlier, last, ⟨state', hrun, hserves⟩, ?_, hends, ?_⟩
      · simpa [hpage] using hgoes
      · rw [List.cons_append, List.map_cons, hcontents, hcontent, pageItems_of_lt hlimit hmore]
        rfl
    · have hall : rest.length ≤ limit := Nat.le_of_not_lt hmore
      refine ⟨[], page, ⟨state', hrun, trivial⟩, List.forall_mem_nil _, ?_, ?_⟩
      · simp [Page.continues, htruncated, hmore]
      · simp [hcontent, pageItems_of_le hlimit hall, List.take_of_length_le hall]

/-! ## Reading to the end -/

namespace Cursor

variable {σ α τ : Type}

/-- Read a listing to its end, at most a number of pages, and gather what the pages hold. -/
def gather (source : Source σ α τ) (budget : Nat) :
    StateM σ (Except Error (Option Error × List α × Cursor α τ)) := do
  match ← start source with
  | .ok cursor =>
    return .ok (← cursor.walk source (fun content seen => return (none, .more (seen ++ [content])))
      budget [])
  | .error e => return .error e

theorem across_gathering (contents seen : List α) :
    Visit.across (fun content seen => .more (seen ++ [content])) contents seen =
      (.more (seen ++ contents), contents.length) := by
  induction contents generalizing seen with
  | nil => simp [Visit.across]
  | cons content rest ih => simp [Visit.across_cons_of_more, ih]

section Gather

variable {source : Source σ α τ} {state : σ} {earlier : List (Page α τ)} {last : Page α τ}

/-- What is gathered from a source that serves some pages, the last of which ends the listing. -/
theorem gather_of_serves (hserves : source.Serves (earlier ++ [last]) none state)
    (hgoes : ∀ page ∈ earlier, page.continues = true) (hfinal : last.continues = false)
    {budget : Nat} (hbudget : (earlier ++ [last]).length ≤ budget) :
    ∃ cursor state', (gather source budget).run state =
        (.ok (none, (earlier ++ [last]).map Page.content, cursor), state') ∧
      cursor.hasNext = false ∧ cursor.fetches = (earlier ++ [last]).length := by
  obtain ⟨final, hyields⟩ := hserves.yields
  obtain ⟨page, tries, behind, hfetch⟩ := hyields.exists_fetch (by simp)
  obtain ⟨budget, rfl⟩ : ∃ n, budget = n + 1 := ⟨budget - 1, by simp at hbudget; omega⟩
  obtain ⟨cursor, state', sent, hwalk, hsent, hfetches, -, hended⟩ := unread.walk_of_yields
    (fun content seen => .more (seen ++ [content])) [] rfl rfl hyields hgoes (.inl hfinal) hbudget
  simp only [across_gathering, List.nil_append] at hwalk hsent hended
  refine ⟨cursor, state', ?_, hended _ rfl, ?_⟩
  · rw [gather, StateT.run_bind, start_of_fetched hfetch]
    change (walk source _ (budget + 1) _ [] >>= fun _ => _).run behind = _
    rw [StateT.run_bind, walk_started hfetch, hwalk]
    rfl
  · rw [List.length_map, List.take_length] at hsent
    rw [hfetches, hsent.count_unique hyields]
    exact Nat.zero_add _

end Gather

end Cursor

/-! ## Both versions of the interface -/

/-- A reply with the first of some items, the objects and the folders apart. -/
def ObjectsReply.ofItems (limit : Nat) (items : List ShelfItem) (next : Option String) :
    ObjectsReply where
  objects := (items.take limit).filterMap ShelfItem.listed?
  folders := ((items.take limit).filterMap ShelfItem.folder?).map some
  truncated := some (limit < items.length)
  next

/-- A store answers the requests of a client for a listing with what a shelf holds: by the first
version with the items behind a marker, without a marker to go on from, and by the second version
with the items behind the one that a token was given for. -/
structure Client.Shows {σ : Type} (client : Client σ) (listing : ObjectListing) (shelf : Shelf)
    (token : ShelfItem → String) (limit : Nat) : Prop where
  pageSize_eq : client.pageSize = limit
  byMarker : ∀ marker state, ∃ state', (client.link.send (.listObjects listing.bucket
    listing.folder listing.delimiter limit marker)).run state =
      (.ok (.ofItems limit (shelf.behind marker) none), state')
  byToken : ∀ before rest, shelf.items = before ++ rest → ∀ state, ∃ state',
    (client.link.send (.listObjectsV2 listing.bucket listing.folder listing.delimiter limit
      (before.getLast?.map token))).run state =
        (.ok (.ofItems limit rest
          (if limit < rest.length then (rest.take limit).getLast?.map token else none)), state')

namespace ObjectListing

theorem content_ofItems (limit : Nat) (items : List ShelfItem) (next : Option String) :
    content (.ofItems limit items next) = .ofItems (items.take limit) := by
  rw [content, ObjectPage.ofItems, ObjectsReply.ofItems, List.map_filterMap, List.filterMap_map]
  congr 1
  exact List.filterMap_some

variable {σ : Type} {client : Client σ} {listing : ObjectListing} {shelf : Shelf}
variable {token : ShelfItem → String} {limit : Nat}

theorem source_run_one {marker : Option String} {reply : ObjectsReply} {state state' : σ}
    (hversion : client.listVersion = 1)
    (h : (client.link.send (.listObjects listing.bucket listing.folder listing.delimiter
      client.pageSize marker)).run state = (.ok reply, state')) :
    (listing.source client marker).run state = (.ok (pageV1 reply), state') := by
  rw [source, hversion]
  change ((client.request _).run >>= _).run state = _
  rw [StateT.run_bind, Client.request_run_of_ok h]
  rfl

theorem source_run_two {mark : Option String} {reply : ObjectsReply} {state state' : σ}
    (hversion : client.listVersion = 2)
    (h : (client.link.send (.listObjectsV2 listing.bucket listing.folder listing.delimiter
      client.pageSize mark)).run state = (.ok reply, state')) :
    (listing.source client mark).run state = (.ok (pageV2 reply), state') := by
  rw [source, hversion]
  change ((client.request _).run >>= _).run state = _
  rw [StateT.run_bind, Client.request_run_of_ok h]
  rfl

/-- The first version hands out a shelf by the names of its items. -/
theorem handsOut_byMarker (h : client.Shows listing shelf token limit) :
    (listing.source { client with listVersion := 1 }).HandsOut shelf limit ShelfItem.name := by
  intro before rest hsplit state
  obtain ⟨state', hsend⟩ := h.byMarker (before.getLast?.map ShelfItem.name) state
  rw [Shelf.behind_getLast? hsplit, ← h.pageSize_eq] at hsend
  have hall := shelf.ascending_name
  rw [hsplit] at hall
  have hascending : (rest.take limit).Pairwise fun a b => a.name < b.name :=
    (List.pairwise_append.mp hall).2.1.take
  refine ⟨pageV1 (.ofItems limit rest none), state', source_run_one rfl hsend,
    content_ofItems limit rest none, rfl, fun _ => ?_⟩
  rw [pageV1, content_ofItems]
  exact nextMarker_eq hascending

/-- The second version hands out a shelf by the tokens of its items. -/
theorem handsOut_byToken (h : client.Shows listing shelf token limit) :
    (listing.source { client with listVersion := 2 }).HandsOut shelf limit token := by
  intro before rest hsplit state
  obtain ⟨state', hsend⟩ := h.byToken before rest hsplit state
  rw [← h.pageSize_eq] at hsend
  refine ⟨_, state', source_run_two rfl hsend, content_ofItems limit rest _, rfl, ?_⟩
  intro hmore
  exact if_pos hmore

end ObjectListing

namespace Shelf

/-- A listing of a shelf is read to its end in as many requests as the shelf has pages, and by both
versions of the interface it shows the same pages, which together hold every object and every folder
of the shelf once. -/
theorem gather_pages {σ : Type} {client : Client σ} {listing : ObjectListing} {shelf : Shelf}
    {token : ShelfItem → String} {limit budget : Nat} (hlimit : 1 ≤ limit)
    (hshows : client.Shows listing shelf token limit)
    (hbudget : max 1 ((shelf.items.length + limit - 1) / limit) ≤ budget) (state : σ) :
    (∀ version ∈ [1, 2], ∃ cursor state',
      (Cursor.gather (listing.source { client with listVersion := version }) budget).run state =
        (.ok (none, shelf.pages limit, cursor), state') ∧
      cursor.hasNext = false ∧
      cursor.fetches = max 1 ((shelf.items.length + limit - 1) / limit)) ∧
    (shelf.pages limit).flatMap ObjectPage.objects = shelf.items.filterMap ShelfItem.entry? ∧
    (shelf.pages limit).flatMap ObjectPage.folders = shelf.items.filterMap ShelfItem.folder? := by
  have hcount := length_pageItems hlimit shelf.items
  have hread : ∀ {source : Source σ ObjectPage String} {mark : ShelfItem → String},
      source.HandsOut shelf limit mark → ∃ cursor state',
        (Cursor.gather source budget).run state =
          (.ok (none, shelf.pages limit, cursor), state') ∧
        cursor.hasNext = false ∧
        cursor.fetches = max 1 ((shelf.items.length + limit - 1) / limit) := by
    intro source mark hhands
    obtain ⟨earlier, last, hserves, hgoes, hfinal, hcontents⟩ :=
      hhands.serves hlimit (List.nil_append _).symm state
    have hlength : (earlier ++ [last]).length =
        max 1 ((shelf.items.length + limit - 1) / limit) := by
      rw [← hcount, ← List.length_map ObjectPage.ofItems, ← hcontents, List.length_map]
    rw [← hlength] at hbudget ⊢
    rw [pages, ← hcontents]
    exact Cursor.gather_of_serves hserves hgoes hfinal hbudget
  refine ⟨?_, ?_, ?_⟩
  · intro version hversion
    obtain rfl | rfl : version = 1 ∨ version = 2 := by simpa using hversion
    · exact hread (ObjectListing.handsOut_byMarker hshows)
    · exact hread (ObjectListing.handsOut_byToken hshows)
  · rw [pages, ObjectPage.flatMap_objects, pageItems_flatten hlimit]
  · rw [pages, ObjectPage.flatMap_folders, pageItems_flatten hlimit]

/-- The client of a store that shows a shelf and takes the names of the items for their tokens. -/
def client (shelf : Shelf) (limit : Nat) : Client Unit where
  link :=
    { send := fun request => return match request with
        | .listObjects _ _ _ _ marker => .ok (.ofItems limit (shelf.behind marker) none)
        | .listObjectsV2 _ _ _ _ token =>
          let rest := shelf.behind token
          .ok (.ofItems limit rest (if limit < rest.length then
            (rest.take limit).getLast?.map ShelfItem.name else none))
        | _ => .error .timeout
      clock := fun _ => ⟨0⟩ }
  endpoint := none
  region := "us-east-1"
  listVersion := 1
  pageSize := limit
  multipart := .default
  credentials := .error .noMoreElements

theorem client_shows (shelf : Shelf) (listing : ObjectListing) (limit : Nat) :
    (shelf.client limit).Shows listing shelf ShelfItem.name limit where
  pageSize_eq := rfl
  byMarker marker state := ⟨state, rfl⟩
  byToken before rest hsplit state := by
    refine ⟨state, ?_⟩
    rw [← behind_getLast? hsplit]
    rfl

/-- A shelf whose first page ends in a folder and whose second page ends in an object. -/
def mixed : Shelf where
  items := [.object "a" none none none none, .folder "b/", .folder "c/",
    .object "d" (some 1) none none none, .object "e" none none none none]
  ascending := by decide

/-- Both versions show a shelf of five items on three pages. -/
theorem gather_pages_mixed :
    1 ≤ 2 ∧ (mixed.client 2).Shows ⟨"bucket", "", some "/"⟩ mixed ShelfItem.name 2 ∧
    max 1 ((mixed.items.length + 2 - 1) / 2) ≤ 3 ∧
    ∀ version ∈ [1, 2], ∃ cursor state', (Cursor.gather
      (ObjectListing.source { mixed.client 2 with listVersion := version }
        ⟨"bucket", "", some "/"⟩) 3).run () =
        (.ok (none, [⟨[⟨"a", 0, none, none, none⟩], ["b/"]⟩, ⟨[⟨"d", 1, none, none, none⟩], ["c/"]⟩,
          ⟨[⟨"e", 0, none, none, none⟩], []⟩], cursor), state') ∧ cursor.fetches = 3 := by
  have hshows := client_shows mixed ⟨"bucket", "", some "/"⟩ 2
  have hbudget : max 1 ((mixed.items.length + 2 - 1) / 2) ≤ 3 := by decide
  refine ⟨by decide, hshows, hbudget, ?_⟩
  intro version hversion
  obtain ⟨cursor, state', hrun, -, hfetches⟩ :=
    (gather_pages (by decide) hshows hbudget ()).1 version hversion
  exact ⟨cursor, state', hrun, hfetches⟩

end Shelf

end BucketCare

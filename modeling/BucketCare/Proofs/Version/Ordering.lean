import BucketCare.Listing.Versions
import BucketCare.Proofs.Version.Restoring
import Mathlib

/-!
# The order of a version page

A store may list the versions and the delete markers of a page in any order, such as all versions
before all markers, and times that tie say nothing about which of two entries is newer. A page puts
its entries in order by their ranks: by key, the latest entry of a key first, then the newest. When
one entry of each key is the latest, and no two versions of a key are equally old, the targets of a
page are therefore a property of its set of entries, whatever order they were listed in.

## Main definitions

* `VersionEntry.stamp`, `VersionEntry.rank` — how new an entry is, and where it stands on a page
* `KeyGroups` — the groups of a listing in ascending order of their keys
* `NewestFirst` — a group that begins with its latest entry and goes on from new to old
* `RestorePlanner.pageTargets` — the targets of one page
* `RestorePlanner.Restores` — the target of an object, by the entries of its key alone

## Main results

* `VersionEntry.compare_isLE_iff` — the order of a page is the order of the ranks
* `exists_keyGroups` — an ordered listing falls into groups
* `RestorePlanner.mem_pageTargets_iff` — the targets of a page are those of its set of entries
* `RestorePlanner.pageTargets_of_any_order` — the page, its groups and its targets
-/

namespace BucketCare

/-! ## Ranks -/

namespace VersionEntry

/-- How new an entry is. An absent time counts as the oldest. -/
def stamp (entry : VersionEntry) : WithBot ℤ :=
  match entry.time with
  | some t => t.nanoseconds
  | none => ⊥

/-- Where an entry stands on a page: by its key, the latest entries first, then the newest. -/
def rank (entry : VersionEntry) : String ×ₗ Boolᵒᵈ ×ₗ (WithBot ℤ)ᵒᵈ :=
  toLex (entry.key, toLex (.toDual entry.isLatest, .toDual entry.stamp))

theorem compareAbsentFirst_isLE_iff {a b : VersionEntry} :
    (Instant.compareAbsentFirst a.time b.time).isLE = true ↔ a.stamp ≤ b.stamp := by
  unfold stamp
  cases a.time with
  | none => cases b.time <;> simp [Instant.compareAbsentFirst]
  | some s =>
    cases b.time with
    | none => simp [Instant.compareAbsentFirst]
    | some t => simp [Instant.compareAbsentFirst, Std.isLE_compare]

theorem rank_le_iff {a b : VersionEntry} : a.rank ≤ b.rank ↔ a.key < b.key ∨
    a.key = b.key ∧ (b.isLatest < a.isLatest ∨ a.isLatest = b.isLatest ∧ b.stamp ≤ a.stamp) := by
  simp only [rank, Prod.Lex.toLex_le_toLex, OrderDual.toDual_lt_toDual, OrderDual.toDual_le_toDual,
    OrderDual.toDual_inj]

/-- The order of a page is the order of the ranks. -/
theorem compare_isLE_iff {a b : VersionEntry} : (compare a b).isLE = true ↔ a.rank ≤ b.rank := by
  -- Each level of the comparison decides, unless it finds the two entries equal.
  have hkey : compareOfLessAndEq a.key b.key = .eq ↔ a.key = b.key :=
    compareOfLessAndEq_eq_eq le_refl not_le
  have hlatest : Ord.compare b.isLatest a.isLatest = .eq ↔ a.isLatest = b.isLatest := by
    rw [compare_eq_iff_eq, eq_comm]
  rw [compare, Ordering.isLE_then_iff_or, Ordering.isLE_then_iff_or, compareOfLessAndEq_eq_lt, hkey,
    hlatest, compareAbsentFirst_isLE_iff, compare_lt_iff_lt, rank_le_iff]

theorem sort_perm (entries : List VersionEntry) : (sort entries).Perm entries :=
  List.mergeSort_perm _ _

@[simp] theorem mem_sort {entry : VersionEntry} {entries : List VersionEntry} :
    entry ∈ sort entries ↔ entry ∈ entries := (sort_perm entries).mem_iff

/-- The ranks of a page ascend. -/
theorem sort_pairwise (entries : List VersionEntry) :
    (sort entries).Pairwise fun a b => a.rank ≤ b.rank := by
  refine (List.pairwise_mergeSort ?_ ?_ entries).imp compare_isLE_iff.mp
  · intro a b c
    rw [compare_isLE_iff, compare_isLE_iff, compare_isLE_iff]
    exact le_trans
  · intro a b
    rw [Bool.or_eq_true, compare_isLE_iff, compare_isLE_iff]
    exact le_total _ _

theorem key_le_of_rank_le {a b : VersionEntry} (h : a.rank ≤ b.rank) : a.key ≤ b.key := by
  rcases rank_le_iff.mp h with hlt | ⟨heq, -⟩
  · exact hlt.le
  · exact heq.le

/-- Of the entries of a key, none is the latest behind one that is not. -/
theorem isLatest_of_rank_le {a b : VersionEntry} (h : a.rank ≤ b.rank) (hkey : a.key = b.key)
    (hlatest : b.isLatest = true) : a.isLatest = true := by
  rcases rank_le_iff.mp h with hlt | ⟨-, hlt | ⟨heq, -⟩⟩
  · exact absurd hkey hlt.ne
  · exact (Bool.lt_iff.mp hlt).2
  · exact heq.trans hlatest

/-- Of the entries of a key that are both the latest or both not, the newer comes first. -/
theorem stamp_le_of_rank_le {a b : VersionEntry} (h : a.rank ≤ b.rank) (hkey : a.key = b.key)
    (hlatest : a.isLatest = b.isLatest) : b.stamp ≤ a.stamp := by
  rcases rank_le_iff.mp h with hlt | ⟨-, hlt | ⟨-, hle⟩⟩
  · exact absurd hkey hlt.ne
  · exact absurd hlatest hlt.ne'
  · exact hle

end VersionEntry

/-! ## Groups -/

/-- The groups of a listing in ascending order of their keys. -/
structure KeyGroups (groups : List (List VersionEntry)) : Prop extends Grouping groups where
  ascending : groups.Pairwise fun group other => ∀ a ∈ group, ∀ b ∈ other, a.key < b.key

theorem KeyGroups.nil : KeyGroups [] := ⟨⟨nofun, nofun, .nil⟩, .nil⟩

theorem KeyGroups.tail {group : List VersionEntry} {groups : List (List VersionEntry)}
    (h : KeyGroups (group :: groups)) : KeyGroups groups :=
  ⟨h.toGrouping.tail, h.ascending.of_cons⟩

/-- One more group in front, of a key before all others. -/
theorem KeyGroups.cons {group : List VersionEntry} {groups : List (List VersionEntry)}
    (h : KeyGroups groups) (hne : group ≠ []) (hsame : ∀ a ∈ group, ∀ b ∈ group, a.key = b.key)
    (hbefore : ∀ other ∈ groups, ∀ a ∈ group, ∀ b ∈ other, a.key < b.key) :
    KeyGroups (group :: groups) where
  ne_nil := List.forall_mem_cons.mpr ⟨hne, h.ne_nil⟩
  same_key := List.forall_mem_cons.mpr ⟨hsame, h.same_key⟩
  distinct_keys := .cons (fun other hother a ha b hb => (hbefore other hother a ha b hb).ne)
    h.distinct_keys
  ascending := .cons hbefore h.ascending

/-- A listing whose keys ascend falls into groups. -/
theorem exists_keyGroups {entries : List VersionEntry}
    (h : entries.Pairwise fun a b => a.key ≤ b.key) :
    ∃ groups, KeyGroups groups ∧ groups.flatten = entries := by
  induction entries with
  | nil => exact ⟨[], .nil, rfl⟩
  | cons entry rest ih =>
    obtain ⟨hentry, hrest⟩ := List.pairwise_cons.mp h
    obtain ⟨groups, hgroups, rfl⟩ := ih hrest
    -- The entry opens a group of its own, unless it has the key of the first group.
    have hopen (hbefore : ∀ other ∈ groups, ∀ b ∈ other, entry.key < b.key) :
        ∃ groups', KeyGroups groups' ∧ groups'.flatten = entry :: groups.flatten :=
      ⟨[entry] :: groups, hgroups.cons (by simp) (by simp) (by simpa using hbefore), rfl⟩
    cases groups with
    | nil => exact hopen nofun
    | cons group others =>
      obtain ⟨first, later, rfl⟩ := List.exists_cons_of_ne_nil (hgroups.ne_nil group (.head _))
      obtain ⟨hfirst, -⟩ := List.pairwise_cons.mp hrest
      obtain ⟨hascending, -⟩ := List.pairwise_cons.mp hgroups.ascending
      have hsame : ∀ a ∈ first :: later, a.key = first.key := fun a ha =>
        hgroups.same_key _ (.head _) a ha first (.head _)
      rcases (hentry first (.head _)).eq_or_lt with hkey | hlt
      · have hjoined : ∀ a ∈ entry :: first :: later, a.key = first.key :=
          List.forall_mem_cons.mpr ⟨hkey, hsame⟩
        refine ⟨(entry :: first :: later) :: others, hgroups.tail.cons (by simp) ?_ ?_, rfl⟩
        · exact fun a ha b hb => (hjoined a ha).trans (hjoined b hb).symm
        · intro other hother a ha b hb
          rw [hjoined a ha]
          exact hascending other hother first (.head _) b hb
      · apply hopen
        intro other hother b hb
        rcases List.mem_cons.mp hother with rfl | hother
        · rwa [hsame b hb]
        · exact hlt.trans (hascending other hother first (.head _) b hb)

/-- A set of entries of which each key has one latest entry, and no two versions of a key are
equally old. -/
structure WellDated (entries : List VersionEntry) : Prop where
  nodup : entries.Nodup
  one_latest : ∀ entry ∈ entries, ∃ latest ∈ entries, latest.key = entry.key ∧
    ∀ other ∈ entries, other.key = entry.key → (other.isLatest = true ↔ other = latest)
  distinct_stamps : ∀ a ∈ entries, ∀ b ∈ entries, a.key = b.key → a.isMarker = false →
    b.isMarker = false → a.stamp = b.stamp → a = b

theorem WellDated.of_perm {entries other : List VersionEntry} (h : WellDated entries)
    (hperm : other.Perm entries) : WellDated other where
  nodup := hperm.nodup_iff.mpr h.nodup
  one_latest := by simpa only [hperm.mem_iff] using h.one_latest
  distinct_stamps := by simpa only [hperm.mem_iff] using h.distinct_stamps

/-- A group begins with the only entry that is the latest, and goes on from new to old. -/
structure NewestFirst (first : VersionEntry) (later : List VersionEntry) : Prop where
  latest : first.isLatest = true
  not_latest : ∀ entry ∈ later, entry.isLatest = false
  newest : later.Pairwise fun a b => b.stamp ≤ a.stamp

section Groups

variable {entries : List VersionEntry} {groups : List (List VersionEntry)}

/-- A group holds all entries of its key. -/
theorem Grouping.mem_group (h : Grouping groups) {group : List VersionEntry}
    (hgroup : group ∈ groups) {member entry : VersionEntry} (hmember : member ∈ group)
    (hentry : entry ∈ groups.flatten) (hkey : entry.key = member.key) : entry ∈ group := by
  induction groups with
  | nil => cases hgroup
  | cons head rest ih =>
    obtain ⟨hdistinct, -⟩ := List.pairwise_cons.mp h.distinct_keys
    obtain hhere | ⟨other, hother, hthere⟩ : entry ∈ head ∨ ∃ other ∈ rest, entry ∈ other := by
      simpa using hentry
    · rcases List.mem_cons.mp hgroup with rfl | hrest
      · exact hhere
      · exact absurd hkey (hdistinct group hrest entry hhere member hmember)
    · rcases List.mem_cons.mp hgroup with rfl | hrest
      · exact absurd hkey.symm (hdistinct other hother member hmember entry hthere)
      · exact ih h.tail hrest (List.mem_flatten.mpr ⟨other, hother, hthere⟩)

/-- The groups of a page are ordered from new to old behind their latest entry. -/
theorem KeyGroups.newestFirst (h : KeyGroups groups)
    (hpage : groups.flatten = VersionEntry.sort entries) (hdated : WellDated entries)
    {first : VersionEntry} {later : List VersionEntry} (hgroup : first :: later ∈ groups) :
    NewestFirst first later := by
  have hsub : (first :: later).Sublist (VersionEntry.sort entries) :=
    hpage ▸ List.sublist_flatten_of_mem hgroup
  have hmem : ∀ entry ∈ first :: later, entry ∈ entries := fun entry hentry =>
    VersionEntry.mem_sort.mp (hsub.subset hentry)
  have hkey : ∀ a ∈ first :: later, ∀ b ∈ first :: later, a.key = b.key :=
    h.same_key _ hgroup
  obtain ⟨hfirst, hlater⟩ :=
    List.pairwise_cons.mp ((VersionEntry.sort_pairwise entries).sublist hsub)
  obtain ⟨hnotmem, -⟩ := List.nodup_cons.mp
    (((VersionEntry.sort_perm entries).nodup_iff.mpr hdated.nodup).sublist hsub)
  obtain ⟨latest, hlatest, hlatestKey, hunique⟩ := hdated.one_latest first (hmem first (.head _))
  -- The latest entry of the key stands in this group, so the first is the latest.
  have hgrouped : latest ∈ first :: later :=
    h.mem_group hgroup (.head _) (hpage ▸ VersionEntry.mem_sort.mpr hlatest) hlatestKey
  have hfirstLatest : first.isLatest = true := by
    have hisLatest : latest.isLatest = true := (hunique latest hlatest hlatestKey).mpr rfl
    rcases List.mem_cons.mp hgrouped with rfl | hbehind
    · exact hisLatest
    · exact VersionEntry.isLatest_of_rank_le (hfirst latest hbehind) hlatestKey.symm hisLatest
  have hnot : ∀ entry ∈ later, entry.isLatest = false := by
    intro entry hentry
    rw [Bool.eq_false_iff]
    intro hentryLatest
    have hentryEq : entry = latest :=
      (hunique entry (hmem entry (.tail _ hentry)) (hkey _ (.tail _ hentry) _ (.head _))).mp
        hentryLatest
    have hfirstEq : first = latest := (hunique first (hmem first (.head _)) rfl).mp hfirstLatest
    exact hnotmem (hfirstEq ▸ hentryEq ▸ hentry)
  refine ⟨hfirstLatest, hnot, hlater.imp_of_mem ?_⟩
  intro a b ha hb hrank
  exact VersionEntry.stamp_le_of_rank_le hrank (hkey _ (.tail _ ha) _ (.tail _ hb))
    ((hnot a ha).trans (hnot b hb).symm)

end Groups

/-! ## Targets -/

namespace RestorePlanner

/-- The targets of one page. -/
def pageTargets (accept : VersionEntry → Bool) (page : Page (List VersionEntry) VersionMarker) :
    List RestoreTarget :=
  (page.content.foldl (observe accept) .new).drain.1

/-- The target of an object by the entries of its key: its latest entry is a delete marker over a
file that is accepted, and the target is the newest of its versions that have an identifier. -/
def Restores (accept : VersionEntry → Bool) (entries : List VersionEntry)
    (target : RestoreTarget) : Prop :=
  (∃ latest ∈ entries, latest.key = target.key ∧ latest.isLatest = true ∧
    latest.isMarker = true ∧ target.key.toList.getLast? ≠ some '/' ∧ accept latest = true) ∧
  ∃ version ∈ entries, version.key = target.key ∧ version.isMarker = false ∧
    version.version = some target.version ∧
    ∀ other ∈ entries, other.key = target.key → other.isMarker = false →
      other.version.isSome = true → other.stamp ≤ version.stamp

variable {accept : VersionEntry → Bool} {entries : List VersionEntry}
variable {groups : List (List VersionEntry)} {target other : RestoreTarget}
variable {truncated : Bool} {next : Option VersionMarker}

/-- An object has one target at most. -/
theorem Restores.unique (hdated : WellDated entries) (h : Restores accept entries target)
    (hother : Restores accept entries other) (hkey : target.key = other.key) : target = other := by
  obtain ⟨-, a, ha, haKey, haMarker, haVersion, haNewest⟩ := h
  obtain ⟨-, b, hb, hbKey, hbMarker, hbVersion, hbNewest⟩ := hother
  have hab : a.key = b.key := by rw [haKey, hkey, hbKey]
  have hle : b.stamp ≤ a.stamp := haNewest b hb (by rw [hbKey, hkey]) hbMarker (by simp [hbVersion])
  have hge : a.stamp ≤ b.stamp :=
    hbNewest a ha (by rw [haKey, hkey]) haMarker (by simp [haVersion])
  obtain rfl := hdated.distinct_stamps a ha b hb hab haMarker hbMarker (hge.antisymm hle)
  have hversion : target.version = other.version := Option.some.inj (haVersion.symm.trans hbVersion)
  cases target
  cases other
  simp_all

/-- The target of a group of a page is the target of its object. -/
theorem restores_of_groupTarget (hgroups : KeyGroups groups)
    (hpage : groups.flatten = VersionEntry.sort entries) (hdated : WellDated entries)
    {group : List VersionEntry} (hgroup : group ∈ groups)
    (htarget : groupTarget accept group = some target) : Restores accept entries target := by
  obtain ⟨first, later, rfl⟩ := List.exists_cons_of_ne_nil (hgroups.ne_nil group hgroup)
  have hmem : ∀ entry ∈ first :: later, entry ∈ entries := fun entry hentry =>
    VersionEntry.mem_sort.mp (hpage ▸ List.mem_flatten.mpr ⟨_, hgroup, hentry⟩)
  have hordered := hgroups.newestFirst hpage hdated hgroup
  obtain ⟨⟨hmarker, hlatest, hfile, haccept⟩, before, entry, after, version, rfl, hbefore,
    hreal, hversion, rfl⟩ := groupTarget_eq_some_iff.mp htarget
  have hkey : first.key = entry.key :=
    hgroups.same_key _ hgroup first (.head _) entry (by simp)
  refine ⟨⟨first, hmem first (.head _), hkey, hlatest, hmarker, hkey ▸ hfile, haccept⟩, entry,
    hmem entry (by simp), rfl, hreal, hversion, ?_⟩
  intro rival hrival hrivalKey hrivalReal hrivalVersion
  -- A rival stands in the group, and neither at its head nor before the entry that was chosen.
  have hentry : entry ∈ first :: (before ++ entry :: after) := by simp
  have hgrouped : rival ∈ first :: (before ++ entry :: after) :=
    hgroups.mem_group hgroup hentry (hpage ▸ VersionEntry.mem_sort.mpr hrival) hrivalKey
  have hplace : rival = first ∨ rival ∈ before ∨ rival = entry ∨ rival ∈ after := by
    simpa using hgrouped
  rcases hplace with rfl | hbefore' | rfl | hafter
  · rw [hmarker] at hrivalReal
    cases hrivalReal
  · rcases hbefore rival hbefore' with hrivalMarker | hnone
    · rw [hrivalMarker] at hrivalReal
      cases hrivalReal
    · rw [hnone] at hrivalVersion
      cases hrivalVersion
  · exact le_rfl
  · have hnewest := (List.pairwise_append.mp hordered.newest).2.1
    exact (List.pairwise_cons.mp hnewest).1 rival hafter

/-- The group of an object that has a target has one too. -/
theorem exists_groupTarget (hgroups : KeyGroups groups)
    (hpage : groups.flatten = VersionEntry.sort entries) (hdated : WellDated entries)
    (h : Restores accept entries target) : ∃ group ∈ groups, ∃ found,
      groupTarget accept group = some found ∧ found.key = target.key := by
  obtain ⟨⟨latest, hlatest, hlatestKey, hisLatest, hmarker, hfile, haccept⟩, version, hversion,
    hversionKey, hreal, hidentifier, -⟩ := h
  obtain ⟨group, hgroup, hgrouped⟩ := List.mem_flatten.mp
    (hpage ▸ VersionEntry.mem_sort.mpr hlatest : latest ∈ groups.flatten)
  obtain ⟨first, later, rfl⟩ := List.exists_cons_of_ne_nil (hgroups.ne_nil group hgroup)
  have hordered := hgroups.newestFirst hpage hdated hgroup
  -- The group of the latest entry begins with it.
  have hfirst : latest = first := by
    rcases List.mem_cons.mp hgrouped with heq | hlater
    · exact heq
    · rw [hordered.not_latest latest hlater] at hisLatest
      cases hisLatest
  subst hfirst
  have hversionGrouped : version ∈ latest :: later :=
    hgroups.mem_group hgroup (.head _) (hpage ▸ VersionEntry.mem_sort.mpr hversion)
      (hversionKey.trans hlatestKey.symm)
  have hlater : version ∈ later := by
    rcases List.mem_cons.mp hversionGrouped with rfl | hlater
    · rw [hmarker] at hreal
      cases hreal
    · exact hlater
  have hundeletable : (latest.isUndeletable && accept latest) = true := by
    rw [← hlatestKey] at hfile
    simp [VersionEntry.isUndeletable, VersionEntry.isDirectory, isDirectoryMarker, hisLatest,
      hmarker, hfile, haccept]
  have hfound : (later.findSome? restorable?).isSome = true :=
    List.findSome?_isSome_iff.mpr ⟨version, hlater, by simp [restorable?, hreal, hidentifier]⟩
  obtain ⟨found, hfound⟩ := Option.isSome_iff_exists.mp hfound
  have hgroupTarget : groupTarget accept (latest :: later) = some found := by
    change (if latest.isUndeletable && accept latest then later.findSome? restorable? else none) = _
    rw [if_pos hundeletable, hfound]
  obtain ⟨entry, hentry, hkey⟩ := exists_of_groupTarget hgroupTarget
  refine ⟨_, hgroup, found, hgroupTarget, ?_⟩
  rw [hkey, hgroups.same_key _ hgroup entry hentry latest (.head _), hlatestKey]

theorem pageTargets_eq (hgroups : KeyGroups groups)
    (hpage : groups.flatten = VersionEntry.sort entries) :
    pageTargets accept (VersionListing.page entries truncated next) =
      groups.filterMap (groupTarget accept) := by
  rw [pageTargets, VersionListing.page, ← hpage, drain,
    foldl_groups hgroups.toGrouping (by simp [new])]
  rfl

/-- The targets of a page are the targets of its objects. -/
theorem mem_pageTargets_iff (hgroups : KeyGroups groups)
    (hpage : groups.flatten = VersionEntry.sort entries) (hdated : WellDated entries) :
    target ∈ pageTargets accept (VersionListing.page entries truncated next) ↔
      Restores accept entries target := by
  rw [pageTargets_eq hgroups hpage, List.mem_filterMap]
  constructor
  · rintro ⟨group, hgroup, htarget⟩
    exact restores_of_groupTarget hgroups hpage hdated hgroup htarget
  · intro h
    obtain ⟨group, hgroup, found, hfound, hkey⟩ := exists_groupTarget hgroups hpage hdated h
    have hrestores := restores_of_groupTarget hgroups hpage hdated hgroup hfound
    exact ⟨group, hgroup, hrestores.unique hdated h hkey ▸ hfound⟩

/-- The targets of a page ascend by their keys. -/
theorem pageTargets_pairwise (hgroups : KeyGroups groups)
    (hpage : groups.flatten = VersionEntry.sort entries) :
    (pageTargets accept (VersionListing.page entries truncated next)).Pairwise
      fun a b => a.key < b.key := by
  rw [pageTargets_eq hgroups hpage, List.pairwise_filterMap]
  apply hgroups.ascending.imp
  intro group other hbefore target htarget second hsecond
  obtain ⟨a, ha, hkey⟩ := exists_of_groupTarget htarget
  obtain ⟨b, hb, hsecondKey⟩ := exists_of_groupTarget hsecond
  rw [hkey, hsecondKey]
  exact hbefore a ha b hb

/-- Targets that ascend by their keys are determined by which they are. -/
theorem eq_of_ascending {targets others : List RestoreTarget}
    (htargets : targets.Pairwise fun a b => a.key < b.key)
    (hothers : others.Pairwise fun a b => a.key < b.key)
    (hmem : ∀ target, target ∈ targets ↔ target ∈ others) : targets = others := by
  have hne : ∀ {a b : RestoreTarget}, a.key < b.key → a ≠ b := by
    rintro a _ hlt rfl
    exact lt_irrefl _ hlt
  have hperm : targets.Perm others :=
    (List.perm_ext_iff_of_nodup (htargets.imp hne) (hothers.imp hne)).mpr hmem
  exact hperm.eq_of_pairwise (fun a b _ _ hab hba => absurd hba hab.asymm) htargets hothers

theorem exists_pageGroups (entries : List VersionEntry) :
    ∃ groups, KeyGroups groups ∧ groups.flatten = VersionEntry.sort entries :=
  exists_keyGroups ((VersionEntry.sort_pairwise entries).imp VersionEntry.key_le_of_rank_le)

/-- In whatever order the entries of a page are listed, the page holds them key by key with the
latest entry of each key first, and its targets are those of its objects, one at most for each key.
So the order of the listing makes no difference to them. -/
theorem pageTargets_of_any_order (accept : VersionEntry → Bool) (entries : List VersionEntry)
    (truncated : Bool) (next : Option VersionMarker) (hdated : WellDated entries) :
    let page := VersionListing.page entries truncated next
    page.content.Perm entries ∧
    (∃ groups, KeyGroups groups ∧ groups.flatten = page.content ∧
      ∀ first later, first :: later ∈ groups → NewestFirst first later) ∧
    (pageTargets accept page).Pairwise (fun a b => a.key < b.key) ∧
    (∀ target, target ∈ pageTargets accept page ↔ Restores accept entries target) ∧
    ∀ other : List VersionEntry, other.Perm entries →
      pageTargets accept (VersionListing.page other truncated next) = pageTargets accept page := by
  intro page
  obtain ⟨groups, hgroups, hpage⟩ := exists_pageGroups entries
  refine ⟨VersionEntry.sort_perm entries, ⟨groups, hgroups, hpage, ?_⟩,
    pageTargets_pairwise hgroups hpage, fun _ => mem_pageTargets_iff hgroups hpage hdated, ?_⟩
  · exact fun first later hgroup => hgroups.newestFirst hpage hdated hgroup
  · intro other hperm
    -- Both pages have the targets of one set of entries, and each lists them by key.
    obtain ⟨otherGroups, hotherGroups, hotherPage⟩ := exists_pageGroups other
    apply eq_of_ascending (pageTargets_pairwise hotherGroups hotherPage)
      (pageTargets_pairwise hgroups hpage)
    intro target
    rw [mem_pageTargets_iff hotherGroups hotherPage (hdated.of_perm hperm),
      mem_pageTargets_iff hgroups hpage hdated]
    simp only [Restores, hperm.mem_iff]

/-- A page that lists all versions before all delete markers. The marker over `a` was made in the
same second as the version it hides, one version of `a` has no identifier and one has no time, `b`
is not deleted and `c/` stands in for a directory. -/
def versionsFirst : List VersionEntry :=
  [⟨"c/", some "c0", 1, some ⟨1⟩, false, false⟩, ⟨"a", some "a0", 1, none, false, false⟩,
    ⟨"a", none, 1, some ⟨9⟩, false, false⟩, ⟨"b", some "b1", 1, some ⟨3⟩, true, false⟩,
    ⟨"a", some "a1", 1, some ⟨5⟩, false, false⟩, ⟨"b", some "b0", 1, some ⟨2⟩, false, false⟩,
    ⟨"a", some "m1", 0, some ⟨5⟩, false, true⟩, ⟨"c/", some "m3", 0, some ⟨1⟩, true, true⟩,
    ⟨"a", some "m2", 0, some ⟨5⟩, true, true⟩]

theorem versionsFirst_wellDated : WellDated versionsFirst where
  nodup := by decide +kernel
  one_latest := by decide +kernel
  distinct_stamps := by decide +kernel

/-- Of this page, and of the one listed backwards, the only target is the version of `a` that is the
newest with an identifier. -/
theorem pageTargets_of_any_order_versions_first :
    WellDated versionsFirst ∧
    pageTargets (fun _ => true) (VersionListing.page versionsFirst false none) = [⟨"a", "a1"⟩] ∧
    pageTargets (fun _ => true) (VersionListing.page versionsFirst.reverse false none) =
      [⟨"a", "a1"⟩] := by
  have htargets : pageTargets (fun _ => true) (VersionListing.page versionsFirst false none) =
      [⟨"a", "a1"⟩] := by cbv
  refine ⟨versionsFirst_wellDated, htargets, ?_⟩
  rw [← htargets]
  exact (pageTargets_of_any_order (fun _ => true) versionsFirst false none
    versionsFirst_wellDated).2.2.2.2 _ versionsFirst.reverse_perm

end RestorePlanner

end BucketCare

import BucketCare.Version.Restore
import Mathlib.Data.List.SplitBy

/-!
# The targets of a version listing

The planner reads a listing entry by entry and remembers only the key it is at, and its targets may
be taken at any time. In a listing that is grouped by key it finds one target at most for each
group, which depends on the entries of that group alone. So it makes no difference between which
entries the targets are taken, and where the pages of the listing end.

## Main definitions

* `RestorePlanner.Call`, `RestorePlanner.drains` — a planner that is read into and drained in any
  order
* `Grouping` — the groups of a listing, one for each key

## Main results

* `RestorePlanner.flatten_drains` — the drains together take what the entries alone lead to
* `RestorePlanner.foldl_group` — what the entries of one key add
* `RestorePlanner.drains_eq_reference` — the drains together are the targets of the groups
-/

namespace BucketCare

/-- The groups of a listing: each holds entries of one key, and no two hold the same key. -/
structure Grouping (groups : List (List VersionEntry)) : Prop where
  ne_nil : ∀ group ∈ groups, group ≠ []
  same_key : ∀ group ∈ groups, ∀ a ∈ group, ∀ b ∈ group, a.key = b.key
  distinct_keys : groups.Pairwise fun group other => ∀ a ∈ group, ∀ b ∈ other, a.key ≠ b.key

theorem Grouping.tail {group : List VersionEntry} {rest : List (List VersionEntry)}
    (h : Grouping (group :: rest)) : Grouping rest :=
  ⟨fun other hmem => h.ne_nil other (.tail _ hmem),
    fun other hmem => h.same_key other (.tail _ hmem), h.distinct_keys.of_cons⟩

/-- Splitting a listing where the key changes gives back its groups. -/
theorem Grouping.splitBy_flatten {groups : List (List VersionEntry)} (h : Grouping groups) :
    (groups.flatten.splitBy fun a b => a.key == b.key) = groups := by
  have hne : ∀ group ∈ groups, group ≠ [] := h.ne_nil
  apply List.splitBy_flatten
  · exact fun hmem => h.ne_nil [] hmem rfl
  · intro group hmem
    apply List.Pairwise.isChain
    apply List.pairwise_of_forall_mem_list
    intro a ha b hb
    simpa using h.same_key group hmem a ha b hb
  · apply List.Pairwise.isChain
    apply h.distinct_keys.imp_of_mem
    intro group other hgroup hother hdistinct
    refine ⟨hne group hgroup, hne other hother, ?_⟩
    simpa using hdistinct _ (List.getLast_mem _) _ (List.head_mem _)

namespace RestorePlanner

/-- What is done with a planner. -/
inductive Call where
  /-- An entry is read. -/
  | observe (entry : VersionEntry)
  /-- The targets found so far are taken. -/
  | drain

/-- The entry that is read by a call. -/
def Call.entry? : Call → Option VersionEntry
  | .observe entry => some entry
  | .drain => none

/-- The entries that are read, in order. -/
def observed (calls : List Call) : List VersionEntry := calls.filterMap Call.entry?

/-- What each drain takes when some calls are made one after the other, and what one more drain
takes after the last of them. -/
def drains (accept : VersionEntry → Bool) : List Call → RestorePlanner → List (List RestoreTarget)
  | [], planner => [planner.drain.1]
  | .observe entry :: rest, planner => drains accept rest (planner.observe accept entry)
  | .drain :: rest, planner => planner.drain.1 :: drains accept rest planner.drain.2

/-- The target that an entry makes when it is not a delete marker and has a version. -/
def restorable? (entry : VersionEntry) : Option RestoreTarget :=
  if entry.isMarker then none else entry.version.map fun version => ⟨entry.key, version⟩

/-- The planner with some targets found before its own. -/
def behind (taken : List RestoreTarget) (planner : RestorePlanner) : RestorePlanner :=
  { planner with targets := taken ++ planner.targets }

variable {accept : VersionEntry → Bool} {planner : RestorePlanner} {entry : VersionEntry}

theorem restorable?_eq_some_iff {target : RestoreTarget} : restorable? entry = some target ↔
    entry.isMarker = false ∧
      ∃ version, entry.version = some version ∧ target = ⟨entry.key, version⟩ := by
  unfold restorable?
  cases entry.isMarker with
  | true => simp
  | false => simp [Option.map_eq_some_iff, @eq_comm _ target]

theorem restorable?_eq_none_iff : restorable? entry = none ↔
    entry.isMarker = true ∨ entry.version = none := by
  unfold restorable?
  cases entry.isMarker <;> simp

/-! ## Drains -/

/-- What an entry adds does not depend on the targets found before. -/
theorem observe_behind (taken : List RestoreTarget) (planner : RestorePlanner)
    (entry : VersionEntry) :
    (planner.behind taken).observe accept entry = (planner.observe accept entry).behind taken := by
  unfold observe behind
  split
  · rfl
  split
  · cases entry.version <;> simp
  · rfl

/-- The drains together take what the entries alone lead to. -/
theorem flatten_drains (accept : VersionEntry → Bool) (calls : List Call)
    (planner : RestorePlanner) :
    (drains accept calls planner).flatten =
      ((observed calls).foldl (observe accept) planner).targets := by
  induction calls generalizing planner with
  | nil => simp [drains, drain, observed]
  | cons call rest ih =>
    cases call with
    | observe entry => simpa [drains, observed, Call.entry?] using ih _
    | drain =>
      -- The planner is what the drain left behind the targets that it took.
      have hbehind : planner.drain.2.behind planner.targets = planner := by
        simp [behind, drain]
      calc (drains accept (.drain :: rest) planner).flatten
          = planner.targets ++
              ((observed rest).foldl (observe accept) planner.drain.2).targets := by
            rw [drains, List.flatten_cons, ih, drain]
        _ = ((observed rest).foldl (observe accept)
              (planner.drain.2.behind planner.targets)).targets := by
            rw [List.foldl_hom (behind planner.targets) (observe_behind planner.targets)]
            rfl
        _ = ((observed (.drain :: rest)).foldl (observe accept) planner).targets := by
            rw [hbehind]
            rfl

/-! ## Groups -/

theorem observe_of_ne (h : planner.currentKey ≠ some entry.key) :
    planner.observe accept entry =
      ⟨some entry.key, entry.isUndeletable && accept entry, false, planner.targets⟩ := by
  rw [observe, if_pos h]

/-- A later entry of the key that the planner is at. -/
theorem observe_of_eq (h : planner.currentKey = some entry.key) :
    planner.observe accept entry =
      if planner.hidden && !planner.resolved then
        match restorable? entry with
        | some target => { planner with targets := planner.targets ++ [target], resolved := true }
        | none => planner
      else planner := by
  have hsame : ¬ planner.currentKey ≠ some entry.key := not_not_intro h
  rw [observe, if_neg hsame, restorable?]
  cases entry.isMarker <;> cases entry.version <;> simp

variable (accept) in
/-- What the later entries of a key add: the first of them that can be restored, if the key is
hidden and no target was found for it. -/
theorem foldl_later {key : String} (hidden resolved : Bool) (targets : List RestoreTarget)
    {later : List VersionEntry} (h : ∀ entry ∈ later, entry.key = key) :
    ∃ resolved', later.foldl (observe accept) ⟨some key, hidden, resolved, targets⟩ =
      ⟨some key, hidden, resolved', targets ++
        (if hidden && !resolved then later.findSome? restorable? else none).toList⟩ := by
  induction later generalizing resolved targets with
  | nil => exact ⟨resolved, by simp⟩
  | cons entry rest ih =>
    have hkey : some key = some entry.key := congrArg some (h entry (.head _)).symm
    have hrest : ∀ entry ∈ rest, entry.key = key := fun other hmem => h other (.tail _ hmem)
    rw [List.foldl_cons, observe_of_eq hkey, List.findSome?_cons]
    split
    next hopen =>
      cases restorable? entry with
      | none =>
        obtain ⟨resolved', hfold⟩ := ih resolved targets hrest
        exact ⟨resolved', by rw [hfold, if_pos hopen]⟩
      | some target =>
        -- With the target found the rest of the key adds nothing.
        obtain ⟨resolved', hfold⟩ := ih true (targets ++ [target]) hrest
        exact ⟨resolved', by simp [hfold]⟩
    next hshut =>
      obtain ⟨resolved', hfold⟩ := ih resolved targets hrest
      exact ⟨resolved', by rw [hfold, if_neg hshut]⟩

variable (accept) in
/-- What the entries of one key add, when the planner comes from another key. -/
theorem foldl_group {group : List VersionEntry} (hne : group ≠ [])
    (hsame : ∀ a ∈ group, ∀ b ∈ group, a.key = b.key)
    (hother : ∀ entry ∈ group, planner.currentKey ≠ some entry.key) :
    ∃ first ∈ group, ∃ hidden resolved, group.foldl (observe accept) planner =
      ⟨some first.key, hidden, resolved, planner.targets ++ (groupTarget accept group).toList⟩ := by
  obtain ⟨first, later, rfl⟩ := List.exists_cons_of_ne_nil hne
  obtain ⟨resolved, hlater⟩ := foldl_later accept (first.isUndeletable && accept first) false
    planner.targets fun entry hmem => hsame entry (.tail _ hmem) first (.head _)
  refine ⟨first, .head _, first.isUndeletable && accept first, resolved, ?_⟩
  rw [List.foldl_cons, observe_of_ne (hother first (.head _)), hlater, groupTarget]
  simp only [Bool.not_false, Bool.and_true]
  rfl

/-- The entries of a listing add the targets of its groups, when the planner comes from a key that
is not in it. -/
theorem foldl_groups {groups : List (List VersionEntry)} (h : Grouping groups)
    (hother : ∀ group ∈ groups, ∀ entry ∈ group, planner.currentKey ≠ some entry.key) :
    (groups.flatten.foldl (observe accept) planner).targets =
      planner.targets ++ groups.filterMap (groupTarget accept) := by
  induction groups generalizing planner with
  | nil => simp
  | cons group rest ih =>
    obtain ⟨first, hfirst, hidden, resolved, hgroup⟩ := foldl_group accept
      (h.ne_nil group (.head _)) (h.same_key group (.head _)) (hother group (.head _))
    obtain ⟨hdistinct, -⟩ := List.pairwise_cons.mp h.distinct_keys
    rw [List.flatten_cons, List.foldl_append, hgroup, ih h.tail]
    · cases htarget : groupTarget accept group <;> simp [htarget]
    · intro other hmem entry hentry heq
      exact hdistinct other hmem first hfirst entry hentry (Option.some.inj heq)

/-- The target of a group in words: its first entry is the latest, a delete marker over a file and
accepted, and the target is the first later entry that is a version and has an identifier. -/
theorem groupTarget_eq_some_iff {first : VersionEntry} {later : List VersionEntry}
    {target : RestoreTarget} : groupTarget accept (first :: later) = some target ↔
      (first.isMarker = true ∧ first.isLatest = true ∧ first.key.toList.getLast? ≠ some '/' ∧
        accept first = true) ∧
      ∃ before entry after version, later = before ++ entry :: after ∧
        (∀ other ∈ before, other.isMarker = true ∨ other.version = none) ∧
        entry.isMarker = false ∧ entry.version = some version ∧ target = ⟨entry.key, version⟩ := by
  have hfirst : (first.isUndeletable && accept first) = true ↔ first.isMarker = true ∧
      first.isLatest = true ∧ first.key.toList.getLast? ≠ some '/' ∧ accept first = true := by
    simp [VersionEntry.isUndeletable, VersionEntry.isDirectory, isDirectoryMarker, and_assoc]
  change (if first.isUndeletable && accept first then later.findSome? restorable? else none) =
    some target ↔ _
  rw [Option.ite_none_right_eq_some, hfirst, List.findSome?_eq_some_iff]
  apply and_congr_right'
  constructor
  · rintro ⟨before, entry, after, hlater, hentry, hbefore⟩
    obtain ⟨hmarker, version, hversion, htarget⟩ := restorable?_eq_some_iff.mp hentry
    exact ⟨before, entry, after, version, hlater,
      fun other hmem => restorable?_eq_none_iff.mp (hbefore other hmem), hmarker, hversion, htarget⟩
  · rintro ⟨before, entry, after, version, hlater, hbefore, hmarker, hversion, htarget⟩
    exact ⟨before, entry, after, hlater,
      restorable?_eq_some_iff.mpr ⟨hmarker, version, hversion, htarget⟩,
      fun other hmem => restorable?_eq_none_iff.mpr (hbefore other hmem)⟩

/-- The target of a group has the key of an entry of the group. -/
theorem exists_of_groupTarget {group : List VersionEntry} {target : RestoreTarget}
    (h : groupTarget accept group = some target) : ∃ entry ∈ group, target.key = entry.key := by
  cases group with
  | nil => cases h
  | cons first later =>
    obtain ⟨-, before, entry, after, version, rfl, -, -, -, rfl⟩ := groupTarget_eq_some_iff.mp h
    exact ⟨entry, by simp, rfl⟩

theorem nodup_groupTargets {groups : List (List VersionEntry)} (h : Grouping groups) :
    ((groups.filterMap (groupTarget accept)).map RestoreTarget.key).Nodup := by
  rw [List.Nodup, List.pairwise_map, List.pairwise_filterMap]
  apply h.distinct_keys.imp
  intro group other hdistinct target htarget second hsecond heq
  obtain ⟨a, ha, hkey⟩ := exists_of_groupTarget htarget
  obtain ⟨b, hb, hsecondKey⟩ := exists_of_groupTarget hsecond
  exact hdistinct a ha b hb (by rw [← hkey, heq, hsecondKey])

/-- Whichever way a listing that is grouped by key is read, with the targets taken at any time, the
drains together are the targets of its groups in order, one at most for each key. -/
theorem drains_eq_reference (accept : VersionEntry → Bool) (calls : List Call)
    (groups : List (List VersionEntry)) (hgroups : Grouping groups)
    (hcalls : observed calls = groups.flatten) :
    (drains accept calls .new).flatten = reference accept (observed calls) ∧
      reference accept (observed calls) = groups.filterMap (groupTarget accept) ∧
      ((drains accept calls .new).flatten.map RestoreTarget.key).Nodup := by
  have hreference : reference accept (observed calls) = groups.filterMap (groupTarget accept) := by
    rw [reference, hcalls, hgroups.splitBy_flatten]
  have hdrains : (drains accept calls .new).flatten = groups.filterMap (groupTarget accept) := by
    rw [flatten_drains, hcalls, foldl_groups hgroups (by simp [new])]
    rfl
  exact ⟨hdrains.trans hreference.symm, hreference, hdrains ▸ nodup_groupTargets hgroups⟩

/-- Two markers lie over a version whose identifier is missing and one that can be restored, and the
targets are taken in between; of the other keys one is not deleted and one is a directory. -/
theorem drains_eq_reference_across_pages :
    let entry (key : String) (version : Option String) (latest marker : Bool) : VersionEntry :=
      ⟨key, version, 0, none, latest, marker⟩
    let a := [entry "a" (some "a3") true true, entry "a" (some "a2") false true,
      entry "a" none false false, entry "a" (some "a1") false false,
      entry "a" (some "a0") false false]
    let b := [entry "b" (some "b1") true false, entry "b" (some "b0") false false]
    let c := [entry "c/" (some "c1") true true, entry "c/" (some "c0") false false]
    let calls := [.drain] ++ (a.take 3).map .observe ++ [.drain] ++ (a.drop 3).map .observe ++
      [.drain, .drain] ++ (b ++ c).map .observe
    Grouping [a, b, c] ∧ observed calls = [a, b, c].flatten ∧
      drains (fun _ => true) calls .new = [[], [], [⟨"a", "a1"⟩], [], []] ∧
      reference (fun _ => true) (observed calls) = [⟨"a", "a1"⟩] := by
  intro entry a b c calls
  have hgroups : Grouping [a, b, c] := ⟨by decide, by decide, by decide⟩
  have hdrains : drains (fun _ => true) calls .new = [[], [], [⟨"a", "a1"⟩], [], []] := by decide
  have hreference := (drains_eq_reference (fun _ => true) calls [a, b, c] hgroups rfl).1
  exact ⟨hgroups, rfl, hdrains, by rw [← hreference, hdrains]; rfl⟩

end RestorePlanner

end BucketCare

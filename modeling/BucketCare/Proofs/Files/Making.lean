import BucketCare.Proofs.Files.Writing

/-!
# Making directories

Directories that are made are added to a tree, and nothing else changes, whether all of them can be
made or not: every file keeps its content and its mode, every link its target, and no file is new.
A path that led to something leads to the same place afterwards.

## Main definitions

* `Node.Grows`, `FileTree.Grows` — nothing but directories is added
* `FileTree.fileAt?` — the content and the mode of the file at a place
* `FileTree.left` — the tree that is left by a success as by a failure

## Main results

* `FileTree.makeDir_grows` — one directory is added
* `FileTree.makeDirs_grows` — directories are added, also when one of them cannot be made
* `FileTree.Grows.fileAt?_eq`, `FileTree.Grows.exists_locate` — what stays as it was
-/

namespace BucketCare

/-! ## Growing -/

namespace Node

/-- What stands at a place before and after, when nothing but directories is added to a tree. -/
inductive Grows : Option Node → Option Node → Prop
  | kept {before after : Option Node} (hkept : Kept before after) : Grows before after
  | made {entries : List (String × Node)} : Grows none (some (.dir entries))

/-- The content and the mode of a file. -/
def file? : Node → Option (ByteArray × Nat)
  | file content mode => some (content, mode)
  | link _ | dir _ => none

variable {before middle after : Option Node}

theorem Kept.trans (h : Kept before middle) (h' : Kept middle after) : Kept before after := by
  cases h with
  | same => exact h'
  | dir =>
    cases h' with
    | same | dir => exact .dir

theorem Grows.trans (h : Grows before middle) (h' : Grows middle after) : Grows before after := by
  cases h' with
  | kept hkept' =>
    cases h with
    | kept hkept => exact .kept (hkept.trans hkept')
    | made =>
      cases hkept' with
      | same | dir => exact .made
  | made =>
    cases h with
    | kept hkept =>
      cases hkept with
      | same => exact .made

theorem Kept.file?_eq (h : Kept before after) : after.bind file? = before.bind file? := by
  cases h <;> rfl

theorem Grows.file?_eq (h : Grows before after) : after.bind file? = before.bind file? := by
  cases h with
  | kept hkept => exact hkept.file?_eq
  | made => rfl

/-- A directory is still one when directories are added. -/
theorem Grows.dir {entries : List (String × Node)} (h : Grows (some (.dir entries)) after) :
    ∃ entries', after = some (.dir entries') := by
  cases h with
  | kept hkept =>
    cases hkept with
    | same => exact ⟨entries, rfl⟩
    | @dir _ entries' => exact ⟨entries', rfl⟩

/-- What is no directory stays the same when directories are added. -/
theorem Grows.eq {node : Node} (h : Grows (some node) after) (hnode : node.kind ≠ .dir) :
    after = some node := by
  cases h with
  | kept hkept =>
    cases hkept with
    | same => rfl
    | dir => exact absurd rfl hnode

end Node

/-- A path leads where it did when directories are added. -/
theorem Route.Leads.grow {root grown node : Node} {links : Nat} {at_ names target : List String}
    (h : Leads root links at_ names (.found target node))
    (hgrows : ∀ place, Node.Grows (root.get? place) (grown.get? place)) :
    ∃ node', Leads grown links at_ names (.found target node') := by
  -- The way goes through directories and links alone, and these are still there.
  have hdirs {place : List String} {entries : List (String × Node)}
      (hdir : root.get? place = some (.dir entries)) :
      ∃ entries', grown.get? place = some (.dir entries') :=
    (hdir ▸ hgrows place).dir
  generalize hfound : Place.found target node = place at h
  induction h with
  | @arrive _ at_ node' hnode =>
    obtain ⟨rfl, rfl⟩ := Place.found.inj hfound
    have hat := hgrows target
    rw [hnode] at hat
    by_cases hkind : node.kind = .dir
    · obtain ⟨entries, rfl⟩ := Node.eq_dir_of_kind hkind
      obtain ⟨entries', hdir⟩ := hdirs hnode
      exact ⟨_, .arrive hdir⟩
    · exact ⟨_, .arrive (hat.eq hkind)⟩
  | stay hdir _ ih =>
    obtain ⟨entries', hdir'⟩ := hdirs hdir
    obtain ⟨node', hrest⟩ := ih hfound
    exact ⟨node', .stay hdir' hrest⟩
  | up hdir _ ih =>
    obtain ⟨entries', hdir'⟩ := hdirs hdir
    obtain ⟨node', hrest⟩ := ih hfound
    exact ⟨node', .up hdir' hrest⟩
  | @enter _ at_ _ name _ child _ hdir hname hnode hlink _ ih =>
    obtain ⟨entries', hdir'⟩ := hdirs hdir
    obtain ⟨node', hrest⟩ := ih hfound
    -- What is entered is a file or a directory, and stays one.
    have hchild := hgrows (at_ ++ [name])
    rw [hnode] at hchild
    by_cases hkind : child.kind = .dir
    · obtain ⟨_, rfl⟩ := Node.eq_dir_of_kind hkind
      obtain ⟨_, hnode'⟩ := hdirs hnode
      exact ⟨node', .enter hdir' hname hnode' nofun hrest⟩
    · exact ⟨node', .enter hdir' hname (hchild.eq hkind) hlink hrest⟩
  | @follow _ at_ _ name _ _ _ hdir hname hlink htarget _ ih =>
    obtain ⟨entries', hdir'⟩ := hdirs hdir
    obtain ⟨node', hrest⟩ := ih hfound
    have hsame := (hlink ▸ hgrows (at_ ++ [name])).eq (by simp [Node.kind])
    exact ⟨node', .follow hdir' hname hsame htarget hrest⟩
  | free => cases hfound

/-! ## Directories of a tree -/

namespace FileTree

variable {tree made after : FileTree} {path : String} {place : List String}

/-- The content and the mode of the file at a place. -/
def fileAt? (tree : FileTree) (place : List String) : Option (ByteArray × Nat) :=
  (tree.root.get? place).bind Node.file?

/-- Nothing but directories is added from one tree to another. -/
structure Grows (before after : FileTree) : Prop where
  cwd : after.cwd = before.cwd
  nodes (place : List String) : Node.Grows (before.root.get? place) (after.root.get? place)

/-- The tree that is left, by a success as by a failure. -/
def left {failure : Type} : Except (failure × FileTree) FileTree → FileTree
  | .ok tree => tree
  | .error (_, tree) => tree

theorem Grows.refl (tree : FileTree) : tree.Grows tree := ⟨rfl, fun _ => .kept .same⟩

theorem Grows.trans (h : tree.Grows made) (h' : made.Grows after) : tree.Grows after :=
  ⟨h'.cwd.trans h.cwd, fun place => (h.nodes place).trans (h'.nodes place)⟩

/-- Every file stays as it was, and none is new. -/
theorem Grows.fileAt?_eq (h : tree.Grows made) (place : List String) :
    made.fileAt? place = tree.fileAt? place :=
  (h.nodes place).file?_eq

/-- A path that led to something leads to the same place. -/
theorem Grows.exists_locate {node : Node} (h : tree.Grows made)
    (hlocate : tree.locate path = .ok (.found place node)) :
    ∃ node', made.locate path = .ok (.found place node') := by
  obtain ⟨hfault, hleads⟩ := locate_eq_ok_iff.mp hlocate
  obtain ⟨node', hgrown⟩ := hleads.grow h.nodes
  exact ⟨node', locate_eq_ok_iff.mpr ⟨hfault, h.cwd ▸ hgrown⟩⟩

/-- A new entry has a free name in a directory. -/
theorem exists_dir_of_vacancy {root : Node} {cwd : List String}
    (h : Route.vacancy root cwd path = .ok place) : ∃ above entries name,
      place = above ++ [name] ∧ root.get? above = some (.dir entries) ∧
      entries.lookup name = none := by
  unfold Route.vacancy at h
  split at h
  · cases h
  dsimp only at h
  split at h
  · cases h
  next name _ =>
    split at h
    next above entries hwalk =>
      have hdir := (Route.leads_of_walk hwalk).get?_eq
      split at h
      · cases h
      split at h
      · cases h
      split at h
      · cases h
      next hfree =>
        cases h
        exact ⟨above, entries, name, rfl, hdir, Option.not_isSome_iff_eq_none.mp hfree⟩
    all_goals cases h

/-- A directory that is made is added, and nothing else changes. -/
theorem makeDir_grows (h : tree.makeDir path = .ok made) : tree.Grows made := by
  unfold makeDir at h
  split at h
  next place hplace =>
    cases h
    obtain ⟨above, entries, name, rfl, hdir, hfree⟩ := exists_dir_of_vacancy hplace
    have htakes := Node.takes_of_free hdir hfree
    refine ⟨rfl, fun other => ?_⟩
    by_cases hother : other = above ++ [name]
    -- Nothing had the name, so no file can have been lost under it.
    · rw [hother, htakes.get?_put, Node.get?_concat hdir, hfree]
      exact .made
    · exact .kept (htakes.kept_put (fun _ _ => rfl) hother)
  next => cases h

theorem ensureDir_grows (h : tree.ensureDir path = .ok made) : tree.Grows made := by
  unfold ensureDir at h
  split at h
  next hmade =>
    cases h
    exact makeDir_grows hmade
  next =>
    split at h
    · cases h
      exact .refl tree
    · cases h

theorem makeDirsWithin_grows (fuel : Nat) (tree : FileTree) (path : String) :
    tree.Grows (left (makeDirsWithin fuel tree path)) := by
  -- By induction on the names of the path: the tree is the same for the path of the parent.
  induction fuel generalizing path with
  | zero => exact .refl tree
  | succ fuel ih =>
    rw [makeDirsWithin]
    split
    · exact .refl tree
    split
    next hmade => exact makeDir_grows hmade
    next =>
      split
      · split
        next parent _ =>
          have habove := ih parent
          split
          next above hsome =>
            -- The directories above stay, whatever becomes of the last one.
            rw [hsome] at habove
            split
            next hensured => exact habove.trans (ensureDir_grows hensured)
            next => exact habove
          next hnone =>
            rw [hnone] at habove
            exact habove
        next => exact .refl tree
      · split <;> exact .refl tree

/-- Making a directory and those above it adds directories, also when one of them cannot be made,
and changes nothing else. -/
theorem makeDirs_grows (tree : FileTree) (path : String) :
    tree.Grows (left (tree.makeDirs path)) :=
  makeDirsWithin_grows _ tree path

end FileTree

end BucketCare

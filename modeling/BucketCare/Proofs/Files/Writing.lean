import BucketCare.Files.Tree

/-!
# What is written is read

A file that is put into a tree is found by the path that it was written to, whatever links and dots
the path leads over. Nothing else changes its kind: directories stay directories and links keep
their targets, and so a path takes the same way as before, up to the file.

## Main definitions

* `Node.Takes` — a file may be put at a place
* `Node.Kind` — what a node is, without its content
* `Node.Kept` — what stands at a place, before and after a change elsewhere
* `Route.Leads` — how a path leads through a tree
* `FileTree.IsOpen` — a path leads to a file that can be written

## Main results

* `Node.Takes.get?_put`, `Node.Takes.kept_put` — what putting a file changes, and what it keeps
* `FileTree.locate_eq_ok_iff` — a path is located where it leads
* `FileTree.exists_isOpen_of_write` — what was written is there, and other files hold what they held
* `FileTree.readText_of_locate` — a text that was written is read again
-/

namespace BucketCare

/-! ## Putting a file -/

namespace Node

/-- A file may be put at a place below a node: a file stands there, or its name is free in a
directory. -/
inductive Takes : Node → List String → Prop
  | file {content : ByteArray} {mode : Nat} : Takes (.file content mode) []
  | free {entries : List (String × Node)} {name : String} (hfree : entries.lookup name = none) :
      Takes (.dir entries) [name]
  | inside {entries : List (String × Node)} {name : String} {child : Node} {rest : List String}
      (hchild : entries.lookup name = some child) (hrest : Takes child rest) :
      Takes (.dir entries) (name :: rest)

/-- What a node is, without its content. -/
inductive Kind where
  | file
  | link (target : String)
  | dir
  deriving DecidableEq

/-- What a node is. -/
def kind : Node → Kind
  | file .. => .file
  | link target => .link target
  | dir _ => .dir

/-- What stands at a place before and after a change elsewhere: the same, or a directory both times,
of which other entries may have changed. -/
inductive Kept : Option Node → Option Node → Prop
  | same {node : Option Node} : Kept node node
  | dir {entries entries' : List (String × Node)} :
      Kept (some (.dir entries)) (some (.dir entries'))

theorem Kept.kind_eq {before after : Option Node} (h : Kept before after) :
    before.map kind = after.map kind := by
  cases h <;> rfl

section Put

variable {node : Node} {entries : List (String × Node)} {name : String} {place : List String}

theorem get?_concat {above : List String} (h : node.get? above = some (.dir entries))
    (name : String) : node.get? (above ++ [name]) = entries.lookup name := by
  induction above generalizing node with
  | nil =>
    cases h
    simp only [List.nil_append, get?]
    cases entries.lookup name <;> rfl
  | cons first above ih =>
    cases node with
    | dir others =>
      simp only [get?, List.cons_append] at h ⊢
      cases hchild : others.lookup first with
      | none => simp [hchild] at h
      | some child =>
        rw [hchild, Option.bind_some] at h
        exact ih h
    | file | link => cases h

theorem takes_of_file {content : ByteArray} {mode : Nat}
    (h : node.get? place = some (.file content mode)) : node.Takes place := by
  induction place generalizing node with
  | nil =>
    cases h
    exact .file
  | cons name place ih =>
    cases node with
    | dir entries =>
      simp only [get?] at h
      cases hchild : entries.lookup name with
      | none => simp [hchild] at h
      | some child =>
        rw [hchild, Option.bind_some] at h
        exact .inside hchild (ih h)
    | file | link => cases h

theorem takes_of_free {above : List String} (h : node.get? above = some (.dir entries))
    (hfree : entries.lookup name = none) : node.Takes (above ++ [name]) := by
  induction above generalizing node with
  | nil =>
    cases h
    exact .free hfree
  | cons first above ih =>
    cases node with
    | dir others =>
      simp only [get?] at h
      cases hchild : others.lookup first with
      | none => simp [hchild] at h
      | some child =>
        rw [hchild, Option.bind_some] at h
        exact .inside hchild (ih h)
    | file | link => cases h

theorem lookup_putEntry (name other : String) (node : Node) (entries : List (String × Node)) :
    (putEntry name node entries).lookup other =
      if other = name then some node else entries.lookup other := by
  have hcons (key : String) (value : Node) (rest : List (String × Node)) :
      List.lookup other ((key, value) :: rest) =
        if other = key then some value else rest.lookup other := by
    by_cases h : other = key
    · simp [h]
    · have hne : (other == key) = false := by simpa using h
      simp [List.lookup_cons, h, hne]
  induction entries with
  | nil => exact hcons name node []
  | cons entry entries ih =>
    obtain ⟨key, old⟩ := entry
    rw [putEntry, hcons]
    by_cases hkey : key = name
    · subst hkey
      rw [if_pos rfl, hcons]
      by_cases h : other = key <;> simp [h]
    · rw [if_neg hkey, hcons, ih]
      by_cases h : other = key
      · subst h
        simp [hkey]
      · simp [h]

/-- A place that takes a file holds a file or nothing. -/
theorem Takes.get?_eq (h : node.Takes place) :
    node.get? place = none ∨ ∃ content mode, node.get? place = some (.file content mode) := by
  induction h with
  | file => exact .inr ⟨_, _, rfl⟩
  | free hfree => exact .inl (by simp [get?, hfree])
  | inside hchild _ ih => simpa [get?, hchild] using ih

/-- What was put at a place stands there. -/
theorem Takes.get?_put (h : node.Takes place) (new : Node) :
    (node.put place new).get? place = some new := by
  induction h with
  | file => rfl
  | free => simp [put, get?, lookup_putEntry]
  | inside hchild _ ih => simp [put, get?, lookup_putEntry, hchild, ih]

/-- Putting something, below which there is nothing, changes no other place: what stands there is
the same as before, or a directory as before. -/
theorem Takes.kept_put (h : node.Takes place) {new : Node}
    (hnew : ∀ name rest, new.get? (name :: rest) = none) {other : List String}
    (hne : other ≠ place) : Kept (node.get? other) ((node.put place new).get? other) := by
  induction h generalizing other with
  | file =>
    cases other with
    | nil => exact absurd rfl hne
    | cons name rest => exact (hnew name rest).symm ▸ .same
  | @free entries name hfree =>
    cases other with
    | nil => exact .dir
    | cons first rest =>
      simp only [put, get?, lookup_putEntry]
      by_cases h : first = name
      · subst h
        -- Nothing stood below a free name, and nothing stands below what was put there.
        cases rest with
        | nil => exact absurd rfl hne
        | cons next rest =>
          simp only [hfree, if_true, Option.bind_none, Option.bind_some]
          exact (hnew next rest).symm ▸ .same
      · rw [if_neg h]
        exact .same
  | @inside entries name child _ hchild _ ih =>
    cases other with
    | nil => exact .dir
    | cons first rest =>
      simp only [put, get?, lookup_putEntry, hchild]
      by_cases h : first = name
      · subst h
        have hrest : rest ≠ _ := fun heq => hne (congrArg (first :: ·) heq)
        simpa [hchild] using ih hrest
      · rw [if_neg h]
        exact .same

/-- A file that is put at a place changes the kind of nothing else. -/
theorem Takes.kind_put (h : node.Takes place) (content : ByteArray) (mode : Nat)
    {other : List String} (hne : other ≠ place) :
    ((node.put place (.file content mode)).get? other).map kind = (node.get? other).map kind :=
  (h.kept_put (fun _ _ => rfl) hne).kind_eq.symm

/-- What stood in the tree before a file was put there is still of its kind. -/
theorem Takes.exists_put (h : node.Takes place) (content : ByteArray) (mode : Nat)
    {other : List String} {old : Node} (hold : node.get? other = some old) :
    ∃ new, (node.put place (.file content mode)).get? other = some new ∧ new.kind = old.kind := by
  by_cases hplace : other = place
  · subst hplace
    refine ⟨_, h.get?_put _, ?_⟩
    rcases h.get?_eq with hnone | ⟨_, _, hfile⟩
    · simp [hnone] at hold
    · rw [hfile] at hold
      cases hold
      rfl
  · have hkind := h.kind_put content mode hplace
    rw [hold] at hkind
    simpa using hkind

theorem eq_dir_of_kind (h : node.kind = .dir) : ∃ entries, node = .dir entries := by
  cases node with
  | dir entries => exact ⟨entries, rfl⟩
  | file | link => cases h

theorem eq_link_of_kind {target : String} (h : node.kind = .link target) :
    node = .link target := by
  cases node with
  | link => cases h; rfl
  | file | dir => cases h

end Put

end Node

/-! ## The way of a path -/

namespace Route

/-- The name of an entry: neither one dot nor two, and not too long. -/
def IsEntryName (name : String) : Prop :=
  name ≠ "." ∧ name ≠ ".." ∧ name.utf8ByteSize ≤ maxName

/-- How a path leads through a tree, name by name from a directory, along so many links at most. -/
inductive Leads (root : Node) : (links : Nat) → (at_ names : List String) → Place → Prop
  | arrive {links : Nat} {at_ : List String} {node : Node} (hnode : root.get? at_ = some node) :
      Leads root links at_ [] (.found at_ node)
  | stay {links : Nat} {at_ rest : List String} {entries : List (String × Node)} {place : Place}
      (hdir : root.get? at_ = some (.dir entries)) (hrest : Leads root links at_ rest place) :
      Leads root links at_ ("." :: rest) place
  | up {links : Nat} {at_ rest : List String} {entries : List (String × Node)} {place : Place}
      (hdir : root.get? at_ = some (.dir entries))
      (hrest : Leads root links at_.dropLast rest place) :
      Leads root links at_ (".." :: rest) place
  | enter {links : Nat} {at_ rest : List String} {name : String} {entries : List (String × Node)}
      {node : Node} {place : Place} (hdir : root.get? at_ = some (.dir entries))
      (hname : IsEntryName name) (hnode : root.get? (at_ ++ [name]) = some node)
      (hlink : ∀ target, node ≠ .link target)
      (hrest : Leads root links (at_ ++ [name]) rest place) :
      Leads root links at_ (name :: rest) place
  | follow {links : Nat} {at_ rest : List String} {name target : String}
      {entries : List (String × Node)} {place : Place} (hdir : root.get? at_ = some (.dir entries))
      (hname : IsEntryName name) (hlink : root.get? (at_ ++ [name]) = some (.link target))
      (htarget : target.isEmpty = false)
      (hrest : Leads root links (if isAbsolute target then [] else at_) (names target ++ rest)
        place) :
      Leads root (links + 1) at_ (name :: rest) place
  | free {links : Nat} {at_ : List String} {name : String} {entries : List (String × Node)}
      (hdir : root.get? at_ = some (.dir entries)) (hname : IsEntryName name)
      (hfree : root.get? (at_ ++ [name]) = none) :
      Leads root links at_ [name] (.free (at_ ++ [name]))

section Walk

variable {root : Node} {at_ names : List String} {place : Place}

/-- A step of a walk from a directory. -/
theorem step_of_dir {follow : List String → List String → Except IoError Place}
    {entries : List (String × Node)} (h : root.get? at_ = some (.dir entries)) (name : String)
    (rest : List String) : step follow root at_ (name :: rest) =
      if name = "." then step follow root at_ rest
      else if name = ".." then step follow root at_.dropLast rest
      else if maxName < name.utf8ByteSize then .error .nameTooLong
      else match root.get? (at_ ++ [name]) with
        | some (.link target) =>
          if target.isEmpty then .error .noEntry
          else follow (if isAbsolute target then [] else at_) (Route.names target ++ rest)
        | some _ => step follow root (at_ ++ [name]) rest
        | none => if rest.isEmpty then .ok (.free (at_ ++ [name])) else .error .noEntry := by
  have hbelow := Node.get?_concat h name
  rw [step, h]
  exact hbelow ▸ rfl

theorem leads_of_step {follow : List String → List String → Except IoError Place} {links : Nat}
    (hfollow : ∀ at_ names place, follow at_ names = .ok place →
      ∃ fewer, links = fewer + 1 ∧ Leads root fewer at_ names place)
    (h : step follow root at_ names = .ok place) : Leads root links at_ names place := by
  induction names generalizing at_ with
  | nil =>
    rw [step] at h
    cases hnode : root.get? at_ with
    | none => simp [hnode] at h
    | some node =>
      rw [hnode] at h
      cases h
      exact .arrive hnode
  | cons name rest ih =>
    cases hnode : root.get? at_ with
    | none => simp [step, hnode] at h
    | some node =>
      cases node with
      | file | link => simp [step, hnode] at h
      | dir entries =>
        rw [step_of_dir hnode] at h
        -- The name is looked at before what stands under it: dots are no entries of a directory.
        by_cases hdot : name = "."
        · subst hdot
          exact .stay hnode (ih (by simpa using h))
        by_cases hup : name = ".."
        · subst hup
          exact .up hnode (ih (by simpa using h))
        by_cases hlong : maxName < name.utf8ByteSize
        · simp [hdot, hup, hlong] at h
        rw [if_neg hdot, if_neg hup, if_neg hlong] at h
        have hname : IsEntryName name := ⟨hdot, hup, Nat.le_of_not_lt hlong⟩
        cases hchild : root.get? (at_ ++ [name]) with
        | none =>
          cases rest with
          | nil =>
            simp only [hchild] at h
            cases h
            exact .free hnode hname hchild
          | cons => simp [hchild] at h
        | some child =>
          cases child with
          | link target =>
            by_cases htarget : target.isEmpty = true
            · simp [hchild, htarget] at h
            · rw [hchild] at h
              simp only [htarget] at h
              obtain ⟨fewer, rfl, hrest⟩ := hfollow _ _ _ h
              exact .follow hnode hname hchild (by simpa using htarget) hrest
          | file | dir =>
            rw [hchild] at h
            exact .enter hnode hname hchild (by simp) (ih h)

/-- A walk goes as the path leads. -/
theorem leads_of_walk {links : Nat} (h : walk root (links + 1) at_ names = .ok place) :
    Leads root links at_ names place := by
  -- Behind each link the walk starts anew, with one link less to follow.
  induction links generalizing at_ names place with
  | zero => exact leads_of_step (fun _ _ _ hnone => by simp [walk] at hnone) h
  | succ links ih => exact leads_of_step (fun _ _ _ hrest => ⟨links, rfl, ih hrest⟩) h

theorem Leads.walk_eq {links : Nat} (h : Leads root links at_ names place) :
    walk root (links + 1) at_ names = .ok place := by
  induction h with
  | arrive hnode => simp [walk, step, hnode]
  | stay hdir _ ih => simpa [walk, step_of_dir hdir] using ih
  | up hdir _ ih => simpa [walk, step_of_dir hdir] using ih
  | @enter _ _ _ _ _ node _ hdir hname hnode hlink _ ih =>
    have hlength := Nat.not_lt.mpr hname.2.2
    cases node with
    | link target => exact absurd rfl (hlink target)
    | file | dir =>
      rw [walk] at ih ⊢
      simpa [step_of_dir hdir, hname.1, hname.2.1, hlength, hnode] using ih
  | follow hdir hname hlink htarget _ ih =>
    have hlength := Nat.not_lt.mpr hname.2.2
    rw [walk]
    simpa [step_of_dir hdir, hname.1, hname.2.1, hlength, hlink, htarget] using ih
  | free hdir hname hfree =>
    have hlength := Nat.not_lt.mpr hname.2.2
    simp [walk, step_of_dir hdir, hname.1, hname.2.1, hlength, hfree]

end Walk

/-- A path without fault names something, is without the zero byte, and is not too long. -/
theorem fault?_eq_none_iff {path : String} : fault? path = none ↔
    path.isEmpty = false ∧ '\x00' ∉ path.toList ∧ path.utf8ByteSize < maxPath := by
  unfold fault?
  split
  next hempty => simp [hempty]
  next hempty =>
    split
    next hzero => simpa using fun _ hclean => absurd (by simpa using hzero) hclean
    next hzero =>
      split
      next hlong => simpa using fun _ _ => hlong
      next hlong => simpa [hempty] using ⟨by simpa using hzero, Nat.lt_of_not_le hlong⟩

end Route

/-- A place where a file stands or may be made. -/
def Place.TakesFile : Place → List String → Prop
  | found at_ node, target => at_ = target ∧ node.kind = .file
  | free at_, target => at_ = target

namespace Route.Leads

variable {root : Node} {links : Nat} {at_ names target : List String} {place : Place}

/-- A path leads to what stands there. -/
theorem get?_eq {node : Node} (h : Leads root links at_ names (.found target node)) :
    root.get? target = some node := by
  generalize hfound : Place.found target node = place at h
  induction h with
  | arrive hnode =>
    obtain ⟨rfl, rfl⟩ := Place.found.inj hfound
    exact hnode
  | stay _ _ ih | up _ _ ih | enter _ _ _ _ _ ih | follow _ _ _ _ _ ih => exact ih hfound
  | free => cases hfound

theorem takes (h : Leads root links at_ names place) (hfile : place.TakesFile target) :
    root.Takes target := by
  induction h with
  | @arrive _ _ node hnode =>
    obtain ⟨rfl, hkind⟩ := hfile
    cases node with
    | file => exact Node.takes_of_file hnode
    | link | dir => cases hkind
  | stay _ _ ih | up _ _ ih | enter _ _ _ _ _ ih | follow _ _ _ _ _ ih => exact ih hfile
  | free hdir _ hfree =>
    obtain rfl := hfile
    rw [Node.get?_concat hdir] at hfree
    exact Node.takes_of_free hdir hfree

/-- When a file is put somewhere, a path that led to a file or to a free name leads where it led, to
what stands there now. -/
theorem after_put {new : List String} (htakes : root.Takes new) (content : ByteArray) (mode : Nat)
    (h : Leads root links at_ names place) (hfile : place.TakesFile target)
    {old : ByteArray} {oldMode : Nat}
    (hnow : (root.put new (.file content mode)).get? target = some (.file old oldMode)) :
    Leads (root.put new (.file content mode)) links at_ names
      (.found target (.file old oldMode)) := by
  -- A directory on the way may hold another file now, but is still a directory.
  have hdirs {p : List String} {entries : List (String × Node)}
      (hdir : root.get? p = some (.dir entries)) : ∃ entries',
        (root.put new (.file content mode)).get? p = some (.dir entries') := by
    obtain ⟨node, hnode, hkind⟩ := htakes.exists_put content mode hdir
    obtain ⟨entries', rfl⟩ := Node.eq_dir_of_kind hkind
    exact ⟨entries', hnode⟩
  induction h with
  | arrive =>
    obtain ⟨rfl, -⟩ := hfile
    exact .arrive hnow
  | stay hdir _ ih =>
    obtain ⟨entries', hdir'⟩ := hdirs hdir
    exact .stay hdir' (ih hfile)
  | up hdir _ ih =>
    obtain ⟨entries', hdir'⟩ := hdirs hdir
    exact .up hdir' (ih hfile)
  | enter hdir hname hnode hlink _ ih =>
    obtain ⟨entries', hdir'⟩ := hdirs hdir
    obtain ⟨node', hnode', hkind⟩ := htakes.exists_put content mode hnode
    refine .enter hdir' hname hnode' ?_ (ih hfile)
    rintro target rfl
    exact hlink target (Node.eq_link_of_kind hkind.symm)
  | follow hdir hname hlink htarget _ ih =>
    obtain ⟨entries', hdir'⟩ := hdirs hdir
    obtain ⟨node', hnode', hkind⟩ := htakes.exists_put content mode hlink
    obtain rfl := Node.eq_link_of_kind hkind
    exact .follow hdir' hname hnode' htarget (ih hfile)
  | free hdir hname =>
    -- The name that was free is now the name of a file.
    obtain rfl := hfile
    obtain ⟨entries', hdir'⟩ := hdirs hdir
    exact .enter hdir' hname hnow nofun (.arrive hnow)

/-- When a file is put where a path leads, the path leads to the file. -/
theorem put (h : Leads root links at_ names place) (hfile : place.TakesFile target)
    (content : ByteArray) (mode : Nat) :
    Leads (root.put target (.file content mode)) links at_ names
      (.found target (.file content mode)) :=
  h.after_put (h.takes hfile) content mode hfile ((h.takes hfile).get?_put _)

end Route.Leads

/-! ## Files of a tree -/

namespace FileTree

variable {tree after : FileTree} {path : String} {content : ByteArray} {target : List String}
variable {place : Place} {mode : Nat}

/-- The tree with a file at a place. -/
def putFile (tree : FileTree) (target : List String) (content : ByteArray) (mode : Nat) :
    FileTree :=
  { tree with root := tree.root.put target (.file content mode) }

/-- A path without fault is located where it leads. -/
theorem locate_eq_ok_iff : tree.locate path = .ok place ↔ Route.fault? path = none ∧
    Route.Leads tree.root Route.maxLinks (if Route.isAbsolute path then [] else tree.cwd)
      (Route.names path) place := by
  unfold locate Route.locate
  cases Route.fault? path with
  | some e => simp
  | none => exact ⟨fun h => ⟨rfl, Route.leads_of_walk h⟩, fun h => h.2.walk_eq⟩

theorem get?_of_locate {node : Node} (h : tree.locate path = .ok (.found target node)) :
    tree.root.get? target = some node :=
  (locate_eq_ok_iff.mp h).2.get?_eq

theorem takes_of_locate (h : tree.locate path = .ok place) (hfile : place.TakesFile target) :
    tree.root.Takes target :=
  (locate_eq_ok_iff.mp h).2.takes hfile

/-- A path leads to the file that was put where it leads. -/
theorem locate_putFile (h : tree.locate path = .ok place) (hfile : place.TakesFile target)
    (content : ByteArray) (mode : Nat) :
    (tree.putFile target content mode).locate path =
      .ok (.found target (.file content mode)) := by
  obtain ⟨hfault, hleads⟩ := locate_eq_ok_iff.mp h
  exact locate_eq_ok_iff.mpr ⟨hfault, hleads.put hfile content mode⟩

/-- A path that leads to a file still leads to it when a file is put at another place. -/
theorem locate_putFile_of_ne
    (h : tree.locate path = .ok (.found target (.file content mode))) {new : List String}
    (htakes : tree.root.Takes new) (hne : target ≠ new) (content' : ByteArray) (mode' : Nat) :
    (tree.putFile new content' mode').locate path =
      .ok (.found target (.file content mode)) := by
  obtain ⟨hfault, hleads⟩ := locate_eq_ok_iff.mp h
  have hkept : Node.Kept (tree.root.get? target)
      ((tree.root.put new (.file content' mode')).get? target) :=
    htakes.kept_put (fun _ _ => rfl) hne
  rw [hleads.get?_eq] at hkept
  have hsame : (tree.root.put new (.file content' mode')).get? target =
      some (.file content mode) := by
    generalize hnow : (tree.root.put new (.file content' mode')).get? target = now at hkept
    cases hkept
    rfl
  exact locate_eq_ok_iff.mpr ⟨hfault, hleads.after_put htakes content' mode' ⟨rfl, rfl⟩ hsame⟩

/-- A file is made where a path leads to a free name. -/
theorem write_of_free (h : tree.locate path = .ok (.free target))
    (hslash : endsInSlash path = false) (content : ByteArray) :
    tree.write path content = .ok (tree.putFile target content Node.newMode) := by
  simp only [write, hslash, h]
  rfl

/-- What is written to a path is put where the path leads. -/
theorem exists_place_of_write (h : tree.write path content = .ok after) :
    ∃ place target mode, tree.locate path = .ok place ∧ place.TakesFile target ∧
      ∀ other, tree.write path other = .ok (tree.putFile target other mode) := by
  unfold write at h ⊢
  split at h
  next => split at h <;> cases h
  next hslash =>
    simp only [if_neg hslash]
    split at h
    next at_ _ mode hfound => exact ⟨_, at_, mode, hfound, ⟨rfl, rfl⟩, fun _ => rfl⟩
    next => cases h
    next at_ hfree => exact ⟨_, at_, Node.newMode, hfree, rfl, fun _ => rfl⟩
    next => cases h

/-- A path that was written once can be written again, and then leads to what was written. -/
theorem exists_write (h : tree.write path content = .ok after) :
    ∃ target mode, ∀ other, tree.write path other = .ok (tree.putFile target other mode) ∧
      (tree.putFile target other mode).locate path = .ok (.found target (.file other mode)) := by
  obtain ⟨place, target, mode, hplace, htakes, hwrite⟩ := exists_place_of_write h
  exact ⟨target, mode, fun other => ⟨hwrite other, locate_putFile hplace htakes other mode⟩⟩

/-- A path leads to a file with some content, and the file can be written. -/
structure IsOpen (tree : FileTree) (path : String) (target : List String) (content : ByteArray) :
    Prop where
  exists_mode : ∃ mode, tree.locate path = .ok (.found target (.file content mode))
  exists_written : ∃ before first after, FileTree.write before path first = .ok after

/-- What was written is open, and what was open is so still: another file holds what it held. -/
theorem exists_isOpen_of_write (h : tree.write path content = .ok after) :
    ∃ target, after.IsOpen path target content ∧
      ∀ {other : String} {place : List String} {old : ByteArray}, tree.IsOpen other place old →
        after.IsOpen other place (if place = target then content else old) := by
  obtain ⟨place, target, mode, hplace, htakes, hwrite⟩ := exists_place_of_write h
  cases (hwrite content).symm.trans h
  refine ⟨target, ⟨⟨mode, locate_putFile hplace htakes content mode⟩, tree, content, _, h⟩, ?_⟩
  rintro other place' old ⟨⟨oldMode, hlocate⟩, hwritten⟩
  by_cases hsame : place' = target
  · subst hsame
    rw [if_pos rfl]
    exact ⟨⟨mode, locate_putFile hlocate ⟨rfl, rfl⟩ content mode⟩, hwritten⟩
  · rw [if_neg hsame]
    have htaken := takes_of_locate hplace htakes
    exact ⟨⟨oldMode, locate_putFile_of_ne hlocate htaken hsame content mode⟩, hwritten⟩

namespace IsOpen

/-- What is open can be written. -/
theorem exists_write (h : tree.IsOpen path target content) (new : ByteArray) :
    ∃ after, tree.write path new = .ok after := by
  obtain ⟨⟨mode, hlocate⟩, before, first, after, hwritten⟩ := h
  unfold FileTree.write at hwritten ⊢
  -- Whether a path can only lead to a directory is seen from the path alone.
  split at hwritten
  next => split at hwritten <;> cases hwritten
  next hslash =>
    simp only [if_neg hslash, hlocate]
    exact ⟨_, rfl⟩

theorem readBytes_eq (h : tree.IsOpen path target content) : tree.readBytes path = .ok content := by
  obtain ⟨mode, hlocate⟩ := h.exists_mode
  simp only [readBytes, find, hlocate]

/-- Two paths that lead to one file lead to the same place. -/
theorem locate_eq {other : String} {content' : ByteArray} (h : tree.IsOpen path target content)
    (hother : tree.IsOpen other target content') : tree.locate path = tree.locate other := by
  obtain ⟨mode, hlocate⟩ := h.exists_mode
  obtain ⟨mode', hlocate'⟩ := hother.exists_mode
  have hnode := (get?_of_locate hlocate).symm.trans (get?_of_locate hlocate')
  rw [hlocate, hlocate', Option.some.inj hnode]

/-- When a path is written, it leads to the same place as before. -/
theorem after_write (h : tree.IsOpen path target content) {new : ByteArray}
    (hwrite : tree.write path new = .ok after) : after.IsOpen path target new ∧
      ∀ {other : String} {place : List String} {old : ByteArray}, tree.IsOpen other place old →
        after.IsOpen other place (if place = target then new else old) := by
  obtain ⟨target', hopen, hothers⟩ := exists_isOpen_of_write hwrite
  obtain ⟨mode, hnow⟩ := hopen.exists_mode
  obtain ⟨mode', hkept⟩ := (hothers h).exists_mode
  obtain rfl : target' = target := by
    have hsame := hnow.symm.trans hkept
    injection hsame with hplace
    injection hplace
  exact ⟨hopen, hothers⟩

end IsOpen

/-- The mode of the file that a path leads to can be set. -/
theorem setMode_of_locate (h : tree.locate path = .ok (.found target (.file content mode)))
    (mode' : Nat) : tree.setMode path mode' = .ok (tree.putFile target content mode') ∧
      (tree.putFile target content mode').locate path =
        .ok (.found target (.file content mode')) :=
  ⟨by simp only [setMode, h]; rfl, locate_putFile h ⟨rfl, rfl⟩ content mode'⟩

/-- The text of a file is read. -/
theorem readText_of_locate {text : String}
    (h : tree.locate path = .ok (.found target (.file text.toUTF8 mode))) :
    tree.readText path = .ok text := by
  have hvalid : text.toUTF8.IsValidUTF8 := text.isValidUTF8
  have htext : String.fromUTF8? text.toUTF8 = some text := dif_pos hvalid
  simp only [readText, readBytes, find, h, htext]

theorem IsOpen.readText_eq {text : String} (h : tree.IsOpen path target text.toUTF8) :
    tree.readText path = .ok text := by
  obtain ⟨mode, hlocate⟩ := h.exists_mode
  exact readText_of_locate hlocate

end FileTree

end BucketCare

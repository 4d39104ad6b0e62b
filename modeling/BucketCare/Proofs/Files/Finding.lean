import BucketCare.Proofs.Files.Scanning
import BucketCare.Proofs.Text.Bytes

/-!
# What a scan finds

A scan of a directory finds each file that is reached from there through directories alone, and
finds it once: with its size, and under the folder of the destination with the names on the way to
the file behind it. It finds nothing else. Links lead nowhere, whatever they point at, so also a
directory that holds a link to itself or to one above it is scanned to its end.

The keys of what was found ascend in the order of their bytes. That order is not the one in which a
directory is walked, since `a-b` comes before `a/b`; but as no two files have one key, it makes the
answer one of the tree alone, in whatever order the entries of its directories are read.

## Main definitions

* `IsScan` — some uploads are those of the files below a directory
* `Node.Reordered` — a tree with the entries of its directories in another order

## Main results

* `Node.mem_files_iff` — the files below a node are those that stand below it
* `Node.Reordered.files_perm` — the files of a tree in another order are the same
* `scan_finds` — every scan of a directory finds its files, each once
-/

namespace BucketCare

/-! ## Files by their places -/

namespace Node

variable {node other : Node} {names : List String} {size : Nat}

theorem filesOf_eq_flatMap (entries : List (String × Node)) : filesOf entries =
    entries.flatMap fun entry => entry.2.files.map fun found => (entry.1 :: found.1, found.2) := by
  induction entries with
  | nil => rfl
  | cons entry rest ih =>
    rw [filesOf, ih]
    rfl

/-- A file that stands below a node is found there. -/
theorem mem_files_of_get? {content : ByteArray} {mode : Nat}
    (h : node.get? names = some (.file content mode)) : (names, content.size) ∈ node.files := by
  induction names generalizing node with
  | nil =>
    obtain rfl : node = .file content mode := by simpa [get?] using h
    simp [files]
  | cons name names ih =>
    cases node with
    | file | link => cases h
    | dir entries =>
      obtain ⟨child, hchild, hfile⟩ := Option.bind_eq_some_iff.mp h
      rw [files, filesOf_eq_flatMap]
      apply List.mem_flatMap.mpr
      exact ⟨(name, child), mem_of_lookup hchild, List.mem_map.mpr ⟨_, ih hfile, rfl⟩⟩

/-- The files below a node are those that stand below it. -/
theorem mem_files_iff (h : node.WellNamed) : (names, size) ∈ node.files ↔
    ∃ content mode, node.get? names = some (.file content mode) ∧ content.size = size := by
  constructor
  · intro hmem
    exact (foundAt_of_mem_files node h names size hmem).2
  · rintro ⟨content, mode, hfile, rfl⟩
    exact mem_files_of_get? hfile

/-- The names on the way to what stands below a node are names of files. -/
theorem WellNamed.isFileName (h : node.WellNamed) (hplace : node.get? names = some other) :
    ∀ name ∈ names, IsFileName name := by
  induction names generalizing node with
  | nil => exact List.forall_mem_nil _
  | cons name names ih =>
    cases node with
    | file | link => cases hplace
    | dir entries =>
      obtain ⟨child, hchild, hrest⟩ := Option.bind_eq_some_iff.mp hplace
      obtain ⟨hname, hnamed⟩ := h.2.of_mem (mem_of_lookup hchild)
      exact List.forall_mem_cons.mpr ⟨hname, ih hnamed hrest⟩

/-! ## Directories in another order -/

/-- Two trees are the same but for the order of the entries in their directories. -/
inductive Reordered : Node → Node → Prop
  /-- A tree is in its own order. -/
  | refl (node : Node) : Reordered node node
  /-- The entries of a directory are in another order. -/
  | entries {entries others : List (String × Node)} (h : entries.Perm others) :
      Reordered (dir entries) (dir others)
  /-- What stands under one of the names is in another order. -/
  | under {before after : List (String × Node)} {name : String} {node other : Node}
      (h : Reordered node other) :
      Reordered (dir (before ++ (name, node) :: after)) (dir (before ++ (name, other) :: after))
  /-- The order changes more than once. -/
  | trans {node middle other : Node} (h : Reordered node middle) (h' : Reordered middle other) :
      Reordered node other

/-- The files of a tree in another order are the same. -/
theorem Reordered.files_perm (h : Reordered node other) : node.files.Perm other.files := by
  induction h with
  | refl => exact .refl _
  | entries h =>
    rw [files, files, filesOf_eq_flatMap, filesOf_eq_flatMap]
    exact h.flatMap_right _
  | under _ ih =>
    simp only [files, filesOf_eq_flatMap, List.flatMap_append, List.flatMap_cons]
    exact ((ih.map _).append_right _).append_left _
  | trans _ _ ih ih' => exact ih.trans ih'

end Node

/-! ## Keys in ascending order -/

/-- Relative paths of different places are different. -/
theorem intercalate_injective {names others : List String} (h : ∀ name ∈ names, IsFileName name)
    (h' : ∀ name ∈ others, IsFileName name)
    (heq : "/".intercalate names = "/".intercalate others) : names = others := by
  -- Only the place of the directory itself has the empty path.
  by_cases hne : names = []
  · subst hne
    by_contra hother
    exact intercalate_ne_nil (Ne.symm hother) h' (heq ▸ rfl)
  · by_cases hne' : others = []
    · subst hne'
      exact absurd (congrArg String.toList heq) (intercalate_ne_nil hne h)
    · exact intercalate_inj hne hne' h h' heq

namespace Scan

variable {files others : List UploadFile}

/-- Files with keys of their own are sorted in the order of the bytes of the keys. -/
theorem sort_ascending (hkeys : (files.map UploadFile.key).Nodup) :
    (sort files).Pairwise fun a b => Text.bytes a.key < Text.bytes b.key := by
  have hdistinct : (sort files).Pairwise fun a b => a.key ≠ b.key := by
    apply List.pairwise_map.mp
    exact ((List.mergeSort_perm _ _).map UploadFile.key).nodup_iff.mpr hkeys
  apply ((Text.pairwise_mergeSort UploadFile.key files).and hdistinct).imp
  rintro a b ⟨hle, hne⟩
  rw [Text.bytes_lt_bytes]
  exact lt_of_le_of_ne hle hne

/-- Files with keys of their own are sorted in one way, in whatever order they are given. -/
theorem sort_eq_of_perm (hkeys : (files.map UploadFile.key).Nodup) (h : files.Perm others) :
    sort files = sort others := by
  have hperm : (sort files).Perm (sort others) :=
    ((List.mergeSort_perm _ _).trans h).trans (List.mergeSort_perm _ _).symm
  apply hperm.eq_of_pairwise _ (sort_ascending hkeys)
    (sort_ascending ((h.map UploadFile.key).nodup_iff.mp hkeys))
  intro a b _ _ hless hless'
  exact absurd hless' (List.lt_asymm hless)

end Scan

/-! ## Every scan -/

/-- Some uploads are those of the files below a directory. -/
structure IsScan (directory : String) (dest : StorePath) (node : Node)
    (files : List UploadFile) : Prop where
  /-- Each is that of a file that is reached through directories alone, with the size of the file
  and under the names on the way to it, and each such file has one. -/
  mem_iff : ∀ upload, upload ∈ files ↔ ∃ names content mode,
    node.get? names = some (.file content mode) ∧
      upload = ⟨Route.join directory ("/".intercalate names),
        dest.folder ++ "/".intercalate names, content.size⟩
  /-- Each such file has only one. -/
  once : ∀ names content mode, node.get? names = some (.file content mode) →
    (files.map UploadFile.key).count (dest.folder ++ "/".intercalate names) = 1
  /-- What stands at two places would have two keys. -/
  places_apart : ∀ names other found found', node.get? names = some found →
    node.get? other = some found' →
      dest.folder ++ "/".intercalate names = dest.folder ++ "/".intercalate other → names = other
  /-- There is none of a link or a directory. -/
  only_files : ∀ names found, node.get? names = some found →
    (∀ content mode, found ≠ .file content mode) → ∀ upload ∈ files,
      upload.key ≠ dest.folder ++ "/".intercalate names
  /-- Their keys ascend in the order of their bytes. -/
  ascending : (files.map fun upload => Text.bytes upload.key).Pairwise (· < ·)

/-- The uploads of the files below a directory, by their keys. -/
theorem isScan_sort (directory : String) (dest : StorePath) {entries : List (String × Node)}
    (hnamed : (Node.dir entries).WellNamed) : IsScan directory dest (.dir entries)
      (Scan.sort ((Node.dir entries).files.map fun (names, size) =>
        Scan.upload directory dest names size)) := by
  have hkeys := uploads_keys_nodup directory dest hnamed
  have hupload : ∀ names size, (names, size) ∈ (Node.dir entries).files →
      Scan.upload directory dest names size = ⟨Route.join directory ("/".intercalate names),
        dest.folder ++ "/".intercalate names, size⟩ := by
    intro names size hmem
    have hkey : (Scan.upload directory dest names size).key =
        dest.folder ++ "/".intercalate names :=
      key_upload (Node.ne_nil_of_mem_filesOf hnamed.2 hmem)
        (Node.foundAt_of_mem_files _ hnamed names size hmem).1 size
    rw [← hkey]
    rfl
  generalize hall : (Node.dir entries).files.map (fun (names, size) =>
    Scan.upload directory dest names size) = uploads at hkeys ⊢
  have hperm : (Scan.sort uploads).Perm uploads := List.mergeSort_perm _ _
  -- What is found stands there and what stands there is found, and sorting keeps all of it.
  have hmem : ∀ upload, upload ∈ Scan.sort uploads ↔ ∃ names content mode,
      (Node.dir entries).get? names = some (.file content mode) ∧
        upload = ⟨Route.join directory ("/".intercalate names),
          dest.folder ++ "/".intercalate names, content.size⟩ := by
    intro upload
    rw [hperm.mem_iff, ← hall, List.mem_map]
    constructor
    · rintro ⟨⟨names, size⟩, hfile, rfl⟩
      obtain ⟨content, mode, hget, rfl⟩ := (Node.mem_files_iff hnamed).mp hfile
      exact ⟨names, content, mode, hget, hupload names _ hfile⟩
    · rintro ⟨names, content, mode, hget, rfl⟩
      have hfile := Node.mem_files_of_get? hget
      exact ⟨(names, content.size), hfile, hupload names _ hfile⟩
  -- The folder of the destination is the same in all keys, and relative paths are told apart.
  have hapart : ∀ names other found found', (Node.dir entries).get? names = some found →
      (Node.dir entries).get? other = some found' →
        dest.folder ++ "/".intercalate names = dest.folder ++ "/".intercalate other →
          names = other := by
    intro names other found found' hfound hfound' heq
    rw [String.append_right_inj] at heq
    exact intercalate_injective (hnamed.isFileName hfound) (hnamed.isFileName hfound') heq
  constructor
  case mem_iff => exact hmem
  case once =>
    intro names content mode hget
    apply List.count_eq_one_of_mem
    · exact (hperm.map UploadFile.key).nodup_iff.mpr hkeys
    · exact List.mem_map.mpr ⟨_, (hmem _).mpr ⟨names, content, mode, hget, rfl⟩, rfl⟩
  case places_apart => exact hapart
  case only_files =>
    intro names found hfound hother upload hupload heq
    -- With this key the upload would be that of a file at the same place.
    obtain ⟨place, content, mode, hget, rfl⟩ := (hmem upload).mp hupload
    obtain rfl := hapart place names _ _ hget hfound heq
    exact hother content mode (Option.some.inj (hfound.symm.trans hget))
  case ascending => exact List.pairwise_map.mpr (Scan.sort_ascending hkeys)

/-- Every scan of a directory finds its files, each once and under a key of its own, and finds
nothing else. In whatever order its directories are read, the answer is the same. -/
theorem scan_finds (tree : FileTree) (directory : String) (dest : StorePath)
    (entries : List (String × Node)) (hfind : tree.find directory = .ok (.dir entries))
    (hnamed : (Node.dir entries).WellNamed) :
    ∃ files, scan tree directory dest = .ok files ∧ IsScan directory dest (.dir entries) files ∧
      ∀ (other : FileTree) (others : List (String × Node)),
        other.find directory = .ok (.dir others) → (Node.dir entries).Reordered (.dir others) →
          scan other directory dest = .ok files := by
  refine ⟨_, scan_of_find hfind, isScan_sort directory dest hnamed, ?_⟩
  intro other others hother hreordered
  rw [scan_of_find hother]
  exact congrArg Except.ok (Scan.sort_eq_of_perm (uploads_keys_nodup directory dest hnamed)
    (hreordered.files_perm.map _)).symm

/-- The entries of a directory that holds two files, one of them in a directory of its own beside a
link to the directory above, a link to a directory and a link to nothing. -/
def linkedEntries : List (String × Node) :=
  [("a", .dir [("b", .file ⟨#[1, 2]⟩ Node.newMode), ("up", .link "..")]),
    ("a-b", .file ⟨#[3]⟩ Node.newMode), ("to", .link "a"), ("gone", .link "nowhere")]

theorem linkedEntries_wellNamed : (Node.dir linkedEntries).WellNamed := by
  have hname (name : String) (h : name ∈ ["a", "b", "up", "a-b", "to", "gone"]) :
      IsFileName name := by
    simp only [List.mem_cons, List.not_mem_nil, or_false] at h
    rcases h with rfl | rfl | rfl | rfl | rfl | rfl
    all_goals exact ⟨⟨by decide, by decide, by decide⟩, by decide, by decide +kernel,
      by decide +kernel⟩
  simp [linkedEntries, Node.WellNamed, Node.AllWellNamed, hname]

/-- The scan of this directory finds the two files, in the order of their keys. -/
theorem scan_finds_beside_links :
    let tree : FileTree := ⟨.dir [("in", .dir linkedEntries)], []⟩
    tree.find "in" = .ok (.dir linkedEntries) ∧ (Node.dir linkedEntries).WellNamed ∧
      scan tree "in" ⟨"bkt", "up"⟩ = .ok [⟨"in/a-b", "up/a-b", 1⟩, ⟨"in/a/b", "up/a/b", 2⟩] ∧
      IsScan "in" ⟨"bkt", "up"⟩ (.dir linkedEntries)
        [⟨"in/a-b", "up/a-b", 1⟩, ⟨"in/a/b", "up/a/b", 2⟩] := by
  intro tree
  have hfind : tree.find "in" = .ok (.dir linkedEntries) := rfl
  obtain ⟨files, hscan, hfiles, -⟩ :=
    scan_finds tree "in" ⟨"bkt", "up"⟩ linkedEntries hfind linkedEntries_wellNamed
  have hwalked : (Node.dir linkedEntries).files.map (fun (names, size) =>
      Scan.upload "in" ⟨"bkt", "up"⟩ names size) =
        [⟨"in/a/b", "up/a/b", 2⟩, ⟨"in/a-b", "up/a-b", 1⟩] := by decide +kernel
  have hfound : scan tree "in" ⟨"bkt", "up"⟩ =
      .ok [⟨"in/a-b", "up/a-b", 1⟩, ⟨"in/a/b", "up/a/b", 2⟩] := by
    rw [scan_of_find hfind, hwalked, Scan.sort_eq_of_perm (by decide +kernel) (.swap _ _ _),
      Scan.sort, List.mergeSort_of_pairwise (by decide +kernel)]
  obtain rfl := Except.ok.inj (hscan.symm.trans hfound)
  exact ⟨hfind, linkedEntries_wellNamed, hfound, hfiles⟩

end BucketCare

import BucketCare.Proofs.Child
import BucketCare.Proofs.Files.Writing
import BucketCare.Proofs.Text.Pieces
import BucketCare.Upload.Plan
import Mathlib.Data.List.Nodup

/-!
# What is found below a directory

The files below a directory are found by the names on the way to them. In a tree of which the names
are those of files, each file is found once and under a key of its own, since names put together
with slashes can be told apart again; and the path that it is to be read from leads to it, however
the path of the directory was written and whatever links that leads over.

## Main definitions

* `IsFileName` — what an entry of a directory may be called
* `Node.WellNamed` — all entries below a node are called so, and none like another one beside it

## Main results

* `Node.foundAt_of_mem_files`, `Node.nodup_files` — what is found is there, and is found once
* `FileTree.locate_join` — the names below a directory, behind its path, lead to the file
* `scan_readable`, `scan_keys_nodup` — a file that was found can be read, and has a key of its own
-/

namespace BucketCare

/-! ## Texts that are put together -/

namespace Text

theorem pieces_append (before after : String) :
    pieces '/' (before ++ "/" ++ after) = pieces '/' before ++ pieces '/' after := by
  have hlist : (before ++ "/" ++ after).toList = before.toList ++ '/' :: after.toList := by simp
  rw [pieces, hlist, splitAt_append, List.map_append]
  rfl

/-- Pieces without the mark, put together with it, are told apart again. -/
theorem pieces_intercalate {names : List String} (hne : names ≠ [])
    (h : ∀ name ∈ names, '/' ∉ name.toList) : pieces '/' ("/".intercalate names) = names := by
  induction names with
  | nil => exact absurd rfl hne
  | cons name rest ih =>
    obtain ⟨hname, hrest⟩ := List.forall_mem_cons.mp h
    have hfirst : pieces '/' name = [name] := by
      rw [pieces, splitAt_of_notMem hname]
      simp
    cases rest with
    | nil => simpa using hfirst
    | cons next rest =>
      rw [String.intercalate_cons_cons, pieces_append, hfirst, ih (by simp) hrest]
      rfl

end Text

/-! ## Names of files -/

/-- What an entry of a directory may be called. -/
structure IsFileName (name : String) : Prop where
  entry : Route.IsEntryName name
  ne_empty : name ≠ ""
  noSlash : '/' ∉ name.toList
  noZero : '\x00' ∉ name.toList

section Names

variable {names : List String}

/-- The names of a relative path are those that it was put together from. -/
theorem names_intercalate (hne : names ≠ []) (h : ∀ name ∈ names, IsFileName name) :
    (Text.pieces '/' ("/".intercalate names)).filter (· != "") = names := by
  rw [Text.pieces_intercalate hne fun name hmem => (h name hmem).noSlash]
  apply List.filter_eq_self.mpr
  intro name hmem
  simpa using (h name hmem).ne_empty

/-- Relative paths of different names are different. -/
theorem intercalate_inj {others : List String} (hne : names ≠ []) (hne' : others ≠ [])
    (h : ∀ name ∈ names, IsFileName name) (h' : ∀ name ∈ others, IsFileName name)
    (heq : "/".intercalate names = "/".intercalate others) : names = others := by
  rw [← names_intercalate hne h, heq, names_intercalate hne' h']

/-- A relative path begins with the first character of its first name. -/
theorem exists_head?_intercalate (hne : names ≠ []) (h : ∀ name ∈ names, IsFileName name) :
    ∃ c, ("/".intercalate names).toList.head? = some c ∧ c ≠ '/' := by
  cases names with
  | nil => exact absurd rfl hne
  | cons name rest =>
    have hname := h name (.head _)
    obtain ⟨c, cs, hcs⟩ : ∃ c cs, name.toList = c :: cs := by
      apply List.exists_cons_of_ne_nil
      intro hnil
      exact hname.ne_empty (String.toList_inj.mp hnil)
    refine ⟨c, ?_, ?_⟩
    · cases rest <;> simp [String.intercalate_cons_cons, hcs]
    · rintro rfl
      exact hname.noSlash (by simp [hcs])

theorem intercalate_ne_nil (hne : names ≠ []) (h : ∀ name ∈ names, IsFileName name) :
    ("/".intercalate names).toList ≠ [] := by
  obtain ⟨c, hfirst, -⟩ := exists_head?_intercalate hne h
  intro hnil
  simp [hnil] at hfirst

theorem zero_notMem_intercalate (h : ∀ name ∈ names, IsFileName name) :
    '\x00' ∉ ("/".intercalate names).toList := by
  induction names with
  | nil => simp
  | cons name rest ih =>
    obtain ⟨hname, hrest⟩ := List.forall_mem_cons.mp h
    cases rest with
    | nil => simpa using hname.noZero
    | cons next rest =>
      rw [String.intercalate_cons_cons, String.toList_append, String.toList_append]
      intro hmem
      rcases List.mem_append.mp hmem with hfirst | hlater
      · simp [hname.noZero] at hfirst
      · exact ih hrest hlater

end Names

/-! ## The files below a node -/

namespace Node

mutual

/-- The names below a node are names of files, and no two entries of a directory share one. -/
def WellNamed : Node → Prop
  | dir entries => (entries.map Prod.fst).Nodup ∧ AllWellNamed entries
  | _ => True

/-- So are the names of some entries and those below them. -/
def AllWellNamed : List (String × Node) → Prop
  | [] => True
  | (name, node) :: rest => IsFileName name ∧ node.WellNamed ∧ AllWellNamed rest

end

theorem AllWellNamed.of_mem {entries : List (String × Node)} (h : AllWellNamed entries)
    {name : String} {node : Node} (hmem : (name, node) ∈ entries) :
    IsFileName name ∧ node.WellNamed := by
  induction entries with
  | nil => cases hmem
  | cons entry rest ih =>
    obtain ⟨hname, hnode, hrest⟩ := h
    rcases List.mem_cons.mp hmem with heq | hmem
    · obtain ⟨rfl, rfl⟩ := Prod.mk.inj heq
      exact ⟨hname, hnode⟩
    · exact ih hrest hmem

theorem mem_of_lookup {entries : List (String × Node)} {name : String} {node : Node}
    (h : entries.lookup name = some node) : (name, node) ∈ entries := by
  induction entries with
  | nil => cases h
  | cons entry rest ih =>
    obtain ⟨key, value⟩ := entry
    rw [List.lookup_cons] at h
    by_cases hkey : name = key
    · obtain rfl : value = node := by simpa [hkey] using h
      subst hkey
      exact .head _
    · have hne : (name == key) = false := by simpa using hkey
      rw [hne] at h
      exact .tail _ (ih h)

theorem lookup_of_mem {entries : List (String × Node)} (hdistinct : (entries.map Prod.fst).Nodup)
    {name : String} {node : Node} (hmem : (name, node) ∈ entries) :
    entries.lookup name = some node := by
  induction entries with
  | nil => cases hmem
  | cons entry rest ih =>
    obtain ⟨key, value⟩ := entry
    obtain ⟨hfresh, hrest⟩ := List.nodup_cons.mp hdistinct
    rw [List.lookup_cons]
    rcases List.mem_cons.mp hmem with heq | hlater
    · obtain ⟨rfl, rfl⟩ := Prod.mk.inj heq
      simp
    · have hne : (name == key) = false := by
        apply beq_eq_false_iff_ne.mpr
        rintro rfl
        exact hfresh (List.mem_map.mpr ⟨_, hlater, rfl⟩)
      rw [hne]
      exact ih hrest hlater

/-- What stands below a node has names as the node does. -/
theorem WellNamed.get? {node below : Node} (h : node.WellNamed) {place : List String}
    (hplace : node.get? place = some below) : below.WellNamed := by
  induction place generalizing node with
  | nil =>
    obtain rfl : node = below := by simpa [Node.get?] using hplace
    exact h
  | cons name place ih =>
    cases node with
    | file | link => cases hplace
    | dir entries =>
      rw [Node.get?] at hplace
      cases hchild : entries.lookup name with
      | none => simp [hchild] at hplace
      | some child =>
        rw [hchild, Option.bind_some] at hplace
        exact ih (h.2.of_mem (mem_of_lookup hchild)).2 hplace

/-- A file that was found stands where it was found, and the names on the way to it are names of
files. -/
def FoundAt (node : Node) (names : List String) (size : Nat) : Prop :=
  (∀ name ∈ names, IsFileName name) ∧
    ∃ content mode, node.get? names = some (.file content mode) ∧ content.size = size

mutual

theorem foundAt_of_mem_files : (node : Node) → node.WellNamed → ∀ names size,
    (names, size) ∈ node.files → node.FoundAt names size
  | file content mode, _, names, size, hmem => by
    obtain ⟨rfl, rfl⟩ : names = [] ∧ size = content.size := by simpa [files] using hmem
    exact ⟨nofun, content, mode, rfl, rfl⟩
  | link _, _, _, _, hmem => by simp [files] at hmem
  | dir entries, h, names, size, hmem => by
    obtain ⟨name, node, rest, rfl, hentry, hnames, content, mode, hget, hsize⟩ :=
      foundAt_of_mem_filesOf entries h.2 names size hmem
    have hchild := lookup_of_mem h.1 hentry
    refine ⟨List.forall_mem_cons.mpr ⟨(h.2.of_mem hentry).1, hnames⟩, content, mode, ?_, hsize⟩
    rw [get?, hchild, Option.bind_some, hget]

theorem foundAt_of_mem_filesOf : (entries : List (String × Node)) → AllWellNamed entries →
    ∀ names size, (names, size) ∈ filesOf entries →
      ∃ name node rest, names = name :: rest ∧ (name, node) ∈ entries ∧ node.FoundAt rest size
  | [], _, _, _, hmem => by cases hmem
  | (name, node) :: entries, h, names, size, hmem => by
    obtain ⟨-, hnode, hentries⟩ := h
    rw [filesOf] at hmem
    rcases List.mem_append.mp hmem with hmem | hmem
    · obtain ⟨⟨rest, _⟩, hfile, heq⟩ := List.mem_map.mp hmem
      obtain ⟨rfl, rfl⟩ := Prod.mk.inj heq
      exact ⟨name, node, rest, rfl, .head _, foundAt_of_mem_files node hnode rest _ hfile⟩
    · obtain ⟨other, child, rest, rfl, hentry, hfound⟩ :=
        foundAt_of_mem_filesOf entries hentries names size hmem
      exact ⟨other, child, rest, rfl, .tail _ hentry, hfound⟩

end

mutual

/-- Each file is found once. -/
theorem nodup_files : (node : Node) → node.WellNamed → (node.files.map Prod.fst).Nodup
  | file _ _, _ => List.nodup_singleton _
  | link _, _ => List.nodup_nil
  | dir entries, h => nodup_filesOf entries h.2 h.1

theorem nodup_filesOf : (entries : List (String × Node)) → AllWellNamed entries →
    (entries.map Prod.fst).Nodup → ((filesOf entries).map Prod.fst).Nodup
  | [], _, _ => List.nodup_nil
  | (name, node) :: entries, h, hdistinct => by
    obtain ⟨-, hnode, hentries⟩ := h
    obtain ⟨hfresh, hrest⟩ := List.nodup_cons.mp hdistinct
    have hfirst : ((node.files.map fun (path, size) => (name :: path, size)).map
        Prod.fst) = (node.files.map Prod.fst).map (name :: ·) := by simp
    rw [filesOf, List.map_append, hfirst]
    apply List.nodup_append.mpr
    refine ⟨?_, nodup_filesOf entries hentries hrest, ?_⟩
    · exact (nodup_files node hnode).map fun _ _ heq => (List.cons.inj heq).2
    · -- What is found below one entry begins with another name than what is found below the others.
      intro names hnames others hothers heq
      obtain ⟨path, -, rfl⟩ := List.mem_map.mp hnames
      obtain ⟨⟨_, size⟩, hother, rfl⟩ := List.mem_map.mp hothers
      obtain ⟨next, child, rest, hcons, hentry, -⟩ :=
        foundAt_of_mem_filesOf entries hentries _ size hother
      obtain ⟨rfl, -⟩ := List.cons.inj (heq.trans hcons)
      exact hfresh (List.mem_map.mpr ⟨_, hentry, rfl⟩)

end

/-- What is found below a directory is not the directory. -/
theorem ne_nil_of_mem_filesOf {entries : List (String × Node)} (h : AllWellNamed entries)
    {names : List String} {size : Nat} (hmem : (names, size) ∈ (dir entries).files) :
    names ≠ [] := by
  obtain ⟨name, _, rest, rfl, -⟩ := foundAt_of_mem_filesOf entries h names size hmem
  exact List.cons_ne_nil name rest

end Node

/-! ## The way to a file -/

namespace Route

variable {root : Node} {at_ names more : List String} {links : Nat} {node : Node}

/-- A path goes on behind a place that it leads to. -/
theorem Leads.append {place : List String} {target : Place}
    (h : Leads root links at_ names (.found place node))
    (hmore : ∀ links, Leads root links place more target) :
    Leads root links at_ (names ++ more) target := by
  generalize hfound : Place.found place node = middle at h
  induction h with
  | arrive =>
    obtain ⟨rfl, rfl⟩ := Place.found.inj hfound
    exact hmore _
  | stay hdir _ ih => exact .stay hdir (ih hfound)
  | up hdir _ ih => exact .up hdir (ih hfound)
  | enter hdir hname hnode hlink _ ih => exact .enter hdir hname hnode hlink (ih hfound)
  | follow hdir hname hlink htarget _ ih =>
    have hrest := ih hfound
    rw [List.append_assoc] at hrest
    exact .follow hdir hname hlink htarget hrest
  | free => cases hfound

/-- A dot at the end of a path may be left out. -/
theorem Leads.of_concat_dot {place : List String}
    (h : Leads root links at_ (names ++ ["."]) (.found place node)) :
    Leads root links at_ names (.found place node) := by
  generalize hfound : Place.found place node = target at h ⊢
  generalize hall : names ++ ["."] = all at h
  induction h generalizing names with
  | arrive => simp at hall
  | @stay links at_ rest entries place hdir hrest ih =>
    cases names with
    | nil =>
      obtain rfl : rest = [] := by simpa using hall.symm
      exact hrest
    | cons name names =>
      obtain ⟨rfl, htail⟩ := List.cons.inj hall
      exact .stay hdir (ih hfound htail)
  | up hdir _ ih =>
    cases names with
    | nil => simp at hall
    | cons name names =>
      obtain ⟨rfl, htail⟩ := List.cons.inj hall
      exact .up hdir (ih hfound htail)
  | enter hdir hname hnode hlink _ ih =>
    cases names with
    | nil => exact absurd (List.cons.inj hall).1.symm hname.1
    | cons name names =>
      obtain ⟨rfl, htail⟩ := List.cons.inj hall
      exact .enter hdir hname hnode hlink (ih hfound htail)
  | follow hdir hname hlink htarget _ ih =>
    cases names with
    | nil => exact absurd (List.cons.inj hall).1.symm hname.1
    | cons name names =>
      obtain ⟨rfl, htail⟩ := List.cons.inj hall
      refine .follow hdir hname hlink htarget (ih hfound ?_)
      rw [← htail, List.append_assoc]
      rfl
  | free => cases hfound

/-- The names on the way to a file lead to it, from the node that it stands below. -/
theorem leads_of_get? (links : Nat) {content : ByteArray} {mode : Nat}
    (hnode : root.get? at_ = some node) (hfile : node.get? names = some (.file content mode))
    (hnames : ∀ name ∈ names, IsFileName name) :
    Leads root links at_ names (.found (at_ ++ names) (.file content mode)) := by
  induction names generalizing at_ node with
  | nil =>
    obtain rfl : node = .file content mode := by simpa [Node.get?] using hfile
    rw [List.append_nil]
    exact .arrive hnode
  | cons name names ih =>
    obtain ⟨hname, hrest⟩ := List.forall_mem_cons.mp hnames
    cases node with
    | file | link => cases hfile
    | dir entries =>
      rw [Node.get?] at hfile
      cases hchild : entries.lookup name with
      | none => simp [hchild] at hfile
      | some child =>
        rw [hchild, Option.bind_some] at hfile
        have hbelow : root.get? (at_ ++ [name]) = some child := by
          rw [Node.get?_concat hnode, hchild]
        -- Nothing stands below a link, so none is on the way.
        have hlink : ∀ target, child ≠ .link target := by
          rintro target rfl
          cases names <;> cases hfile
        have htail := ih hbelow hfile hrest
        rw [List.append_assoc] at htail
        exact .enter hnode hname.entry hbelow hlink htail

/-- The names of a path that ends in a slash are those before it, and a dot. -/
theorem names_concat_slash (base : String) :
    Route.names (base ++ "/") = (Text.pieces '/' base).filter (· != "") ++ ["."] := by
  have hpieces : Text.pieces '/' (base ++ "/") = Text.pieces '/' base ++ [""] := by
    simpa [Text.pieces, Text.splitAt] using Text.pieces_append base ""
  have hlast : ((base ++ "/").toList.getLast? == some '/') = true := by simp
  rw [Route.names, if_pos hlast, hpieces]
  simp

theorem getLast?_intercalate (hne : names ≠ []) (h : ∀ name ∈ names, IsFileName name) :
    ("/".intercalate names).toList.getLast? ≠ some '/' := by
  induction names with
  | nil => exact absurd rfl hne
  | cons name rest ih =>
    obtain ⟨hname, hrest⟩ := List.forall_mem_cons.mp h
    cases rest with
    | nil =>
      intro hlast
      exact hname.noSlash (by simpa using List.mem_of_getLast? hlast)
    | cons next rest =>
      have hsome := intercalate_ne_nil (List.cons_ne_nil next rest) hrest
      rw [String.intercalate_cons_cons, String.toList_append,
        List.getLast?_append_of_ne_nil _ hsome]
      exact ih (List.cons_ne_nil next rest) hrest

/-- The names of a path behind a slash are those of both sides. -/
theorem names_below (base : String) (hne : names ≠ []) (h : ∀ name ∈ names, IsFileName name) :
    Route.names (base ++ "/" ++ "/".intercalate names) =
      (Text.pieces '/' base).filter (· != "") ++ names := by
  have hlast : ¬ (((base ++ "/" ++ "/".intercalate names).toList.getLast? == some '/') = true) := by
    rw [String.toList_append, List.getLast?_append_of_ne_nil _ (intercalate_ne_nil hne h)]
    simpa using getLast?_intercalate hne h
  rw [Route.names, if_neg hlast, Text.pieces_append, List.filter_append, names_intercalate hne h]

/-- A relative path is put behind a slash, be it one that is there or one that is added. -/
theorem join_eq {directory relative : String} (hempty : directory.isEmpty = false)
    (hrelative : isAbsolute relative = false) : ∃ base,
      join directory relative = base ++ "/" ++ relative ∧
        (directory = base ++ "/" ∨
          directory = base ∧ (directory.toList.getLast? == some '/') = false) := by
  have hjoin : join directory relative = if directory.toList.getLast? == some '/' then
      directory ++ relative else directory ++ "/" ++ relative := by
    simp [join, hrelative, hempty]
  by_cases hslash : (directory.toList.getLast? == some '/') = true
  · obtain ⟨cs, hcs⟩ := List.getLast?_eq_some_iff.mp (beq_iff_eq.mp hslash)
    have hbase : directory = String.ofList cs ++ "/" := String.toList_inj.mp (by simp [hcs])
    refine ⟨String.ofList cs, ?_, .inl hbase⟩
    rw [hjoin, if_pos hslash, ← hbase]
  · refine ⟨directory, ?_, .inr ⟨rfl, Bool.eq_false_iff.mpr hslash⟩⟩
    rw [hjoin, if_neg hslash]

end Route

namespace FileTree

variable {tree : FileTree} {directory : String} {place names : List String} {node : Node}
variable {content : ByteArray} {mode : Nat}

/-- What a path leads to, by the names of the path. -/
theorem leads_of_locate (h : tree.locate directory = .ok (.found place node)) :
    directory.isEmpty = false ∧ '\x00' ∉ directory.toList ∧
      Route.Leads tree.root Route.maxLinks
        (if Route.isAbsolute directory then [] else tree.cwd) (Route.names directory)
        (.found place node) := by
  obtain ⟨hfault, hleads⟩ := locate_eq_ok_iff.mp h
  obtain ⟨hempty, hzero, -⟩ := Route.fault?_eq_none_iff.mp hfault
  exact ⟨hempty, hzero, hleads⟩

/-- A path that goes on behind one that leads somewhere begins where that one does. -/
theorem locate_append {behind : String} {target : Place}
    (h : tree.locate directory = .ok (.found place node)) (hclean : '\x00' ∉ behind.toList)
    (hshort : (directory ++ behind).utf8ByteSize < Route.maxPath)
    (hleads : Route.Leads tree.root Route.maxLinks
      (if Route.isAbsolute directory then [] else tree.cwd) (Route.names (directory ++ behind))
      target) : tree.locate (directory ++ behind) = .ok target := by
  obtain ⟨hempty, hzero, -⟩ := leads_of_locate h
  have hsome : directory.toList ≠ [] := by
    intro hnil
    rw [String.toList_inj.mp (hnil.trans String.toList_empty.symm)] at hempty
    cases hempty
  have habsolute : Route.isAbsolute (directory ++ behind) = Route.isAbsolute directory := by
    rw [Route.isAbsolute, String.toList_append, List.head?_append_of_ne_nil _ hsome]
    rfl
  have hnotEmpty : (directory ++ behind).isEmpty = false := by
    refine Bool.eq_false_iff.mpr fun hisEmpty => ?_
    have hall := congrArg String.toList (String.isEmpty_iff.mp hisEmpty)
    rw [String.toList_append] at hall
    exact hsome (List.append_eq_nil_iff.mp hall).1
  have hfault : Route.fault? (directory ++ behind) = none :=
    Route.fault?_eq_none_iff.mpr ⟨hnotEmpty, by simp [hzero, hclean], hshort⟩
  exact locate_eq_ok_iff.mpr ⟨hfault, habsolute ▸ hleads⟩

/-- The names below a directory, behind the path of the directory, lead to the file. -/
theorem locate_join (h : tree.locate directory = .ok (.found place node))
    (hfile : node.get? names = some (.file content mode)) (hne : names ≠ [])
    (hnames : ∀ name ∈ names, IsFileName name)
    (hshort : (Route.join directory ("/".intercalate names)).utf8ByteSize < Route.maxPath) :
    tree.locate (Route.join directory ("/".intercalate names)) =
      .ok (.found (place ++ names) (.file content mode)) := by
  obtain ⟨hempty, hzero, hleads⟩ := leads_of_locate h
  have hrelative : Route.isAbsolute ("/".intercalate names) = false := by
    obtain ⟨c, hfirst, hslash⟩ := exists_head?_intercalate hne hnames
    rw [Route.isAbsolute, hfirst]
    simpa using hslash
  have hnone := zero_notMem_intercalate hnames
  have hbelow := fun base => Route.names_below base hne hnames
  generalize "/".intercalate names = relative at *
  obtain ⟨base, hjoin, hbase⟩ := Route.join_eq hempty hrelative
  -- The path is that of the directory with something behind it.
  have hbehind : ∃ behind, Route.join directory relative = directory ++ behind ∧
      '\x00' ∉ behind.toList := by
    rcases hbase with rfl | ⟨rfl, -⟩
    · exact ⟨relative, hjoin, hnone⟩
    · exact ⟨"/" ++ relative, by rw [hjoin, String.append_assoc], by simpa using hnone⟩
  -- It leads to the directory up to there, and on from it.
  have hdirectory : Route.Leads tree.root Route.maxLinks
      (if Route.isAbsolute directory then [] else tree.cwd)
      ((Text.pieces '/' base).filter (· != "")) (.found place node) := by
    rcases hbase with rfl | ⟨rfl, hlast⟩
    · rw [Route.names_concat_slash] at hleads
      exact hleads.of_concat_dot
    · rwa [Route.names, if_neg (Bool.eq_false_iff.mp hlast)] at hleads
  have hpath := hdirectory.append fun links =>
    Route.leads_of_get? links hleads.get?_eq hfile hnames
  rw [← hbelow base, ← hjoin] at hpath
  obtain ⟨behind, hstart, hclean⟩ := hbehind
  rw [hstart] at hpath hshort ⊢
  exact locate_append h hclean hshort hpath

end FileTree

/-! ## What a scan finds -/

section Scan

variable {tree : FileTree} {directory : String} {dest : StorePath} {files : List UploadFile}

/-- A scan of a directory finds the files below it. -/
theorem scan_of_find {entries : List (String × Node)}
    (h : tree.find directory = .ok (.dir entries)) : scan tree directory dest =
      .ok (Scan.sort ((Node.files (.dir entries)).map fun found =>
        Scan.upload directory dest found.1 found.2)) := by
  rw [scan, h]

/-- What a scan finds are the files below the directory that its path leads to. -/
theorem exists_of_scan (h : scan tree directory dest = .ok files) : ∃ place entries,
    tree.locate directory = .ok (.found place (.dir entries)) ∧
      files.Perm ((Node.files (.dir entries)).map fun (names, size) =>
        Scan.upload directory dest names size) := by
  unfold scan FileTree.find at h
  cases hlocate : tree.locate directory with
  | error e => simp [hlocate] at h
  | ok found =>
    cases found with
    | free => simp [hlocate] at h
    | found place node =>
      cases node with
      | file | link => simp [hlocate] at h
      | dir entries =>
        obtain rfl : _ = files := by simpa [hlocate] using h
        exact ⟨place, entries, rfl, List.mergeSort_perm _ _⟩

/-- A file that was found is read from the path that it was found at. -/
theorem scan_readable (htree : tree.root.WellNamed) (h : scan tree directory dest = .ok files)
    {file : UploadFile} (hmem : file ∈ files)
    (hshort : file.source.utf8ByteSize < Route.maxPath) :
    ∃ content, tree.readBytes file.source = .ok content ∧ content.size = file.size := by
  obtain ⟨place, entries, hlocate, hperm⟩ := exists_of_scan h
  obtain ⟨⟨names, size⟩, hfile, rfl⟩ := List.mem_map.mp (hperm.mem_iff.mp hmem)
  have hentries := htree.get? (FileTree.get?_of_locate hlocate)
  obtain ⟨hnames, content, mode, hget, hsize⟩ :=
    Node.foundAt_of_mem_files _ hentries names size hfile
  have hne := Node.ne_nil_of_mem_filesOf hentries.2 hfile
  have hjoin := FileTree.locate_join hlocate hget hne hnames hshort
  refine ⟨content, ?_, hsize⟩
  simp [Scan.upload, FileTree.readBytes, FileTree.find, hjoin]

/-- The key of a file is the folder of the destination with the names of the file behind it. -/
theorem key_upload {names : List String} (hne : names ≠ [])
    (hnames : ∀ name ∈ names, IsFileName name) (size : Nat) :
    (Scan.upload directory dest names size).key = dest.folder ++ "/".intercalate names := by
  obtain ⟨c, hfirst, hslash⟩ := exists_head?_intercalate hne hnames
  have hrelative : ("/".intercalate names).toList.head? ≠ some '/' := by
    rw [hfirst]
    exact fun h => hslash (Option.some.inj h)
  rw [Scan.upload, StorePath.child_of_relative dest hrelative]

variable (directory dest) in
/-- Each file below a directory has a key of its own. -/
theorem uploads_keys_nodup {entries : List (String × Node)}
    (hentries : (Node.dir entries).WellNamed) :
    (((Node.dir entries).files.map fun (names, size) =>
      Scan.upload directory dest names size).map UploadFile.key).Nodup := by
  rw [List.map_map]
  apply List.Nodup.map_on _ (List.Nodup.of_map Prod.fst (Node.nodup_files _ hentries))
  rintro ⟨names, size⟩ hfile ⟨others, size'⟩ hother heq
  have hfound := Node.foundAt_of_mem_files _ hentries _ _ hfile
  have hfound' := Node.foundAt_of_mem_files _ hentries _ _ hother
  have hne := Node.ne_nil_of_mem_filesOf hentries.2 hfile
  have hne' := Node.ne_nil_of_mem_filesOf hentries.2 hother
  simp only [Function.comp_apply] at heq
  rw [key_upload hne hfound.1, key_upload hne' hfound'.1, String.append_right_inj] at heq
  obtain rfl := intercalate_inj hne hne' hfound.1 hfound'.1 heq
  -- What stands at a place has one size.
  obtain ⟨content, mode, hget, rfl⟩ := hfound.2
  obtain ⟨content', mode', hget', rfl⟩ := hfound'.2
  obtain ⟨rfl, -⟩ : content = content' ∧ mode = mode' := by simpa using hget.symm.trans hget'
  rfl

/-- Each file that was found has a key of its own. -/
theorem scan_keys_nodup (htree : tree.root.WellNamed) (h : scan tree directory dest = .ok files) :
    (files.map UploadFile.key).Nodup := by
  obtain ⟨place, entries, hlocate, hperm⟩ := exists_of_scan h
  have hnamed := htree.get? (FileTree.get?_of_locate hlocate)
  rw [(hperm.map UploadFile.key).nodup_iff]
  exact uploads_keys_nodup directory dest hnamed

end Scan

end BucketCare

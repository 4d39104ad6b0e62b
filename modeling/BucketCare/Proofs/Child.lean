import BucketCare.Path
import Mathlib.Data.List.Infix
import Mathlib.Data.List.TakeWhile

/-!
# Places below a place

A key is put below another behind a slash, unless the upper one is empty or ends in a slash. What
has to stand between the two is the joint of the upper key, and both the folder of a place and the
place below a place are a key, its joint and what follows. The slashes that a relative key begins
with never change its joint: if there is nothing else in it, both it and what is left of it take
none.

## Main definitions

* `StorePath.joint` — what has to stand between a key and one below it

## Main results

* `StorePath.child_of_relative` — a relative key without a slash at its start is kept as it is
* `StorePath.joint_child` — a place below a place has the joint of the relative key
* `StorePath.child_laws` — going down twice is going down once, and what goes down stays below
-/

namespace BucketCare

namespace StorePath

/-- What has to stand between a key and one below it. -/
def joint (key : String) : String :=
  if key = "" ∨ key.toList.getLast? = some '/' then "" else "/"

variable {path : StorePath} {a b : String}

@[simp] theorem joint_empty : joint "" = "" := rfl

theorem joint_of_getLast? (h : a.toList.getLast? = some '/') : joint a = "" := if_pos (.inr h)

/-- The joint depends on nothing but the last character. -/
theorem joint_congr (h : a.toList.getLast? = b.toList.getLast?) : joint a = joint b := by
  have hempty (key : String) : key = "" ↔ key.toList.getLast? = none := by
    rw [List.getLast?_eq_none_iff, String.toList_eq_nil_iff]
  simp only [joint, hempty, h]

/-- A relative key that is all slashes takes no joint. -/
theorem joint_of_slashes (h : a.toList.dropWhile (· == '/') = []) : joint a = "" := by
  cases hlast : a.toList.getLast? with
  | none =>
    have hempty : a = "" := String.toList_eq_nil_iff.mp (List.getLast?_eq_none_iff.mp hlast)
    rw [hempty, joint_empty]
  | some c =>
    have hslash := List.dropWhile_eq_nil_iff.mp h c (List.mem_of_getLast? hlast)
    rw [beq_iff_eq.mp hslash] at hlast
    exact joint_of_getLast? hlast

/-! ## The folder of a place -/

theorem folder_eq (path : StorePath) : path.folder = path.key ++ joint path.key := by
  have hclosed : (path.isRoot || isDirectoryMarker path.key) = true ↔
      path.key = "" ∨ path.key.toList.getLast? = some '/' := by
    simp [isRoot, isDirectoryMarker]
  unfold folder joint
  simp only [hclosed]
  split
  · rw [String.append_empty]
  · rfl

theorem isRoot_iff : path.isRoot = true ↔ path.key = "" := String.isEmpty_iff

theorem folder_eq_empty_iff : path.folder = "" ↔ path.key = "" := by
  constructor
  · intro h
    rw [folder_eq, String.append_eq_empty_iff] at h
    exact h.1
  · intro h
    rw [folder_eq, h]
    rfl

/-- Every other folder ends in a slash. -/
theorem getLast?_folder (h : path.key ≠ "") : path.folder.toList.getLast? = some '/' := by
  rw [folder_eq, joint]
  split
  next hclosed => simpa using hclosed.resolve_left h
  next => simp

@[simp] theorem joint_folder (path : StorePath) : joint path.folder = "" := by
  by_cases hroot : path.key = ""
  · rw [folder_eq_empty_iff.mpr hroot]
    rfl
  · exact joint_of_getLast? (getLast?_folder hroot)

/-- A folder is the folder of its own place. -/
theorem folder_of_folder (bucket : String) (path : StorePath) :
    folder ⟨bucket, path.folder⟩ = path.folder := by
  rw [folder_eq, joint_folder, String.append_empty]

/-! ## Going down -/

theorem dropWhile_of_relative (h : a.toList.head? ≠ some '/') :
    a.toList.dropWhile (· == '/') = a.toList := by
  cases hlist : a.toList with
  | nil => rfl
  | cons c rest => exact List.dropWhile_cons_of_neg (by simpa [hlist] using h)

/-- A relative key without a slash at its start is kept as it is. -/
theorem child_of_relative (path : StorePath) (h : a.toList.head? ≠ some '/') :
    path.child a = ⟨path.bucket, path.folder ++ a⟩ := by
  rw [child, dropWhile_of_relative h, String.ofList_toList]

/-- A place below another is in its folder. -/
theorem folder_prefix_child (path : StorePath) (a : String) :
    path.folder.toList <+: (path.child a).key.toList := by
  rw [child, String.toList_append]
  exact List.prefix_append _ _

/-- Different relative keys lead to different places, if they do not begin with a slash. -/
theorem child_injective (ha : a.toList.head? ≠ some '/') (hb : b.toList.head? ≠ some '/')
    (h : path.child a = path.child b) : a = b := by
  rw [child_of_relative path ha, child_of_relative path hb] at h
  exact (String.append_right_inj _).mp (congrArg StorePath.key h)

/-- A place below another has the joint of the relative key. -/
theorem joint_child (path : StorePath) (a : String) : joint (path.child a).key = joint a := by
  cases hrest : a.toList.dropWhile (· == '/') with
  | nil => rw [child, hrest, joint_of_slashes hrest, String.ofList_nil, String.append_empty,
      joint_folder]
  | cons c rest =>
    -- The slashes that are left out do not reach the last character.
    have hsplit := List.takeWhile_append_dropWhile (p := (· == '/')) (l := a.toList)
    rw [hrest] at hsplit
    apply joint_congr
    rw [child, hrest, ← hsplit, String.toList_append, String.toList_ofList,
      List.getLast?_append_of_ne_nil _ (List.cons_ne_nil c rest),
      List.getLast?_append_of_ne_nil _ (List.cons_ne_nil c rest)]

/-- The slashes that are left out of a relative key do not reach what is put below it. -/
theorem dropWhile_below (hb : b.toList.head? ≠ some '/') :
    (a ++ joint a ++ b).toList.dropWhile (· == '/') =
      a.toList.dropWhile (· == '/') ++ ((joint a).toList ++ b.toList) := by
  rw [String.append_assoc, String.toList_append, List.dropWhile_append, String.toList_append]
  cases hrest : a.toList.dropWhile (· == '/') with
  | nil => simp [joint_of_slashes hrest, dropWhile_of_relative hb]
  | cons c rest => rfl

/-- Going down twice is going down once. -/
theorem child_child (path : StorePath) (a : String) (hb : b.toList.head? ≠ some '/') :
    (path.child a).child b = path.child (a ++ joint a ++ b) := by
  have hbelow : (path.child a).folder = (path.child a).key ++ joint a := by
    rw [folder_eq, joint_child]
  rw [child_of_relative _ hb, hbelow]
  simp only [child]
  rw [dropWhile_below hb, String.ofList_append, String.ofList_append, String.ofList_toList,
    String.ofList_toList, String.append_assoc, String.append_assoc]

/-- Going down twice is going down once, with a slash in between unless the first relative key is
empty or ends in one. What goes down stays in the folder and in the bucket. The folder is empty at
the root alone, ends in a slash everywhere else, and is its own folder. Relative keys without a
slash at their start are told apart. -/
theorem child_laws (path : StorePath) :
    (∀ a b, b.toList.head? ≠ some '/' → (path.child a).child b =
      path.child (a ++ (if a = "" ∨ a.toList.getLast? = some '/' then "" else "/") ++ b)) ∧
    (∀ a, path.folder.toList <+: (path.child a).key.toList ∧
      (path.child a).bucket = path.bucket) ∧
    (path.folder = "" ↔ path.isRoot = true) ∧
    (path.isRoot = false → path.folder.toList.getLast? = some '/') ∧
    (∀ bucket, folder ⟨bucket, path.folder⟩ = path.folder) ∧
    ∀ a b, a.toList.head? ≠ some '/' → b.toList.head? ≠ some '/' →
      path.child a = path.child b → a = b := by
  refine ⟨fun a _ => child_child path a, fun a => ⟨folder_prefix_child path a, rfl⟩,
    folder_eq_empty_iff.trans isRoot_iff.symm, fun h => getLast?_folder ?_,
    fun bucket => folder_of_folder bucket path, fun _ _ => child_injective⟩
  rw [ne_eq, ← isRoot_iff, h]
  exact Bool.false_ne_true

/-- Below the root, from a relative key that is all slashes and from one with slashes on both
sides; and two keys that only a slash at the start of the first would confuse. -/
theorem child_laws_of_slashes :
    (child ⟨"b", ""⟩ "//").child "x" = child ⟨"b", ""⟩ "//x" ∧
    (child ⟨"b", "dir"⟩ "/a").child "x" = child ⟨"b", "dir"⟩ "/a/x" ∧
    (child ⟨"b", "dir"⟩ "a/").child "x" = child ⟨"b", "dir"⟩ "a/x" ∧
    folder ⟨"b", "dir"⟩ = "dir/" ∧ (folder ⟨"b", "dir"⟩).toList.getLast? = some '/' ∧
    child ⟨"b", "dir"⟩ "x/" ≠ child ⟨"b", "dir"⟩ "x" ∧
    child ⟨"b", "dir"⟩ "/x" = child ⟨"b", "dir"⟩ "x" := by
  obtain ⟨hroot, -⟩ := child_laws ⟨"b", ""⟩
  obtain ⟨htwice, -, -, hends, -, hapart⟩ := child_laws ⟨"b", "dir"⟩
  refine ⟨hroot _ _ (by decide), htwice _ _ (by decide), htwice _ _ (by decide), by decide,
    hends (by decide), fun h => ?_, by decide⟩
  exact absurd (hapart _ _ (by decide) (by decide) h) (by decide)

end StorePath

end BucketCare

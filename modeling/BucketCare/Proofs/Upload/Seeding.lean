import BucketCare.Command.UploadTree
import BucketCare.Proofs.Upload.Biggest
import Mathlib.Data.List.Nodup

/-!
# A seed fixes the order of uploads

Files are sorted before any word of the source of randomness is drawn. Of two files the size and
then the key decide which comes first, so files that differ in one of them have one sorted order. A
plan is made of that order and the drawn words alone, and it does not show in which order the files
were found.

## Main results

* `Plan.sort_eq_of_perm` — sorting forgets the order that the files were found in
* `Plan.order?_of_perm` — the same files and the same words give the same plan
-/

namespace BucketCare

namespace UploadFile.Precedes

variable {a b : UploadFile}

/-- Files that come before each other have one size and one key. -/
theorem antisymm (h : a.Precedes b) (h' : b.Precedes a) : a.size = b.size ∧ a.key = b.key := by
  rcases h with hless | ⟨hsize, hkey⟩
  · rcases h' with hless' | ⟨hsize, -⟩
    · exact absurd hless' (Nat.not_lt_of_gt hless)
    · exact absurd hsize (Nat.ne_of_lt hless)
  · rcases h' with hless | ⟨-, hkey'⟩
    · exact absurd hsize (Nat.ne_of_lt hless)
    · exact ⟨hsize, String.le_antisymm hkey hkey'⟩

end UploadFile.Precedes

namespace Plan

variable {files found : List UploadFile}

/-- The size and the key of a file, which decide its place. -/
def rank (file : UploadFile) : Nat × String := (file.size, file.key)

/-- Sorting forgets the order that files were found in, when no two of them tie. -/
theorem sort_eq_of_perm (hdistinct : (files.map rank).Nodup) (hperm : found.Perm files) :
    sort found = sort files := by
  have hsorted : (sort found).Perm (sort files) :=
    ((sort_perm found).trans hperm).trans (sort_perm files).symm
  refine hsorted.eq_of_pairwise ?_ (sort_pairwise found) (sort_pairwise files)
  -- Two files that come before each other tie, so they are one file.
  intro a b ha hb hab hba
  obtain ⟨hsize, hkey⟩ := hab.antisymm hba
  have hfound : a ∈ files := hperm.mem_iff.mp ((sort_perm found).mem_iff.mp ha)
  have hfile : b ∈ files := (sort_perm files).mem_iff.mp hb
  exact List.inj_on_of_nodup_map hdistinct hfound hfile (Prod.ext hsize hkey)

/-- In whatever order files were found, the same words put them into the same order of uploads, and
so does the same seed. -/
theorem order?_of_perm (hdistinct : (files.map rank).Nodup) (hperm : found.Perm files) :
    (∀ (ρ : Type) (source : RandomSource ρ) (largest : Nat) (state : ρ),
      order? source largest found state = order? source largest files state) ∧
    ∀ (seed : UInt64) (largest : Nat),
      Command.planUploads seed largest found = Command.planUploads seed largest files := by
  have hsame (ρ : Type) (source : RandomSource ρ) (largest : Nat) (state : ρ) :
      order? source largest found state = order? source largest files state := by
    rw [order?, order?, sort_eq_of_perm hdistinct hperm]
  refine ⟨hsame, fun seed largest => ?_⟩
  rw [Command.planUploads, Command.planUploads, hsame]

/-- Three files of one size, found in two orders. -/
theorem order?_of_perm_of_one_size :
    let files : List UploadFile := [⟨"a", "to/a", 5⟩, ⟨"b", "to/b", 5⟩, ⟨"c", "to/c", 5⟩]
    let found : List UploadFile := [⟨"c", "to/c", 5⟩, ⟨"a", "to/a", 5⟩, ⟨"b", "to/b", 5⟩]
    (files.map rank).Nodup ∧ found.Perm files ∧
      order? linear 1 files 2 = some ([⟨"a", "to/a", 5⟩, ⟨"c", "to/c", 5⟩, ⟨"b", "to/b", 5⟩],
        (linear.next 2).2) ∧
      order? linear 1 found 2 = order? linear 1 files 2 := by
  intro files found
  have hdistinct : (files.map rank).Nodup := by decide
  have hperm : found.Perm files := by decide
  have hsort : sort files = files := List.mergeSort_of_pairwise (by decide +kernel)
  have hdraw : linear.below? 2 2 = some (0, (linear.next 2).2) := by
    rw [RandomSource.below?]
    rfl
  refine ⟨hdistinct, hperm, ?_, (order?_of_perm hdistinct hperm).1 _ linear 1 2⟩
  rw [order?, hsort]
  simp only [files, RandomSource.shuffle?, RandomSource.shuffleFrom?, List.drop, List.length, hdraw]
  rfl

end Plan

end BucketCare

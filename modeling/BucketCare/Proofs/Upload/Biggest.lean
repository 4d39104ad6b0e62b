import BucketCare.Proofs.Upload.Order
import BucketCare.Proofs.Upload.Moments

/-!
# The biggest files come first

An order of uploads has the biggest files at its front, as many as were asked for, and these in an
order of their own: the biggest first, and of two that are as big the one whose key comes first. The
draws of the source of randomness are made for the other files alone, so they change nothing at the
front, and a run that follows the order has submitted all files of the front before any other.

## Main definitions

* `UploadFile.Precedes` — the order of files by their size and their key
* `Plan.LargestFirst` — an order of uploads with the biggest files at its front

## Main results

* `Plan.sort_pairwise` — sorted files are in this order
* `Plan.order?_largestFirst` — every order of uploads has the biggest files at its front
-/

namespace BucketCare

/-- One file comes before another, or they have one size and one key: it is bigger, or as big and
its key comes no later. -/
def UploadFile.Precedes (a b : UploadFile) : Prop :=
  b.size < a.size ∨ a.size = b.size ∧ a.key ≤ b.key

namespace UploadFile.Precedes

variable {a b c : UploadFile}

theorem trans (h : a.Precedes b) (h' : b.Precedes c) : a.Precedes c := by
  rcases h with hless | ⟨hsize, hkey⟩
  · rcases h' with hless' | ⟨hsize', -⟩
    · exact .inl (Nat.lt_trans hless' hless)
    · exact .inl (hsize' ▸ hless)
  · rcases h' with hless' | ⟨hsize', hkey'⟩
    · exact .inl (hsize ▸ hless')
    · exact .inr ⟨hsize.trans hsize', String.le_trans hkey hkey'⟩

theorem total (a b : UploadFile) : a.Precedes b ∨ b.Precedes a := by
  rcases Nat.lt_trichotomy a.size b.size with hless | hsize | hless
  · exact .inr (.inl hless)
  · exact (String.le_total a.key b.key).imp (fun hkey => .inr ⟨hsize, hkey⟩)
      (fun hkey => .inr ⟨hsize.symm, hkey⟩)
  · exact .inl (.inl hless)

end UploadFile.Precedes

namespace Plan

theorem compare_isLE_iff {a b : UploadFile} : (compare a b).isLE = true ↔ a.Precedes b := by
  have hsize : compareOfLessAndEq b.size a.size = .eq ↔ a.size = b.size := by
    rw [compareOfLessAndEq_eq_eq Nat.le_refl Nat.not_le, eq_comm]
  have hkey : (compareOfLessAndEq a.key b.key).isLE = true ↔ a.key ≤ b.key :=
    isLE_compareOfLessAndEq String.le_antisymm String.not_le String.le_total
  rw [compare, Ordering.isLE_then_iff_or, compareOfLessAndEq_eq_lt, hsize, hkey]
  rfl

/-- Sorted files are in order. -/
theorem sort_pairwise (files : List UploadFile) : (sort files).Pairwise UploadFile.Precedes := by
  refine (List.pairwise_mergeSort ?_ ?_ files).imp compare_isLE_iff.mp
  · intro a b c
    rw [compare_isLE_iff, compare_isLE_iff, compare_isLE_iff]
    exact UploadFile.Precedes.trans
  · intro a b
    rw [Bool.or_eq_true, compare_isLE_iff, compare_isLE_iff]
    exact UploadFile.Precedes.total a b

/-- An order of uploads with the biggest files at its front. -/
structure LargestFirst (largest : Nat) (files plan : List UploadFile) : Prop where
  /-- Each file stands in it as often as it was found. -/
  perm : plan.Perm files
  /-- The front is the same with any source of randomness. -/
  same_front : ∀ (ρ : Type) (other : RandomSource ρ) (state state' : ρ) (plan' : List UploadFile),
    order? other largest files state = some (plan', state') →
      plan'.take (min largest files.length) = plan.take (min largest files.length)
  /-- The front is in order. -/
  front_sorted : (plan.take (min largest files.length)).Pairwise UploadFile.Precedes
  /-- No file of the front comes after one of the rest. -/
  front_precedes : ∀ file ∈ plan.take (min largest files.length),
    ∀ other ∈ plan.drop (min largest files.length), file.Precedes other
  /-- When a run submits a file of the rest it has submitted the whole front. -/
  submitted_first : ∀ (σ : Type) (start : UploadFile → StateM σ Transfer) (options : PoolOptions)
    (interrupt : Option Nat) (state : σ) (before after : List Moment) (time place : Nat)
    (key : String), ((runUploads start options interrupt plan).run state).1.moments =
        before ++ .submitted time place key :: after → min largest files.length ≤ place →
      ∀ i file, (plan.take (min largest files.length))[i]? = some file →
        (i, file.key) ∈ submissions before

variable {ρ : Type} {source : RandomSource ρ} {largest : Nat} {files plan : List UploadFile}
variable {state state' : ρ}

/-- The front of an order of uploads is that of the sorted files. -/
theorem front_of_order? (h : order? source largest files state = some (plan, state')) :
    plan.take (min largest files.length) = (sort files).take largest ∧
      (plan.drop (min largest files.length)).Perm ((sort files).drop largest) := by
  obtain ⟨rest, hperm, rfl⟩ := exists_of_order? h
  -- As many files are sorted as were found, so both ways to tell the front agree.
  have hlength : min largest files.length = ((sort files).take largest).length := by
    rw [List.length_take, (sort_perm files).length_eq]
  rw [hlength, List.take_left, List.drop_left]
  exact ⟨rfl, hperm⟩

end Plan

namespace Pool

variable {uploads : List (UploadFile × Transfer)} {options : PoolOptions} {interrupt : Option Nat}

/-- Before an upload is submitted those at the places before it were. -/
theorem Reaches.submissions_before {final : Standing} {before after : List Moment}
    {time place : Nat} {key : String}
    (h : Reaches uploads options interrupt (.start uploads) final)
    (hsplit : final.ledger.moments = before ++ .submitted time place key :: after) :
    submissions before = (numbered uploads).take place := by
  obtain ⟨st, st', hreach, hstep, rfl, hafter⟩ := exists_step h hsplit
  cases hstep with
  | @submit _ ledger =>
    obtain ⟨-, rfl, -⟩ : _ ∧ ledger.report.submitted = place ∧ _ := by simpa using hafter
    exact (Reaches.submissions_eq hreach).2
  | complete | lose | interrupt => simp at hafter

end Pool

theorem getElem?_numbered_roster {σ : Type} (start : UploadFile → StateM σ Transfer)
    {plan : List UploadFile} (state : σ) {place : Nat} {file : UploadFile}
    (h : plan[place]? = some file) :
    (numbered (roster start plan state))[place]? = some (place, file.key) := by
  rw [← map_fst_roster start plan state, List.getElem?_map] at h
  obtain ⟨⟨other, transfer⟩, hroster, rfl⟩ := Option.map_eq_some_iff.mp h
  exact getElem?_numbered hroster

/-- Every order of uploads has the biggest files at its front. -/
theorem Plan.order?_largestFirst {ρ : Type} (source : RandomSource ρ) (largest : Nat)
    (files plan : List UploadFile) (state state' : ρ)
    (h : order? source largest files state = some (plan, state')) :
    LargestFirst largest files plan := by
  obtain ⟨hfront, hrest⟩ := front_of_order? h
  constructor
  case perm => exact order?_perm h
  case same_front =>
    intro ρ' other start final plan' h'
    rw [hfront, (front_of_order? h').1]
  case front_sorted =>
    rw [hfront]
    exact (sort_pairwise files).sublist (List.take_sublist _ _)
  case front_precedes =>
    intro file hfile other hother
    rw [hfront] at hfile
    have hsorted := sort_pairwise files
    rw [← List.take_append_drop largest (sort files)] at hsorted
    exact (List.pairwise_append.mp hsorted).2.2 file hfile other (hrest.mem_iff.mp hother)
  case submitted_first =>
    intro σ start options interrupt begun before after time place key hsplit hplace i file hfile
    obtain ⟨final, hreach, hmoments⟩ := exists_reaches_moments start options interrupt plan begun
    -- What was submitted before are the places up to this one, and the front is below it.
    rw [hreach.submissions_before (hmoments ▸ hsplit)]
    obtain ⟨hi, hplan⟩ : i < min largest files.length ∧ plan[i]? = some file := by
      simpa [List.getElem?_take] using hfile
    apply List.mem_of_getElem? (i := i)
    rw [List.getElem?_take_of_lt (by omega)]
    exact getElem?_numbered_roster start begun hplan

/-- Two of four files are to come first, of which two have one size. -/
theorem Plan.order?_largestFirst_of_tie :
    let files : List UploadFile := [⟨"b", "to/b", 9⟩, ⟨"a", "to/a", 5⟩, ⟨"d", "to/d", 5⟩,
      ⟨"c", "to/c", 1⟩]
    let plan : List UploadFile := [⟨"b", "to/b", 9⟩, ⟨"a", "to/a", 5⟩, ⟨"c", "to/c", 1⟩,
      ⟨"d", "to/d", 5⟩]
    order? linear 2 files 2 = some (plan, (linear.next 2).2) ∧ LargestFirst 2 files plan := by
  intro files plan
  have hsort : sort files = files := List.mergeSort_of_pairwise (by decide +kernel)
  have hdraw : linear.below? 2 2 = some (0, (linear.next 2).2) := by
    rw [RandomSource.below?]
    rfl
  have horder : order? linear 2 files 2 = some (plan, (linear.next 2).2) := by
    rw [order?, hsort]
    simp only [files, RandomSource.shuffle?, RandomSource.shuffleFrom?, List.drop, List.length,
      hdraw]
    rfl
  exact ⟨horder, order?_largestFirst linear 2 files plan 2 _ horder⟩

end BucketCare

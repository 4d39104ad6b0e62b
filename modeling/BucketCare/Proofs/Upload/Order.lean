import BucketCare.Upload.Plan

/-!
# An order of uploads leaves no file out

The order of uploads is one of the files: however many of the biggest come first, and whatever words
the source of randomness gives for the rest, each file stands in it as often as it was found.

## Main definitions

* `IsPlan` — an order that some files may be uploaded in

## Main results

* `RandomSource.shuffle?_perm` — a list in random order has the entries of the list
* `Plan.exists_of_order?` — what an order of uploads is made of
* `IsPlan.perm` — a plan has the files that it was made of
-/

namespace BucketCare

namespace RandomSource

variable {ρ α : Type} {source : RandomSource ρ}

theorem swapIfInBounds_perm (items : Array α) (i j : Nat) :
    (items.swapIfInBounds i j).Perm items := by
  unfold Array.swapIfInBounds
  split
  · split
    · exact Array.swap_perm ..
    · exact .refl _
  · exact .refl _

theorem shuffleFrom?_perm {i : Nat} {items shuffled : Array α} {state state' : ρ}
    (h : source.shuffleFrom? i items state = some (shuffled, state')) : shuffled.Perm items := by
  induction i generalizing items state with
  | zero =>
    obtain ⟨rfl, rfl⟩ : items = shuffled ∧ state = state' := by simpa [shuffleFrom?] using h
    exact .refl _
  | succ i ih =>
    rw [shuffleFrom?] at h
    obtain ⟨⟨j, drawn⟩, -, hrest⟩ := Option.bind_eq_some_iff.mp h
    exact (ih hrest).trans (swapIfInBounds_perm items (i + 1) j)

/-- A list in random order has the entries of the list. -/
theorem shuffle?_perm {items shuffled : List α} {state state' : ρ}
    (h : source.shuffle? items state = some (shuffled, state')) : shuffled.Perm items := by
  obtain ⟨⟨all, final⟩, hall, heq⟩ := Option.map_eq_some_iff.mp h
  obtain ⟨rfl, rfl⟩ := Prod.mk.inj heq
  exact (shuffleFrom?_perm hall).toList

end RandomSource

namespace Plan

variable {ρ : Type} {source : RandomSource ρ} {largest : Nat} {files plan : List UploadFile}
variable {state state' : ρ}

theorem sort_perm (files : List UploadFile) : (sort files).Perm files := List.mergeSort_perm _ _

/-- An order of uploads is made of the first of the sorted files, and the others in some order. -/
theorem exists_of_order? (h : order? source largest files state = some (plan, state')) :
    ∃ rest, rest.Perm ((sort files).drop largest) ∧ plan = (sort files).take largest ++ rest := by
  obtain ⟨⟨rest, final⟩, hrest, heq⟩ := Option.map_eq_some_iff.mp h
  obtain ⟨rfl, -⟩ := Prod.mk.inj heq
  exact ⟨rest, RandomSource.shuffle?_perm hrest, rfl⟩

/-- An order of uploads has the files that it was made of. -/
theorem order?_perm (h : order? source largest files state = some (plan, state')) :
    plan.Perm files := by
  obtain ⟨rest, hrest, rfl⟩ := exists_of_order? h
  calc ((sort files).take largest ++ rest).Perm
        ((sort files).take largest ++ (sort files).drop largest) := hrest.append_left _
    List.Perm _ (sort files) := .of_eq (List.take_append_drop _ _)
    List.Perm _ files := sort_perm files

end Plan

/-- Some files may be uploaded in this order, with some source of randomness and some number of the
biggest files at the front. -/
def IsPlan (files plan : List UploadFile) : Prop :=
  ∃ (ρ : Type) (source : RandomSource ρ) (largest : Nat) (state state' : ρ),
    Plan.order? source largest files state = some (plan, state')

/-- A plan has the files that it was made of. -/
theorem IsPlan.perm {files plan : List UploadFile} (h : IsPlan files plan) : plan.Perm files := by
  obtain ⟨ρ, source, largest, state, state', h⟩ := h
  exact Plan.order?_perm h

end BucketCare

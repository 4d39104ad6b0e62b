import BucketCare.Upload.Transfer

/-!
# How a file is cut into parts

A file is cut into parts of one length, of which only the last may be shorter. When that length is
not zero each part takes some bytes, so the parts end where the file does, there are as many of them
as it takes, and put together they are its bytes.

## Main definitions

* `IsCut` — some spans are the parts of what is left of a file

## Main results

* `partSpans_isCut` — a file is cut into its parts
* `IsCut.length_eq`, `IsCut.full` — how many parts there are, and that all but the last are full
* `IsCut.joined` — the parts put together are the bytes that were cut
-/

namespace BucketCare

/-- Some spans cut the bytes that are left from a place on: each begins where the one before it
ends, none is empty or longer than a part, and a shorter one is the last. -/
inductive IsCut (chunk : Nat) : (start left : Nat) → List (Nat × Nat) → Prop
  | nil {start : Nat} : IsCut chunk start 0 []
  | cons {start left length : Nat} {spans : List (Nat × Nat)} (hpos : 0 < length)
      (hle : length ≤ left) (hchunk : length ≤ chunk) (hlast : length < chunk → length = left)
      (hrest : IsCut chunk (start + length) (left - length) spans) :
      IsCut chunk start left ((start, length) :: spans)

/-- As many parts as there are bytes are enough, since no part is empty. -/
theorem partSpansFrom_isCut {chunk : Nat} (hchunk : 0 < chunk) (fuel start left : Nat)
    (hleft : left ≤ fuel) : IsCut chunk start left (partSpansFrom chunk fuel start left) := by
  induction fuel generalizing start left with
  | zero =>
    obtain rfl : left = 0 := Nat.le_zero.mp hleft
    exact .nil
  | succ fuel ih =>
    rw [partSpansFrom]
    by_cases hzero : left = 0
    · subst hzero
      rw [if_pos rfl]
      exact .nil
    · rw [if_neg hzero]
      apply IsCut.cons
      case hpos => omega
      case hle => omega
      case hchunk => omega
      case hlast => omega
      case hrest =>
        apply ih
        omega

/-- A file is cut into its parts. -/
theorem partSpans_isCut {chunk : Nat} (hchunk : 0 < chunk) (size : Nat) :
    IsCut chunk 0 size (partSpans chunk size) :=
  partSpansFrom_isCut hchunk size 0 size (Nat.le_refl size)

section IsCut

variable {chunk start left : Nat} {spans : List (Nat × Nat)}

/-- There are as many parts as it takes. -/
theorem IsCut.length_eq (hchunk : 0 < chunk) (h : IsCut chunk start left spans) :
    spans.length = (left + chunk - 1) / chunk := by
  induction h with
  | nil => exact (Nat.div_eq_of_lt (by omega)).symm
  | @cons start left length spans hpos hle hfit hlast _ ih =>
    rw [List.length_cons, ih]
    by_cases hfull : length < chunk
    · -- A part that is not full is the last one.
      obtain rfl := hlast hfull
      rw [Nat.sub_self, Nat.zero_add, Nat.div_eq_of_lt (by omega),
        show length + chunk - 1 = length - 1 + chunk by omega, Nat.add_div_right _ hchunk,
        Nat.div_eq_of_lt (by omega)]
    · obtain rfl : length = chunk := by omega
      rw [show left + length - 1 = left - length + length - 1 + length by omega,
        Nat.add_div_right _ hchunk]

/-- No part is empty, none is longer than a part may be, and all of them lie in what is cut. -/
theorem IsCut.bounded (h : IsCut chunk start left spans) :
    ∀ span ∈ spans, start ≤ span.1 ∧ 0 < span.2 ∧ span.2 ≤ chunk ∧
      span.1 + span.2 ≤ start + left := by
  induction h with
  | nil => exact nofun
  | cons hpos hle hfit _ _ ih =>
    refine List.forall_mem_cons.mpr ⟨⟨Nat.le_refl _, hpos, hfit, by omega⟩, ?_⟩
    intro span hmem
    obtain ⟨hbegin, hpos, hfit, hend⟩ := ih span hmem
    exact ⟨by omega, hpos, hfit, by omega⟩

/-- All parts but the last are full. -/
theorem IsCut.full (h : IsCut chunk start left spans) :
    ∀ span ∈ spans.dropLast, span.2 = chunk := by
  induction h with
  | nil => exact nofun
  | @cons start left length spans hpos hle hfit hlast hrest ih =>
    cases spans with
    | nil => exact nofun
    | cons next more =>
      refine List.forall_mem_cons.mpr ⟨?_, ih⟩
      -- Another part behind this one takes some of the bytes that this one has left.
      obtain ⟨hbegin, hmore, -, hend⟩ := hrest.bounded next List.mem_cons_self
      have hnot : ¬ length < chunk := fun hshort => by
        have hwhole := hlast hshort
        omega
      exact Nat.le_antisymm hfit (Nat.le_of_not_lt hnot)

/-- A part of bytes that do not change can be read. -/
theorem IsCut.read_eq {content : ByteArray} (h : IsCut chunk 0 content.size spans) :
    ∀ span ∈ spans, (LocalFile.ofBytes content).read span.1 span.2 =
      .ok (content.extract span.1 (span.1 + span.2)) := by
  intro span hmem
  obtain ⟨-, -, -, hend⟩ := h.bounded span hmem
  exact if_pos (by omega)

end IsCut

/-- The parts put together are the bytes that were cut. -/
theorem IsCut.joined {chunk start left : Nat} {spans : List (Nat × Nat)}
    (h : IsCut chunk start left spans) (content : ByteArray) :
    (spans.map fun span => content.extract span.1 (span.1 + span.2)).foldr (· ++ ·) .empty =
      content.extract start (start + left) := by
  induction h with
  | @nil start =>
    have hsize : (content.extract start (start + 0)).size = 0 := by simp
    exact (ByteArray.size_eq_zero_iff.mp hsize).symm
  | @cons start left length spans hpos hle _ _ _ ih =>
    have hend : start + length + (left - length) = start + left := by omega
    rw [List.map_cons, List.foldr_cons, ih, hend]
    exact (ByteArray.extract_eq_extract_append_extract (start + length) (by omega)
      (by omega)).symm

end BucketCare

import BucketCare.Text.Blank

/-!
# Texts that are cut at a mark, and padded numbers

A text without a mark is one piece, and a text on both sides of a mark is cut there. A number that
is filled up with zeros is still a row of digits, and reads as the number.

## Main results

* `splitAt_of_notMem`, `splitAt_append` — where a text is cut
* `ofDigitChars_padZero`, `length_padZero` — what a padded number reads as, and how long it is
-/

namespace BucketCare.Text

/-! ## Cuts -/

theorem splitAt_of_notMem {mark : Char} {text : List Char} (h : mark ∉ text) :
    splitAt mark text = [text] := by
  induction text with
  | nil => rfl
  | cons c rest ih =>
    obtain ⟨hc, hrest⟩ := not_or.mp (mt List.mem_cons.mpr h)
    rw [splitAt, if_neg (Ne.symm hc), ih hrest]

theorem splitAt_ne_nil (mark : Char) (text : List Char) : splitAt mark text ≠ [] := by
  induction text with
  | nil => simp [splitAt]
  | cons c rest ih =>
    rw [splitAt]
    split
    · simp
    · split <;> simp

theorem splitAt_append (mark : Char) (before after : List Char) :
    splitAt mark (before ++ mark :: after) = splitAt mark before ++ splitAt mark after := by
  induction before with
  | nil => simp [splitAt]
  | cons c before ih =>
    rw [List.cons_append, splitAt, splitAt, ih]
    by_cases hmark : c = mark
    · rw [if_pos hmark, if_pos hmark, List.cons_append]
    · rw [if_neg hmark, if_neg hmark]
      -- The first piece gets one more character, be it followed by others or not.
      cases hpieces : splitAt mark before with
      | nil => exact absurd hpieces (splitAt_ne_nil mark before)
      | cons piece pieces => rfl

/-! ## Padded numbers -/

variable {width n : Nat}

theorem toList_padZero (width n : Nat) : (padZero width n).toList =
    List.replicate (width - (Nat.toDigits 10 n).length) '0' ++ Nat.toDigits 10 n := by
  simp only [padZero, Nat.toString_eq_ofList_toDigits, String.length_ofList, String.toList_append,
    String.toList_ofList]

/-- Every number has a digit of its own. -/
theorem toList_padZero_one (n : Nat) : (padZero 1 n).toList = Nat.toDigits 10 n := by
  have hdigits : 0 < (Nat.toDigits 10 n).length := Nat.length_toDigits_pos
  rw [toList_padZero, Nat.sub_eq_zero_of_le hdigits]
  rfl

theorem isDigit_of_mem_padZero {c : Char} (h : c ∈ (padZero width n).toList) :
    c.isDigit = true := by
  rw [toList_padZero, List.mem_append] at h
  rcases h with hzero | hdigit
  · rw [(List.mem_replicate.mp hzero).2]
    rfl
  · exact Nat.isDigit_of_mem_toDigits (by decide) (by decide) hdigit

theorem padZero_ne_nil (width n : Nat) : (padZero width n).toList ≠ [] := by
  rw [toList_padZero]
  exact List.append_ne_nil_of_right_ne_nil _ Nat.toDigits_ne_nil

/-- Zeros in front of a number do not change it. -/
theorem ofDigitChars_padZero (width n : Nat) :
    Nat.ofDigitChars 10 (padZero width n).toList 0 = n := by
  rw [toList_padZero, Nat.ofDigitChars_append, Nat.ofDigitChars_replicate_zero, Nat.mul_zero,
    Nat.ofDigitChars_ten_toDigits]

/-- A number that fits into a width fills it. -/
theorem length_padZero (hwidth : 0 < width) (hfits : n < Nat.pow 10 width) :
    (padZero width n).toList.length = width := by
  -- The zeros are as many as are missing, and none is when the digits fit.
  have hdigits : (Nat.toDigits 10 n).length ≤ width :=
    (Nat.length_toDigits_le_iff (by decide) hwidth).mpr hfits
  rw [toList_padZero, List.length_append, List.length_replicate]
  omega

end BucketCare.Text

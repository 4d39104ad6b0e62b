import BucketCare.Text.Blank
import Mathlib.Data.List.Infix
import Mathlib.Data.List.TakeWhile

/-!
# Trimmed lines

A text is cut at its line feeds, and nothing else is lost of it than a carriage return before a
line feed. That is a blank, so a line that is trimmed is the trimmed piece between two line feeds,
however the line ended. Trimming drops whatever blanks stand around a text, and changes nothing in a
text without blanks at its ends.

## Main definitions

* `Text.AllBlank` — a text that is all blanks
* `Text.IsTrimmed` — a text without blanks at its two ends

## Main results

* `Text.trim_pad` — blanks around a text do not count
* `Text.isTrimmed_trim` — a trimmed text has no blanks at its ends
* `Text.map_trim_lines_append` — a text is trimmed line by line
-/

namespace BucketCare.Text

variable {cs before after line : List Char}

/-- A text is all blanks. -/
def AllBlank (cs : List Char) : Prop := ∀ c ∈ cs, isBlank c = true

/-- A text has no blanks at its two ends. -/
def IsTrimmed (cs : List Char) : Prop :=
  (∀ c ∈ cs.head?, isBlank c = false) ∧ ∀ c ∈ cs.getLast?, isBlank c = false

instance (cs : List Char) : Decidable (AllBlank cs) := List.decidableBAll _ cs

instance (cs : List Char) : Decidable (IsTrimmed cs) :=
  have : Decidable (∀ c ∈ cs.head?, isBlank c = false) := Option.decidableForallMem _
  have : Decidable (∀ c ∈ cs.getLast?, isBlank c = false) := Option.decidableForallMem _
  instDecidableAnd

/-! ## Trimming -/

theorem AllBlank.reverse (h : AllBlank cs) : AllBlank cs.reverse :=
  fun c hc => h c (List.mem_reverse.mp hc)

theorem trimLeft_eq_self (h : ∀ c ∈ cs.head?, isBlank c = false) : trimLeft cs = cs := by
  cases cs with
  | nil => rfl
  | cons c rest => exact List.dropWhile_cons_of_neg (by simpa using h c rfl)

theorem trimRight_eq_self (h : ∀ c ∈ cs.getLast?, isBlank c = false) : trimRight cs = cs := by
  rw [trimRight, trimLeft_eq_self (by rwa [List.head?_reverse]), List.reverse_reverse]

theorem trimRight_append (hafter : AllBlank after) : trimRight (cs ++ after) = trimRight cs := by
  rw [trimRight, trimLeft, List.reverse_append, List.dropWhile_append_of_pos hafter.reverse,
    trimRight, trimLeft]

/-- Blanks before a text do not count. -/
theorem trim_append_left (hbefore : AllBlank before) : trim (before ++ cs) = trim cs := by
  rw [trim, trim, trimLeft, trimLeft, List.dropWhile_append_of_pos hbefore]

/-- Blanks behind a text do not count. -/
theorem trim_append_right (hafter : AllBlank after) : trim (cs ++ after) = trim cs := by
  rw [trim, trim, trimLeft, trimLeft, List.dropWhile_append]
  cases hrest : cs.dropWhile isBlank with
  | nil => rw [List.dropWhile_eq_nil_iff.mpr hafter]; rfl
  | cons c rest => exact trimRight_append hafter

/-- Blanks around a text do not count. -/
theorem trim_pad (hbefore : AllBlank before) (hafter : AllBlank after) :
    trim (before ++ cs ++ after) = trim cs := by
  rw [trim_append_right hafter, trim_append_left hbefore]

theorem IsTrimmed.trim_eq (h : IsTrimmed cs) : trim cs = cs := by
  rw [trim, trimLeft_eq_self h.1, trimRight_eq_self h.2]

theorem AllBlank.trim_eq (h : AllBlank cs) : trim cs = [] := by
  rw [trim, trimLeft, List.dropWhile_eq_nil_iff.mpr h]
  rfl

theorem head?_trimLeft (cs : List Char) : ∀ c ∈ (trimLeft cs).head?, isBlank c = false := by
  intro c hc
  have hhead := List.head?_dropWhile_not isBlank cs
  rw [trimLeft] at hc
  rw [Option.mem_def.mp hc] at hhead
  simpa using hhead

theorem trimRight_isPrefix (cs : List Char) : trimRight cs <+: cs := by
  have hsuffix := List.dropWhile_suffix (l := cs.reverse) isBlank
  rwa [← List.reverse_prefix, List.reverse_reverse] at hsuffix

/-- A trimmed text is a piece of the text. -/
theorem trim_isInfix (cs : List Char) : trim cs <:+: cs :=
  (trimRight_isPrefix _).isInfix.trans (List.dropWhile_suffix isBlank).isInfix

/-- A trimmed text has no blanks at its ends. -/
theorem isTrimmed_trim (cs : List Char) : IsTrimmed (trim cs) := by
  constructor
  · -- What is left of a text when its end is trimmed begins as the text does.
    intro c hc
    obtain ⟨behind, hsplit⟩ := trimRight_isPrefix (trimLeft cs)
    rw [trim, Option.mem_def] at hc
    apply head?_trimLeft cs c
    rw [← hsplit, List.head?_append, hc]
    rfl
  · intro c hc
    rw [trim, trimRight, List.getLast?_reverse] at hc
    exact head?_trimLeft _ c hc

/-! ## Lines -/

/-- The carriage return that belongs to a line end is a blank. -/
theorem trim_closeLine (before : List Char) : trim (closeLine before) = trim before.reverse := by
  unfold closeLine
  split
  next before =>
    rw [List.reverse_cons]
    exact (trim_append_right (by decide)).symm
  next => rfl

theorem linesFrom_append (before : List Char) (hline : '\n' ∉ line) (rest : List Char) :
    linesFrom before (line ++ '\n' :: rest) =
      closeLine (line.reverse ++ before) :: linesFrom [] rest := by
  induction line generalizing before with
  | nil => rfl
  | cons c line ih =>
    have hc := List.ne_of_not_mem_cons hline
    rw [List.cons_append, linesFrom, if_neg hc.symm, ih _ (List.not_mem_of_not_mem_cons hline),
      List.reverse_cons, List.append_assoc]
    rfl

theorem linesFrom_of_notMem (before : List Char) (hline : '\n' ∉ line) :
    linesFrom before line =
      if (line.reverse ++ before).isEmpty then [] else [before.reverse ++ line] := by
  induction line generalizing before with
  | nil => simp [linesFrom]
  | cons c line ih =>
    have hc := List.ne_of_not_mem_cons hline
    rw [linesFrom, if_neg hc.symm, ih _ (List.not_mem_of_not_mem_cons hline)]
    simp

/-- What has no line feed is a line, unless it is empty. -/
theorem lines_of_notMem (hline : '\n' ∉ line) :
    lines line = if line = [] then [] else [line] := by
  rw [lines, linesFrom_of_notMem [] hline]
  simp

/-- A text is trimmed line by line. -/
theorem map_trim_lines_append (hline : '\n' ∉ line) (rest : List Char) :
    (lines (line ++ '\n' :: rest)).map trim = trim line :: (lines rest).map trim := by
  rw [lines, linesFrom_append [] hline, List.append_nil, List.map_cons, trim_closeLine,
    List.reverse_reverse]
  rfl

theorem newline_notMem_linesFrom {before : List Char} (hbefore : '\n' ∉ before)
    (cs : List Char) : ∀ line ∈ linesFrom before cs, '\n' ∉ line := by
  induction cs generalizing before with
  | nil =>
    intro line hmem
    rw [linesFrom] at hmem
    split at hmem
    · cases hmem
    · rw [List.mem_singleton.mp hmem, List.mem_reverse]
      exact hbefore
  | cons c rest ih =>
    rw [linesFrom]
    split
    next hc =>
      refine List.forall_mem_cons.mpr ⟨?_, ih List.not_mem_nil⟩
      unfold closeLine
      split
      next before =>
        rw [List.mem_reverse]
        exact List.not_mem_of_not_mem_cons hbefore
      next =>
        rw [List.mem_reverse]
        exact hbefore
    next hc => exact ih (List.not_mem_cons_of_ne_of_not_mem (Ne.symm hc) hbefore)

/-- No line holds a line feed. -/
theorem newline_notMem_of_mem_lines (h : line ∈ lines cs) : '\n' ∉ line :=
  newline_notMem_linesFrom List.not_mem_nil cs line h

end BucketCare.Text

import BucketCare.Instant
import BucketCare.Proofs.Text.Pieces

/-!
# What the text of a span tells

The text of a span is cut at its colons and its point, and the digits between them are read as
numbers. Put together they are the whole milliseconds of the span, whatever its length: each count
stays below the one in front of it, and hours have no bound. So the text tells the whole
milliseconds of a span, and nothing else of it.

## Main definitions

* `ClockDigits` — the digits of a text of the form `[h:]m:s.ms`
* `ClockDigits.ofText?` — the digits that are read from a text
* `ClockDigits.IsTidy` — the digits are laid out as those of a span

## Main results

* `ClockDigits.ofText?_text` — digits are read from the text that they make up
* `Elapsed.display_tells` — the text of a span tells its whole milliseconds
-/

namespace BucketCare

/-- The digits of a text of the form `[h:]m:s.ms`. -/
structure ClockDigits where
  hours : Option (List Char)
  minutes : List Char
  seconds : List Char
  millis : List Char

namespace ClockDigits

/-- There are some characters, and all of them are digits. -/
def isNumeral (ds : List Char) : Bool := !ds.isEmpty && ds.all Char.isDigit

/-- The digits of a text that ends in `s.ms`, with those that were read in front of it. -/
def ofTail? (hours : Option (List Char)) (minutes tail : List Char) : Option ClockDigits :=
  match Text.splitAt '.' tail with
  | [seconds, millis] =>
    if hours.all isNumeral && isNumeral minutes && isNumeral seconds && isNumeral millis then
      some ⟨hours, minutes, seconds, millis⟩
    else none
  | _ => none

/-- The digits of a text, if it has the form `[h:]m:s.ms`. -/
def ofText? (text : String) : Option ClockDigits :=
  match Text.splitAt ':' text.toList with
  | [minutes, tail] => ofTail? none minutes tail
  | [hours, minutes, tail] => ofTail? (some hours) minutes tail
  | _ => none

/-- What some digits read as in base ten. -/
def value (ds : List Char) : Nat := Nat.ofDigitChars 10 ds 0

/-- The hours, of which there are none where none are shown. -/
def hourCount (clock : ClockDigits) : Nat := (clock.hours.map value).getD 0

/-- The milliseconds that the digits come to. -/
def milliseconds (clock : ClockDigits) : Nat :=
  ((clock.hourCount * 60 + value clock.minutes) * 60 + value clock.seconds) * 1000 +
    value clock.millis

/-- The digits are laid out as those of a span. -/
structure IsTidy (clock : ClockDigits) : Prop where
  minutes_lt : value clock.minutes < 60
  seconds_lt : value clock.seconds < 60
  millis_lt : value clock.millis < 1000
  /-- Hours are shown exactly when there are any. -/
  hours_shown : clock.hours.isSome = true ↔ clock.hourCount ≠ 0
  /-- Behind hours the minutes are filled up to two digits. -/
  minutes_two : clock.hours.isSome = true → clock.minutes.length = 2
  /-- Without hours no zero is put in front of the minutes. -/
  minutes_plain : clock.hours = none → clock.minutes = Nat.toDigits 10 (value clock.minutes)
  /-- So minutes that need one digit have two exactly when hours are shown. -/
  minutes_padded : value clock.minutes < 10 →
    (clock.minutes.length = 2 ↔ clock.hours.isSome = true)
  seconds_two : clock.seconds.length = 2
  millis_three : clock.millis.length = 3

/-! ## Digits that are read again -/

/-- The text that some digits make up. -/
def text (clock : ClockDigits) : List Char :=
  clock.hours.elim [] (· ++ [':']) ++ clock.minutes ++
    ':' :: (clock.seconds ++ '.' :: clock.millis)

theorem isNumeral_iff {ds : List Char} :
    isNumeral ds = true ↔ ds ≠ [] ∧ ∀ c ∈ ds, c.isDigit = true := by
  simp [isNumeral]

theorem isNumeral_toDigits (n : Nat) : isNumeral (Nat.toDigits 10 n) = true :=
  isNumeral_iff.mpr ⟨Nat.toDigits_ne_nil,
    fun _ hmem => Nat.isDigit_of_mem_toDigits (by decide) (by decide) hmem⟩

theorem isNumeral_padZero (width n : Nat) : isNumeral (Text.padZero width n).toList = true :=
  isNumeral_iff.mpr ⟨Text.padZero_ne_nil width n, fun _ hmem => Text.isDigit_of_mem_padZero hmem⟩

theorem notMem_of_isNumeral {ds : List Char} {mark : Char} (h : isNumeral ds = true)
    (hmark : mark.isDigit = false) : mark ∉ ds := by
  intro hmem
  have hdigit := (isNumeral_iff.mp h).2 mark hmem
  rw [hmark] at hdigit
  cases hdigit

/-- Digits are read from the text that they make up. -/
theorem ofText?_text {clock : ClockDigits} (hhours : clock.hours.all isNumeral = true)
    (hminutes : isNumeral clock.minutes = true) (hseconds : isNumeral clock.seconds = true)
    (hmillis : isNumeral clock.millis = true) :
    ofText? (String.ofList clock.text) = some clock := by
  obtain ⟨hours, minutes, seconds, millis⟩ := clock
  dsimp only at hhours hminutes hseconds hmillis
  have hpoint : Text.splitAt '.' (seconds ++ '.' :: millis) = [seconds, millis] := by
    rw [Text.splitAt_append, Text.splitAt_of_notMem (notMem_of_isNumeral hseconds rfl),
      Text.splitAt_of_notMem (notMem_of_isNumeral hmillis rfl)]
    rfl
  have htail : ofTail? hours minutes (seconds ++ '.' :: millis) =
      some ⟨hours, minutes, seconds, millis⟩ := by
    simp [ofTail?, hpoint, hhours, hminutes, hseconds, hmillis]
  -- The minutes end at the last colon: none stands in the seconds or behind the point.
  have hlast : ':' ∉ seconds ++ '.' :: millis := by
    have hleft : ':' ∉ seconds := notMem_of_isNumeral hseconds rfl
    have hright : ':' ∉ millis := notMem_of_isNumeral hmillis rfl
    simp [hleft, hright]
  have hcut : Text.splitAt ':' (minutes ++ ':' :: (seconds ++ '.' :: millis)) =
      [minutes, seconds ++ '.' :: millis] := by
    rw [Text.splitAt_append, Text.splitAt_of_notMem (notMem_of_isNumeral hminutes rfl),
      Text.splitAt_of_notMem hlast]
    rfl
  cases hours with
  | none =>
    simp only [ofText?, text, Option.elim, List.nil_append, String.toList_ofList, hcut, htail]
  | some ds =>
    have hhour : Text.splitAt ':' ds = [ds] :=
      Text.splitAt_of_notMem (notMem_of_isNumeral hhours rfl)
    simp only [ofText?, text, Option.elim, List.append_assoc, List.cons_append, List.nil_append,
      String.toList_ofList, Text.splitAt_append, hhour, hcut, htail]

end ClockDigits

/-! ## The digits of a span -/

namespace Elapsed

/-- The whole hours of a span. -/
def hours (span : Elapsed) : Nat := span.milliseconds / 3600000

/-- The digits that a span is written with. -/
def digits (span : Elapsed) : ClockDigits where
  hours := if span.hours = 0 then none else some (Nat.toDigits 10 span.hours)
  minutes :=
    (Text.padZero (if span.hours = 0 then 1 else 2) (span.milliseconds / 60000 % 60)).toList
  seconds := (Text.padZero 2 (span.milliseconds / 1000 % 60)).toList
  millis := (Text.padZero 3 (span.milliseconds % 1000)).toList

section Digits

variable (span : Elapsed)

theorem digits_minutes : span.digits.minutes =
    (Text.padZero (if span.hours = 0 then 1 else 2) (span.milliseconds / 60000 % 60)).toList := by
  rw [digits]

theorem digits_seconds :
    span.digits.seconds = (Text.padZero 2 (span.milliseconds / 1000 % 60)).toList := by
  rw [digits]

theorem digits_millis :
    span.digits.millis = (Text.padZero 3 (span.milliseconds % 1000)).toList := by
  rw [digits]

theorem isSome_digits_hours : span.digits.hours.isSome = true ↔ span.hours ≠ 0 := by
  by_cases hhours : span.hours = 0 <;> simp [digits, hhours]

theorem hourCount_digits : span.digits.hourCount = span.hours := by
  by_cases hhours : span.hours = 0 <;>
    simp [ClockDigits.hourCount, digits, hhours, ClockDigits.value]

theorem value_minutes :
    ClockDigits.value span.digits.minutes = span.milliseconds / 60000 % 60 := by
  rw [digits_minutes, ClockDigits.value, Text.ofDigitChars_padZero]

theorem value_seconds :
    ClockDigits.value span.digits.seconds = span.milliseconds / 1000 % 60 := by
  rw [digits_seconds, ClockDigits.value, Text.ofDigitChars_padZero]

theorem value_millis : ClockDigits.value span.digits.millis = span.milliseconds % 1000 := by
  rw [digits_millis, ClockDigits.value, Text.ofDigitChars_padZero]

/-- The hours, minutes, seconds and their fraction make up the whole milliseconds. -/
theorem milliseconds_digits : span.digits.milliseconds = span.milliseconds := by
  rw [ClockDigits.milliseconds, hourCount_digits, value_minutes, value_seconds, value_millis, hours]
  -- Each count is what is left of the one below it by a division.
  omega

theorem length_minutes_of_hours (hshown : span.digits.hours.isSome = true) :
    span.digits.minutes.length = 2 := by
  rw [digits_minutes, if_neg ((isSome_digits_hours span).mp hshown)]
  exact Text.length_padZero (by decide) (show _ < 100 by omega)

theorem minutes_eq_of_none (hnone : span.digits.hours = none) :
    span.digits.minutes = Nat.toDigits 10 (ClockDigits.value span.digits.minutes) := by
  have hhours : span.hours = 0 := by
    have hhidden := mt (isSome_digits_hours span).mpr (by simp [hnone])
    simpa using hhidden
  rw [value_minutes, digits_minutes, if_pos hhours, Text.toList_padZero_one]

theorem isTidy_digits : span.digits.IsTidy where
  minutes_lt := value_minutes span ▸ Nat.mod_lt _ (by decide)
  seconds_lt := value_seconds span ▸ Nat.mod_lt _ (by decide)
  millis_lt := value_millis span ▸ Nat.mod_lt _ (by decide)
  hours_shown := by rw [isSome_digits_hours, hourCount_digits]
  minutes_two := length_minutes_of_hours span
  minutes_plain := minutes_eq_of_none span
  minutes_padded := by
    intro hsmall
    refine ⟨fun htwo => ?_, length_minutes_of_hours span⟩
    -- Without hours the minutes would be one digit.
    refine Decidable.by_contra fun hhidden => ?_
    have hplain := minutes_eq_of_none span (Option.not_isSome_iff_eq_none.mp hhidden)
    have hone := (Nat.length_toDigits_le_iff (by decide) (by decide)).mpr
      (show ClockDigits.value span.digits.minutes < Nat.pow 10 1 from hsmall)
    rw [← hplain, htwo] at hone
    exact absurd hone (by decide)
  seconds_two := by
    rw [digits_seconds]
    exact Text.length_padZero (by decide) (show _ < 100 by omega)
  millis_three := by
    rw [digits_millis]
    exact Text.length_padZero (by decide) (show _ < 1000 by omega)

theorem toList_display : span.display.toList = span.digits.text := by
  rw [ClockDigits.text, digits_minutes, digits_seconds, digits_millis]
  by_cases hhours : span.hours = 0
  · have hhidden : span.milliseconds / 3600000 = 0 := hhours
    simp [display, digits, hhours, hhidden, Text.toList_padZero_one]
  · have hshown : ¬ span.milliseconds / 3600000 = 0 := hhours
    simp [display, digits, hshown, hours]

/-- The digits of a span are read from its text. -/
theorem ofText?_display : ClockDigits.ofText? span.display = some span.digits := by
  have hhours : span.digits.hours.all ClockDigits.isNumeral = true := by
    by_cases hhours : span.hours = 0 <;> simp [digits, hhours, ClockDigits.isNumeral_toDigits]
  have htext : span.display = String.ofList span.digits.text := by
    rw [← toList_display, String.ofList_toList]
  rw [htext]
  apply ClockDigits.ofText?_text hhours
  · rw [digits_minutes]
    exact ClockDigits.isNumeral_padZero _ _
  · rw [digits_seconds]
    exact ClockDigits.isNumeral_padZero _ _
  · rw [digits_millis]
    exact ClockDigits.isNumeral_padZero _ _

end Digits

/-- The text of a span is read as hours, where there are any, minutes, seconds and milliseconds,
laid out as they should be, and together they are the whole milliseconds of the span. So spans are
written alike exactly when they have as many of these. -/
theorem display_tells (span : Elapsed) :
    (∃ clock, ClockDigits.ofText? span.display = some clock ∧ clock.IsTidy ∧
      clock.milliseconds = span.nanoseconds / 1000000) ∧
    ∀ other : Elapsed, span.display = other.display ↔
      span.nanoseconds / 1000000 = other.nanoseconds / 1000000 := by
  refine ⟨⟨_, ofText?_display span, isTidy_digits span, milliseconds_digits span⟩, fun other => ?_⟩
  constructor
  · intro htext
    have hread : some span.digits = some other.digits := by
      rw [← ofText?_display, ← ofText?_display, htext]
    calc span.milliseconds = span.digits.milliseconds := (milliseconds_digits span).symm
      _ = other.digits.milliseconds := congrArg _ (Option.some.inj hread)
      _ = other.milliseconds := milliseconds_digits other
  · intro hsame
    -- Nothing but the whole milliseconds goes into the text.
    have hmillis : span.milliseconds = other.milliseconds := hsame
    simp only [display, hmillis]

/-- The last millisecond of an hour is written without hours, and the next one with them. -/
example : (ofParts 3599 999999999).display = "59:59.999" ∧
    (ofParts 3600 0).display = "1:00:00.000" := by decide +kernel

end Elapsed

end BucketCare

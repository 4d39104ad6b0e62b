import BucketCare.Proofs.Toml.Text
import BucketCare.Toml.Reader

/-!
# Documents are read as they were written

A document of sections, each a header with keys and values below it, is read as one table for each
section. The reader of numbers tries dates and fractions first, so digits that end their line must
be shown to be neither; texts are read back by `readText_writeText`. What a line adds to a table
depends on which header is open, and a reader with a bound on its expressions is followed by what it
is left with: from one draft and text it leads on to another.

## Main definitions

* `InNumber` — a place within the digits of a number
* `IsWritten` — what is written for a value is read as the value
* `WrittenKey`, `WrittenSection` — the lines of a document, with what they are read as
* `LeadsOn` — how the expressions of a text lead from one draft to another
* `Spaced` — pieces of text with any empty lines around them

## Main results

* `readNumber_toString` — a number is read as it was written
* `readEntry_of_isWritten`, `readHeader_of_isBareName` — what one line is read as
* `leadsOn_section` — what a section adds to a document
* `readDocument_spaced` — a document of sections is read as the tables of its keys
-/

namespace BucketCare.Toml

/-! ## Numbers -/

/-- A place within the digits of a number that ends its line, or right behind them. -/
def InNumber (rest cs : List Char) : Prop :=
  ∃ ds, (∀ c ∈ ds, isDigit c = true) ∧ cs = ds ++ '\n' :: rest

section InNumber

variable {c : Char} {cs rest behind : List Char} {n least greatest : Nat}

theorem InNumber.tail (h : InNumber rest (c :: cs)) (hc : isDigit c = true) :
    InNumber rest cs := by
  obtain ⟨ds, hds, heq⟩ := h
  cases ds with
  | nil =>
    obtain ⟨rfl, -⟩ := List.cons.inj heq
    cases hc
  | cons d ds =>
    obtain ⟨-, rfl⟩ := List.cons.inj heq
    exact ⟨ds, (List.forall_mem_cons.mp hds).2, rfl⟩

/-- Nothing but digits and the line feed stands in a number. -/
theorem InNumber.head (h : InNumber rest (c :: cs)) : isDigit c = true ∨ c = '\n' := by
  obtain ⟨ds, hds, heq⟩ := h
  cases ds with
  | nil => exact .inr (List.cons.inj heq).1
  | cons d ds =>
    obtain ⟨rfl, -⟩ := List.cons.inj heq
    exact .inl (hds c (.head _))

theorem InNumber.expect_eq_none (h : InNumber rest cs) (hc : isDigit c = false) (hfeed : c ≠ '\n') :
    expect c cs = none := by
  cases cs with
  | nil => rfl
  | cons d cs =>
    refine if_neg ?_
    rintro rfl
    simpa [hc, hfeed] using h.head

theorem InNumber.fourDigits (h : InNumber rest cs) (hread : fourDigits cs = some (n, behind)) :
    InNumber rest behind := by
  unfold Toml.fourDigits at hread
  split at hread
  · split at hread
    next hdigits =>
      simp only [List.all_cons, List.all_nil, Bool.and_eq_true, and_true] at hdigits
      cases hread
      exact (((h.tail hdigits.1).tail hdigits.2.1).tail hdigits.2.2.1).tail hdigits.2.2.2
    next => cases hread
  · cases hread

theorem InNumber.twoDigits (h : InNumber rest cs)
    (hread : twoDigits least greatest cs = some (n, behind)) : InNumber rest behind := by
  unfold Toml.twoDigits at hread
  split at hread
  · split at hread
    next hdigits =>
      simp only [Bool.and_eq_true] at hdigits
      simp only at hread
      split at hread
      · cases hread
        exact (h.tail hdigits.1).tail hdigits.2
      · cases hread
    next => cases hread
  · cases hread

/-- A number is no date: behind its first digits stands no dash and no colon. -/
theorem InNumber.readDate_eq_none (h : InNumber rest cs) : readDate cs = none := by
  have hday : readDay cs = none := by
    unfold readDay
    cases hyear : Toml.fourDigits cs with
    | none => rfl
    | some year =>
      have hdash : expect '-' year.2 = none := (h.fourDigits hyear).expect_eq_none rfl (by decide)
      simp [hdash]
  have hclock : readClock cs = none := by
    unfold readClock
    cases hhour : Toml.twoDigits 0 23 cs with
    | none => rfl
    | some hour =>
      have hcolon : expect ':' hour.2 = none := (h.twoDigits hhour).expect_eq_none rfl (by decide)
      simp [hcolon]
  simp [readDate, hday, hclock]

end InNumber

theorem moreDigits_eq {ds : List Char} (h : ∀ c ∈ ds, isDigit c = true) (rest : List Char) :
    moreDigits isDigit (ds ++ '\n' :: rest) = (ds, '\n' :: rest) := by
  induction ds with
  | nil => rfl
  | cons c ds ih =>
    obtain ⟨hc, hds⟩ := List.forall_mem_cons.mp h
    have hunderscore : c ≠ '_' := by
      rintro rfl
      cases hc
    rw [List.cons_append, moreDigits]
    · simp [hc, ih hds]
    · intro d more heq
      exact absurd heq hunderscore

theorem digitsValue_eq {ds : List Char} (h : ∀ c ∈ ds, isDigit c = true) :
    digitsValue 10 ds = Nat.ofDigitChars 10 ds 0 := by
  rw [digitsValue, Nat.ofDigitChars_eq_foldl]
  generalize 0 = start
  induction ds generalizing start with
  | nil => rfl
  | cons c ds ih =>
    obtain ⟨hc, hds⟩ := List.forall_mem_cons.mp h
    rw [List.foldl_cons, List.foldl_cons, digitValue, if_pos hc, Nat.mul_comm]
    exact ih hds _

theorem isDigit_of_mem_toDigits (n : Nat) : ∀ c ∈ Nat.toDigits 10 n, isDigit c = true :=
  fun _ hmem => Nat.isDigit_of_mem_toDigits (by decide) (by decide) hmem

/-- The digits of a number other than zero do not begin with a zero. -/
theorem head?_toDigits {n : Nat} (h : n ≠ 0) : (Nat.toDigits 10 n).head? ≠ some '0' := by
  induction n using Nat.strongRecOn with
  | ind n ih =>
    rw [Nat.toDigits_eq_if (by decide)]
    split
    next => simpa using h
    next hmore =>
      have hless := ih (n / 10) (by omega) (by omega)
      rw [List.head?_append]
      cases hhead : (Nat.toDigits 10 (n / 10)).head? with
      | none => exact absurd (List.head?_eq_none_iff.mp hhead) Nat.toDigits_ne_nil
      | some c => simpa [hhead] using hless

theorem inNumber_toDigits (n : Nat) (rest : List Char) :
    InNumber rest (Nat.toDigits 10 n ++ '\n' :: rest) := ⟨_, isDigit_of_mem_toDigits n, rfl⟩

theorem readSign_of_isDigit {c : Char} (h : isDigit c = true) (rest : List Char) :
    readSign (c :: rest) = (false, c :: rest) := by
  unfold readSign
  split
  next heq =>
    obtain ⟨rfl, -⟩ := List.cons.inj heq
    cases h
  next heq =>
    obtain ⟨rfl, -⟩ := List.cons.inj heq
    cases h
  next => rfl

/-- The digits of a number are read as a whole number. -/
theorem readDecimal_toDigits (n : Nat) (rest : List Char) :
    readDecimal (Nat.toDigits 10 n ++ '\n' :: rest) =
      some ((false, Nat.toDigits 10 n), '\n' :: rest) := by
  by_cases hzero : n = 0
  · subst hzero
    rfl
  -- A zero at the head would end the number there.
  have hhead := head?_toDigits hzero
  have hdigits := isDigit_of_mem_toDigits n
  cases hds : Nat.toDigits 10 n with
  | nil => exact absurd hds Nat.toDigits_ne_nil
  | cons c ds =>
    rw [hds] at hhead hdigits
    obtain ⟨hc, hmore⟩ := List.forall_mem_cons.mp hdigits
    simp only [readDecimal, List.cons_append, readSign_of_isDigit hc]
    split
    next heq =>
      obtain ⟨rfl, -⟩ := List.cons.inj heq
      exact absurd rfl hhead
    next => simp [someDigits, hc, moreDigits_eq hmore]

/-- A whole number that ends its line is no number with a fraction or an exponent. -/
theorem readFloat_toDigits (n : Nat) (rest : List Char) :
    readFloat (Nat.toDigits 10 n ++ '\n' :: rest) = none := by
  have hexponent : readExponent ('\n' :: rest) = none := by simp [readExponent]
  have hdecimal : readDecimalFloat (Nat.toDigits 10 n ++ '\n' :: rest) = none := by
    simp [readDecimalFloat, readDecimal_toDigits, hexponent, readFraction]
  -- The names of what is no finite number begin with a letter.
  have hspecial : readSpecialFloat (Nat.toDigits 10 n ++ '\n' :: rest) = none := by
    have hdigits := isDigit_of_mem_toDigits n
    cases hds : Nat.toDigits 10 n with
    | nil => exact absurd hds Nat.toDigits_ne_nil
    | cons c ds =>
      rw [hds] at hdigits
      have hc := hdigits c (.head _)
      simp only [readSpecialFloat, List.cons_append, readSign_of_isDigit hc]
      split
      next heq =>
        obtain ⟨rfl, -⟩ := List.cons.inj heq
        cases hc
      next heq =>
        obtain ⟨rfl, -⟩ := List.cons.inj heq
        cases hc
      next => rfl
  rw [readFloat, hdecimal, hspecial]
  rfl

/-- A number of 64 bits is read as it was written. -/
theorem readInteger_toDigits {n : Nat} (h : (n : Int) ≤ greatestInteger) (rest : List Char) :
    readInteger (Nat.toDigits 10 n ++ '\n' :: rest) = some ((n : Int), '\n' :: rest) := by
  have hnumber := inNumber_toDigits n rest
  have hdecimal := readDecimal_toDigits n rest
  have hvalue : digitsValue 10 (Nat.toDigits 10 n) = n := by
    rw [digitsValue_eq (isDigit_of_mem_toDigits n), Nat.ofDigitChars_ten_toDigits]
  have hbounded : bounded (n : Int) = some (n : Int) := by
    have hleast : leastInteger ≤ (n : Int) := Int.le_trans (by decide) (Int.natCast_nonneg n)
    exact if_pos ⟨hleast, h⟩
  unfold readInteger
  split
  -- No mark of a base stands in a number.
  · next heq => exact absurd ((heq ▸ hnumber).tail rfl).head (by decide)
  · next heq => exact absurd ((heq ▸ hnumber).tail rfl).head (by decide)
  · next heq => exact absurd ((heq ▸ hnumber).tail rfl).head (by decide)
  · simp [hdecimal, hvalue, hbounded]

/-- A number is read as it was written. -/
theorem readNumber_toString {n : Nat} (h : (n : Int) ≤ greatestInteger) (rest : List Char) :
    readNumber ((toString n).toList ++ '\n' :: rest) = some (.integer n, '\n' :: rest) := by
  rw [Nat.toString_eq_ofList_toDigits, String.toList_ofList]
  simp [readNumber, (inNumber_toDigits n rest).readDate_eq_none, readFloat_toDigits,
    readInteger_toDigits h]

/-! ## Values -/

/-- What is written for a value is read as the value, behind blanks and before a line feed. -/
def IsWritten (value : Value) (written : List Char) : Prop :=
  ∀ rest, readValue (depthLimit - 1) (skipSpaces (written ++ '\n' :: rest)) =
    some (value, '\n' :: rest)

theorem skipSpaces_cons {c : Char} (h : isSpace c = false) (rest : List Char) :
    skipSpaces (c :: rest) = c :: rest := by
  simp [skipSpaces, h]

theorem readValue_eq_readScalar {c : Char} (hlist : c ≠ '[') (hbraces : c ≠ '\x7b') (depth : Nat)
    (rest : List Char) : readValue depth (c :: rest) = readScalar (c :: rest) := by
  cases depth with
  | zero => rfl
  | succ depth =>
    rw [readValue]
    · exact fun _ heq => hlist (List.cons.inj heq).1
    · exact fun _ heq => hbraces (List.cons.inj heq).1

theorem readScalar_cons {c : Char} (htrue : c ≠ 't') (hfalse : c ≠ 'f') (rest : List Char) :
    readScalar (c :: rest) =
      if c = double ∨ c = single then (readText (c :: rest)).map fun (s, rest) => (.text s, rest)
      else readNumber (c :: rest) := by
  rw [readScalar]
  · exact fun _ heq _ => htrue heq
  · exact fun _ heq _ => hfalse heq

theorem exists_writeText (s : String) : ∃ mark behind, (mark = double ∨ mark = single) ∧
    (writeText s).toList = mark :: behind := by
  rw [writeText, String.toList_ofList]
  cases formOf s.toList with
  | basic => exact ⟨double, _, .inl rfl, rfl⟩
  | literal => exact ⟨single, _, .inr rfl, rfl⟩
  | basicBlock => exact ⟨double, _, .inl rfl, rfl⟩
  | literalBlock => exact ⟨single, _, .inr rfl, rfl⟩

theorem isWritten_text (s : String) : IsWritten (.text s) (writeText s).toList := by
  intro rest
  have hread := readText_writeText s rest
  obtain ⟨mark, behind, hmark, heq⟩ := exists_writeText s
  rw [heq, List.cons_append] at hread ⊢
  have hother : isSpace mark = false ∧ mark ≠ '[' ∧ mark ≠ '\x7b' ∧ mark ≠ 't' ∧ mark ≠ 'f' := by
    rcases hmark with rfl | rfl <;> decide
  obtain ⟨hspace, hlist, hbraces, htrue, hfalse⟩ := hother
  rw [skipSpaces_cons hspace, readValue_eq_readScalar hlist hbraces,
    readScalar_cons htrue hfalse, if_pos hmark, hread]
  rfl

theorem isWritten_boolean (b : Bool) :
    IsWritten (.boolean b) (if b then "true" else "false").toList := by
  intro rest
  cases b <;> rfl

theorem isWritten_integer {n : Nat} (h : (n : Int) ≤ greatestInteger) :
    IsWritten (.integer n) (toString n).toList := by
  intro rest
  have hread := readNumber_toString h rest
  obtain ⟨c, behind, hc, heq⟩ : ∃ c behind, isDigit c = true ∧
      (toString n).toList = c :: behind := by
    rw [Nat.toString_eq_ofList_toDigits, String.toList_ofList]
    cases hds : Nat.toDigits 10 n with
    | nil => exact absurd hds Nat.toDigits_ne_nil
    | cons c ds => exact ⟨c, ds, isDigit_of_mem_toDigits n c (by simp [hds]), rfl⟩
  rw [heq, List.cons_append] at hread ⊢
  have hother {d : Char} (hd : isDigit d = false) : c ≠ d := by
    rintro rfl
    simp [hc] at hd
  have hmark : ¬ (c = double ∨ c = single) := not_or.mpr ⟨hother rfl, hother rfl⟩
  have hspace : isSpace c = false := by
    have hblank : c ≠ ' ' := hother rfl
    have htab : c ≠ '\t' := hother rfl
    simp [isSpace, hblank, htab]
  rw [skipSpaces_cons hspace, readValue_eq_readScalar (hother rfl) (hother rfl),
    readScalar_cons (hother rfl) (hother rfl), if_neg hmark, hread]

/-! ## Lines -/

/-- A name that can stand as a key without quotation marks. -/
def IsBareName (name : String) : Prop :=
  name.toList ≠ [] ∧ ∀ c ∈ name.toList, isBare c = true

instance (name : String) : Decidable (IsBareName name) :=
  @instDecidableAnd _ _ _ (List.decidableBAll (isBare · = true) name.toList)

section Lines

variable {name : String} {c : Char} {rest : List Char}

theorem IsBareName.exists_cons (h : IsBareName name) (rest : List Char) :
    ∃ c behind, isBare c = true ∧ name.toList ++ rest = c :: behind := by
  obtain ⟨hne, hall⟩ := h
  cases hname : name.toList with
  | nil => exact absurd hname hne
  | cons c cs => exact ⟨c, cs ++ rest, hall c (by simp [hname]), rfl⟩

theorem ne_of_isBare {d : Char} (hc : isBare c = true) (hd : isBare d = false) : c ≠ d := by
  rintro rfl
  simp [hc] at hd

theorem isSpace_of_isBare (h : isBare c = true) : isSpace c = false := by
  have hblank : c ≠ ' ' := ne_of_isBare h rfl
  have htab : c ≠ '\t' := ne_of_isBare h rfl
  simp [isSpace, hblank, htab]

/-- A bare name is read up to its end. -/
theorem readPart_of_isBareName (h : IsBareName name) (hc : isBare c = false) :
    readPart (name.toList ++ c :: rest) = some (name, c :: rest) := by
  obtain ⟨d, behind, hd, heq⟩ := h.exists_cons (c :: rest)
  have hline : readLine (name.toList ++ c :: rest) = none := by
    have hdouble : d ≠ double := ne_of_isBare hd rfl
    have hsingle : d ≠ single := ne_of_isBare hd rfl
    rw [heq, readLine, if_neg hdouble, if_neg hsingle]
  have htake : (name.toList ++ c :: rest).takeWhile isBare = name.toList := by
    rw [List.takeWhile_append_of_pos h.2, List.takeWhile_cons_of_neg (by simp [hc]),
      List.append_nil]
  have hdrop : (name.toList ++ c :: rest).dropWhile isBare = c :: rest := by
    rw [List.dropWhile_append_of_pos h.2, List.dropWhile_cons_of_neg (by simp [hc])]
  have hsome : name ≠ "" := by
    rintro rfl
    exact h.1 rfl
  simp [readPart, hline, htake, hdrop, hsome]

theorem readKey_of_isBareName (h : IsBareName name) (hc : isBare c = false)
    (hdot : ∀ behind, skipSpaces (c :: rest) ≠ '.' :: behind) :
    readKey (name.toList ++ c :: rest) = some (([], name), skipSpaces (c :: rest)) := by
  have hskip : skipSpaces (name.toList ++ c :: rest) = name.toList ++ c :: rest := by
    obtain ⟨d, behind, hd, heq⟩ := h.exists_cons (c :: rest)
    rw [heq, skipSpaces_cons (isSpace_of_isBare hd)]
  have hparts : readParts (depthLimit - 1) (name.toList ++ c :: rest) =
      some ([name], skipSpaces (c :: rest)) := by
    rw [depthLimit, readParts, hskip, readPart_of_isBareName h hc]
    simp only [Option.bind_eq_bind, Option.bind_some]
    rfl
  rw [readKey, hparts]
  rfl

variable {draft : Draft} {value : Value} {written : List Char}

/-- The line of a key adds its value below the header that is open. -/
theorem readEntry_of_isWritten (h : IsBareName name) (hwritten : IsWritten value written) :
    readEntry draft (name.toList ++ ' ' :: '=' :: ' ' :: (written ++ '\n' :: rest)) =
      (draft.table.insertBelow draft.header [] name value).map fun table =>
        ({ draft with table }, rest) := by
  have hkey : readKey (name.toList ++ ' ' :: '=' :: ' ' :: (written ++ '\n' :: rest)) =
      some (([], name), '=' :: ' ' :: (written ++ '\n' :: rest)) :=
    readKey_of_isBareName h rfl (by simp [skipSpaces, isSpace])
  have hvalue : readValue (depthLimit - 1) (skipSpaces (' ' :: (written ++ '\n' :: rest))) =
      some (value, '\n' :: rest) := hwritten rest
  have hend : endLine ('\n' :: rest) = some rest := rfl
  simp only [readEntry, readPair, hkey, expect, hvalue, hend, if_true, Option.bind_eq_bind,
    Option.bind_some, Option.pure_def]
  cases draft.table.insertBelow draft.header [] name value <;> rfl

/-- The line of a header opens it. -/
theorem readHeader_of_isBareName (h : IsBareName name) :
    readHeader draft (name.toList ++ ']' :: '\n' :: rest) =
      (draft.table.openHeader [] name).map fun table => (⟨table, [name]⟩, rest) := by
  have hkey : readKey (name.toList ++ ']' :: '\n' :: rest) =
      some (([], name), ']' :: '\n' :: rest) :=
    readKey_of_isBareName h rfl (by simp [skipSpaces, isSpace])
  have hend : endLine ('\n' :: rest) = some rest := rfl
  obtain ⟨c, behind, hc, heq⟩ := h.exists_cons (']' :: '\n' :: rest)
  rw [heq] at hkey ⊢
  rw [readHeader]
  · simp only [hkey, expect, hend, if_true, Option.bind_eq_bind, Option.bind_some, Option.pure_def]
    cases draft.table.openHeader [] name <;> rfl
  · exact fun _ hlist => ne_of_isBare hc rfl (List.cons.inj hlist).1

end Lines

/-! ## Tables -/

namespace Table

variable {shape : Shape} {done entries : List (String × Value)} {name key : String}

theorem lookup_of_notMem (h : name ∉ done.map Prod.fst) : done.lookup name = none := by
  rw [List.lookup_eq_none_iff]
  intro entry hmem
  have hne : name ≠ entry.1 := fun heq => h (heq ▸ List.mem_map_of_mem hmem)
  simpa using hne

/-- A new header. -/
theorem openHeader_new (h : name ∉ done.map Prod.fst) :
    openHeader [] name (shape, done) = some (shape, done ++ [(name, .table .header [])]) := by
  simp [openHeader, alter, lookup_of_notMem h]

theorem replace_last {old value : Value} (h : name ∉ done.map Prod.fst) :
    replace name value (done ++ [(name, old)]) = done ++ [(name, value)] := by
  induction done with
  | nil => simp [replace]
  | cons entry done ih =>
    obtain ⟨hne, hrest⟩ := not_or.mp (mt List.mem_cons.mpr h)
    simp [replace, Ne.symm hne, ih hrest]

/-- A new key of the table that stands last. -/
theorem insertBelow_last {value : Value} (h : name ∉ done.map Prod.fst)
    (hkey : key ∉ entries.map Prod.fst) :
    insertBelow [name] [] key value (shape, done ++ [(name, .table .header entries)]) =
      some (shape, done ++ [(name, .table .header (entries ++ [(key, value)]))]) := by
  have hfound : (done ++ [(name, Value.table .header entries)]).lookup name =
      some (.table .header entries) := by
    simp [List.lookup_append, lookup_of_notMem h]
  have hadd : insert [] key value (.header, entries) =
      some (.header, entries ++ [(key, value)]) := by
    simp [insert, alter, add, get?, lookup_of_notMem hkey]
  simp [insertBelow, alter, hfound, passable, hadd, replace_last h]

end Table

/-! ## Expressions -/

/-- From a draft and a text, the expressions lead on to another draft and the text behind them. -/
def LeadsOn (draft : Draft) (cs : List Char) (draft' : Draft) (rest : List Char) : Prop :=
  ∀ fuel, cs.length < fuel → ∃ fuel', rest.length < fuel' ∧
    readExpressions fuel draft cs = readExpressions fuel' draft' rest

/-- A key with a value and what is written for it. -/
structure WrittenKey where
  name : String
  value : Value
  written : List Char
  isBareName : IsBareName name
  isWritten : IsWritten value written

namespace WrittenKey

/-- The line of a key. -/
def line (key : WrittenKey) : List Char :=
  key.name.toList ++ ' ' :: '=' :: ' ' :: (key.written ++ ['\n'])

/-- The entry of a key in its table. -/
def entry (key : WrittenKey) : String × Value := (key.name, key.value)

end WrittenKey

/-- A header with the keys below it. -/
structure WrittenSection where
  name : String
  keys : List WrittenKey
  isBareName : IsBareName name
  nodup : (keys.map WrittenKey.name).Nodup

namespace WrittenSection

/-- The lines of a section. -/
def text (part : WrittenSection) : List Char :=
  '[' :: (part.name.toList ++ ']' :: '\n' :: part.keys.flatMap WrittenKey.line)

/-- The entry of a section in its document. -/
def entry (part : WrittenSection) : String × Value :=
  (part.name, .table .header (part.keys.map WrittenKey.entry))

end WrittenSection

section Expressions

variable {draft draft' draft'' : Draft} {cs rest after : List Char} {name : String}
variable {done : List (String × Value)}

theorem LeadsOn.refl : LeadsOn draft cs draft cs := fun fuel h => ⟨fuel, h, rfl⟩

theorem LeadsOn.trans (h : LeadsOn draft cs draft' rest) (h' : LeadsOn draft' rest draft'' after) :
    LeadsOn draft cs draft'' after := by
  intro fuel hfuel
  obtain ⟨fuel₁, hfuel₁, heq₁⟩ := h fuel hfuel
  obtain ⟨fuel₂, hfuel₂, heq₂⟩ := h' fuel₁ hfuel₁
  exact ⟨fuel₂, hfuel₂, heq₁.trans heq₂⟩

/-- One expression leads on, when it takes some of the text. -/
theorem LeadsOn.step (hless : rest.length < cs.length)
    (h : ∀ fuel, readExpressions (fuel + 1) draft cs = readExpressions fuel draft' rest) :
    LeadsOn draft cs draft' rest := by
  intro fuel hfuel
  obtain ⟨fuel, rfl⟩ := Nat.exists_eq_add_one.mpr (Nat.zero_lt_of_lt hfuel)
  exact ⟨fuel, by omega, h fuel⟩

/-- An empty line changes nothing. -/
theorem leadsOn_feed : LeadsOn draft ('\n' :: rest) draft rest :=
  .step (Nat.lt_succ_self _) fun _ => rfl

/-- A header is opened. -/
theorem leadsOn_header (h : IsBareName name) (hnew : name ∉ done.map Prod.fst)
    (header : List String) :
    LeadsOn ⟨(.header, done), header⟩ ('[' :: (name.toList ++ ']' :: '\n' :: rest))
      ⟨(.header, done ++ [(name, .table .header [])]), [name]⟩ rest := by
  refine .step (by simp; omega) fun fuel => ?_
  have hread : readHeader ⟨(.header, done), header⟩ (name.toList ++ ']' :: '\n' :: rest) =
      some (⟨(.header, done ++ [(name, .table .header [])]), [name]⟩, rest) := by
    rw [readHeader_of_isBareName h, Table.openHeader_new hnew]
    rfl
  rw [readExpressions, skipSpaces_cons rfl]
  simp [hread]

/-- An expression that begins like a bare name is a key with its value. -/
theorem readExpressions_of_isBare {c : Char} (h : isBare c = true) (fuel : Nat) :
    readExpressions (fuel + 1) draft (c :: rest) =
      (readEntry draft (c :: rest)).bind fun (draft, rest) => readExpressions fuel draft rest := by
  rw [readExpressions, skipSpaces_cons (isSpace_of_isBare h)]
  split
  next heq => cases heq
  next heq => exact absurd (List.cons.inj heq).1 (ne_of_isBare h rfl)
  next heq => exact absurd (List.cons.inj heq).1 (ne_of_isBare h rfl)
  next heq => exact absurd (List.cons.inj heq).1 (ne_of_isBare h rfl)
  next heq => exact absurd (List.cons.inj heq).1 (ne_of_isBare h rfl)
  next => rfl

/-- A key with its value comes behind the others of the table that is open. -/
theorem leadsOn_key (key : WrittenKey) {entries : List (String × Value)}
    (hnew : name ∉ done.map Prod.fst) (hkey : key.name ∉ entries.map Prod.fst) :
    LeadsOn ⟨(.header, done ++ [(name, .table .header entries)]), [name]⟩ (key.line ++ rest)
      ⟨(.header, done ++ [(name, .table .header (entries ++ [key.entry]))]), [name]⟩ rest := by
  refine .step (by simp [WrittenKey.line]; omega) fun fuel => ?_
  have hline : key.line ++ rest =
      key.name.toList ++ ' ' :: '=' :: ' ' :: (key.written ++ '\n' :: rest) := by
    simp [WrittenKey.line]
  have hread : readEntry ⟨(.header, done ++ [(name, .table .header entries)]), [name]⟩
      (key.line ++ rest) =
        some (⟨(.header, done ++ [(name, .table .header (entries ++ [key.entry]))]), [name]⟩,
          rest) := by
    rw [hline, readEntry_of_isWritten key.isBareName key.isWritten,
      Table.insertBelow_last hnew hkey]
    rfl
  -- The line begins like a bare name, so it is neither empty nor a comment nor a header.
  obtain ⟨c, behind, hc, heq⟩ := key.isBareName.exists_cons
    (' ' :: '=' :: ' ' :: (key.written ++ '\n' :: rest))
  rw [hline, heq] at hread ⊢
  rw [readExpressions_of_isBare hc, hread]
  rfl

/-- The keys of a section come behind one another. -/
theorem leadsOn_keys (keys : List WrittenKey) {entries : List (String × Value)}
    (hnew : name ∉ done.map Prod.fst)
    (hnodup : (entries.map Prod.fst ++ keys.map WrittenKey.name).Nodup) :
    LeadsOn ⟨(.header, done ++ [(name, .table .header entries)]), [name]⟩
      (keys.flatMap WrittenKey.line ++ rest)
      ⟨(.header, done ++ [(name, .table .header (entries ++ keys.map WrittenKey.entry))]), [name]⟩
      rest := by
  induction keys generalizing entries with
  | nil => simpa using LeadsOn.refl
  | cons key keys ih =>
    have hkey : key.name ∉ entries.map Prod.fst := fun hmem =>
      (List.nodup_append.mp hnodup).2.2 _ hmem _ (.head _) rfl
    have hrest : ((entries ++ [key.entry]).map Prod.fst ++ keys.map WrittenKey.name).Nodup := by
      simpa [WrittenKey.entry] using hnodup
    have hfirst : LeadsOn _ (key.line ++ (keys.flatMap WrittenKey.line ++ rest)) _ _ :=
      leadsOn_key key hnew hkey
    simpa using hfirst.trans (ih hrest)

/-- A section comes behind the others. -/
theorem leadsOn_section (part : WrittenSection) (hnew : part.name ∉ done.map Prod.fst)
    (header : List String) :
    LeadsOn ⟨(.header, done), header⟩ (part.text ++ rest)
      ⟨(.header, done ++ [part.entry]), [part.name]⟩ rest := by
  have htext : part.text ++ rest = '[' :: (part.name.toList ++ ']' :: '\n' ::
      (part.keys.flatMap WrittenKey.line ++ rest)) := by
    simp [WrittenSection.text]
  rw [htext]
  exact (leadsOn_header part.isBareName hnew header).trans
    (leadsOn_keys part.keys hnew (by simpa using part.nodup))

end Expressions

/-! ## Documents -/

/-- Some pieces of text in their order, with any empty lines before, between and behind them. -/
inductive Spaced : List String → String → Prop
  /-- There is nothing. -/
  | none : Spaced [] ""
  /-- An empty line comes first. -/
  | feed {pieces : List String} {document : String} (h : Spaced pieces document) :
      Spaced pieces ("\n" ++ document)
  /-- A piece comes first. -/
  | piece {pieces : List String} {document : String} (piece : String)
      (h : Spaced pieces document) : Spaced (piece :: pieces) (piece ++ document)

theorem spaced_intercalate (pieces : List String) : Spaced pieces ("\n".intercalate pieces) := by
  induction pieces with
  | nil => exact .none
  | cons piece pieces ih =>
    cases pieces with
    | nil =>
      have hlast : Spaced [piece] (piece ++ "") := .piece piece .none
      rwa [String.append_empty] at hlast
    | cons next pieces =>
      rw [String.intercalate_cons_cons, String.append_assoc]
      exact .piece piece (.feed ih)

/-- The text of a section. -/
def WrittenSection.document (part : WrittenSection) : String := String.ofList part.text

/-- Sections come behind one another, whatever empty lines stand around them. -/
theorem Spaced.leadsOn {parts : List WrittenSection} {document : String}
    (h : Spaced (parts.map WrittenSection.document) document) (done : List (String × Value))
    (header : List String)
    (hnodup : (done.map Prod.fst ++ parts.map WrittenSection.name).Nodup) :
    ∃ header', LeadsOn ⟨(.header, done), header⟩ document.toList
      ⟨(.header, done ++ parts.map WrittenSection.entry), header'⟩ [] := by
  generalize hpieces : parts.map WrittenSection.document = pieces at h
  induction h generalizing parts done header with
  | none =>
    obtain rfl := List.map_eq_nil_iff.mp hpieces
    exact ⟨header, by simpa using LeadsOn.refl⟩
  | feed _ ih =>
    obtain ⟨header', hrest⟩ := ih done header hnodup hpieces
    rw [String.toList_append]
    exact ⟨header', leadsOn_feed.trans hrest⟩
  | piece _ _ ih =>
    obtain ⟨part, parts, rfl, rfl, hrest⟩ := List.map_eq_cons_iff.mp hpieces
    have hnew : part.name ∉ done.map Prod.fst := fun hmem =>
      (List.nodup_append.mp hnodup).2.2 _ hmem _ (.head _) rfl
    have hlater : ((done ++ [part.entry]).map Prod.fst ++ parts.map WrittenSection.name).Nodup := by
      simpa [WrittenSection.entry] using hnodup
    obtain ⟨header', hparts⟩ := ih (done ++ [part.entry]) [part.name] hlater hrest
    rw [String.toList_append, WrittenSection.document, String.toList_ofList, List.map_cons,
      List.append_cons]
    exact ⟨header', (leadsOn_section part hnew header).trans hparts⟩

/-- A document of sections begins with a bracket or a line feed or is empty, so no byte order mark
is dropped. -/
theorem Spaced.skipMark_eq {parts : List WrittenSection} {document : String}
    (h : Spaced (parts.map WrittenSection.document) document) :
    skipMark document.toList = document.toList := by
  generalize hpieces : parts.map WrittenSection.document = pieces at h
  cases h with
  | none => rfl
  | feed => simp [skipMark]
  | piece =>
    obtain ⟨part, parts, rfl, rfl, -⟩ := List.map_eq_cons_iff.mp hpieces
    rw [String.toList_append, WrittenSection.document, String.toList_ofList]
    rfl

/-- A document of sections is read as the tables of its keys. -/
theorem readDocument_spaced {parts : List WrittenSection} {document : String}
    (hnodup : (parts.map WrittenSection.name).Nodup)
    (h : Spaced (parts.map WrittenSection.document) document) :
    readDocument document = some (.header, parts.map WrittenSection.entry) := by
  obtain ⟨header, hleads⟩ := h.leadsOn [] [] (by simpa using hnodup)
  obtain ⟨fuel, hfuel, hread⟩ := hleads _ (Nat.lt_succ_self _)
  obtain ⟨fuel, rfl⟩ := Nat.exists_eq_add_one.mpr (Nat.zero_lt_of_lt hfuel)
  rw [readDocument, h.skipMark_eq]
  exact hread

end BucketCare.Toml

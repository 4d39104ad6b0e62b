import BucketCare.Proofs.Csv
import BucketCare.Proofs.Text.Bytes

/-!
# Reading a report back

A field is written so that the reader is through with it exactly at the separator or the line feed
behind it: what needs quotation marks stands inside of them, where separators and line ends are
characters like others and a quotation mark is written twice. So the fields of a record are read
one by one, a report is read line by line, and its records are the header and the rows that were
written.

## Main definitions

* `Csv.fieldText` — a field as it stands in a report
* `Csv.Writer.sofar` — what is written, with the end of an open field
* `Csv.Report.addRows` — rows that are added one after the other

## Main results

* `Csv.line_cons` — the line of a record
* `Csv.readFrom_fieldText` — a field is read up to what stands behind it
* `Csv.read_join` — a text of lines is read as their records
* `Csv.Report.read_addRows` — a report is read as its header and its rows
-/

namespace BucketCare

/-- A separator that is accepted is written as the one byte that it is. -/
theorem toUTF8_of_parseSeparator {value : String} {separator : UInt8}
    (h : parseSeparator value = .ok separator) :
    (String.singleton (Char.ofNat separator.toNat)).toUTF8.toList = [separator] := by
  unfold parseSeparator at h
  split at h
  next =>
    cases h
    decide +kernel
  next =>
    split at h
    next byte hbytes =>
      cases h
      rw [← Text.eq_singleton_of_bytes (Text.toList_toUTF8 value ▸ hbytes), hbytes]
    next => cases h

namespace Csv

variable {separator c : Char} {value rest : List Char} {field : List Char} {fields : List String}

/-! ## Fields as they are written -/

/-- A field as it stands in a report: inside quotation marks, if it needs them. -/
def fieldText (separator : Char) (value : List Char) : List Char :=
  if needsQuotes separator value then quoteMark :: doubleQuotes value ++ [quoteMark] else value

/-- Fields that stand in a report each behind a separator. -/
def moreFields (separator : Char) (values : List String) : List Char :=
  values.flatMap fun value => separator :: fieldText separator value.toList

namespace Writer

variable (w : Writer)

/-- What is written, with the closing quotation mark of an open field. -/
def sofar : List Char := w.done.toList ++ w.closing

theorem field_sofar_of_first (hfirst : w.fields = 0) (value : List Char) :
    (w.field value).sofar = w.done.toList ++ fieldText w.separator value := by
  cases hneeds : needsQuotes w.separator value <;>
    simp [sofar, field, closing, fieldText, hfirst, hneeds]

theorem field_sofar_of_next (hnext : w.fields ≠ 0) (value : List Char) :
    (w.field value).sofar = w.sofar ++ w.separator :: fieldText w.separator value := by
  cases hneeds : needsQuotes w.separator value <;>
    simp [sofar, field, closing, fieldText, hnext, hneeds]

theorem foldl_field_sofar (hnext : w.fields ≠ 0) (values : List String) :
    (values.foldl (fun w value => w.field value.toList) w).sofar =
      w.sofar ++ moreFields w.separator values := by
  induction values generalizing w with
  | nil => simp [moreFields]
  | cons value rest ih =>
    rw [List.foldl_cons, ih _ (Nat.succ_ne_zero _), field_sofar_of_next w hnext]
    simp [moreFields, field]

/-- A line has characters from its second field on. -/
theorem foldl_field_lineStarted (hnext : w.fields ≠ 0) (values : List String) :
    (values.foldl (fun w value => w.field value.toList) w).lineStarted =
      (w.lineStarted || !values.isEmpty) := by
  induction values generalizing w with
  | nil => simp
  | cons value rest ih =>
    rw [List.foldl_cons, ih _ (Nat.succ_ne_zero _)]
    simp [field, hnext]

/-- A first field that has characters starts the line. -/
theorem field_lineStarted_of_new {value : List Char} (h : value ≠ []) :
    ((new separator).field value).lineStarted = true := by
  cases hneeds : needsQuotes separator value <;> simp [field, new, hneeds, h]

/-- A line that has characters ends with a line feed. -/
theorem endRecord_text (hexpected : w.expected = none) (hstarted : w.lineStarted = true) :
    w.endRecord.2.text.toList = w.sofar ++ ['\n'] := by
  rw [endRecord_of_expected w (by simp [hexpected]), hstarted]
  simp [text, sofar]

end Writer

/-- The line of a record is its fields, divided by the separator; only an empty line is not written
as such. -/
theorem line_cons (separator : Char) {first : String} {values : List String}
    (h : first :: values ≠ [""]) :
    (line separator (first :: values)).toList =
      fieldText separator first.toList ++ moreFields separator values ++ ['\n'] := by
  let begun := (Writer.new separator).field first.toList
  have hnext : begun.fields ≠ 0 := Nat.succ_ne_zero 0
  have hstarted :
      (values.foldl (fun w value => w.field value.toList) begun).lineStarted = true := by
    rw [begun.foldl_field_lineStarted hnext]
    cases values with
    | nil =>
      have hfirst : first.toList ≠ [] := fun hnil => h (by rw [String.toList_eq_nil_iff.mp hnil])
      simp [begun, Writer.field_lineStarted_of_new hfirst]
    | cons => simp
  have hexpected := (begun.foldl_field_keeps values).2.1
  rw [line, Writer.record, List.foldl_cons, Writer.endRecord_text _ hexpected hstarted,
    begun.foldl_field_sofar hnext, Writer.field_sofar_of_first _ rfl]
  rfl

example : (Report.holding ';' ["key", "size"] [["a;b", "10"], ["c", "0"]]).text =
    "key;size\n\"a;b\";10\nc;0\n" := by decide

theorem line_empty (separator : Char) :
    (line separator [""]).toList = [quoteMark, quoteMark, '\n'] := by
  simp [line, Writer.record, Writer.field, Writer.endRecord, Writer.new, Writer.text, needsQuotes]

/-! ## Fields as they are read -/

/-- What begins without a quotation mark is read as a field without them. -/
theorem readFrom_start (hc : c ≠ quoteMark) :
    readFrom separator .start field fields (c :: rest) =
      readFrom separator .plain field fields (c :: rest) := by
  simp [readFrom, hc]

/-- A separator or a line feed ends a field with quotation marks as one without them. -/
theorem readFrom_afterQuote (hc : c ≠ quoteMark) (hend : c = separator ∨ c = '\n') :
    readFrom separator .afterQuote field fields (c :: rest) =
      readFrom separator .plain field fields (c :: rest) := by
  rcases hend with rfl | rfl <;> simp [readFrom, hc]

/-- A quotation mark at the start of a field opens it. -/
theorem readFrom_open (hquote : separator ≠ quoteMark) :
    readFrom separator .start field fields (quoteMark :: rest) =
      readFrom separator .quoted [] fields rest := by
  rw [readFrom, if_neg hquote.symm, if_neg (by decide), if_pos rfl, if_pos rfl]

/-- A separator ends a field. -/
theorem readFrom_separator :
    readFrom separator .plain field fields (separator :: rest) =
      readFrom separator .start [] (fields ++ [String.ofList field.reverse]) rest := by
  rw [readFrom, if_pos rfl]

/-- A line feed ends a record. -/
theorem readFrom_lineFeed (hfeed : separator ≠ '\n') :
    readFrom separator .plain field fields ('\n' :: rest) =
      (readFrom separator .start [] [] rest).map
        ((fields ++ [String.ofList field.reverse]) :: ·) := by
  rw [readFrom, if_neg hfeed.symm, if_pos rfl]

/-- A field that needs no quotation marks is read character by character. -/
theorem readFrom_plain (h : needsQuotes separator value = false) :
    readFrom separator .plain field fields (value ++ rest) =
      readFrom separator .plain (value.reverse ++ field) fields rest := by
  induction value generalizing field with
  | nil => rfl
  | cons c cs ih =>
    obtain ⟨⟨hquote, hseparator, -, hfeed⟩, hcs⟩ :
        (c ≠ quoteMark ∧ c ≠ separator ∧ c ≠ '\r' ∧ c ≠ '\n') ∧
          needsQuotes separator cs = false := by
      simpa [needsQuotes, and_assoc] using h
    rw [List.cons_append, readFrom]
    simp only [hquote, hseparator, hfeed, if_false]
    rw [ih hcs, List.reverse_cons, List.append_assoc, List.singleton_append]

/-- Inside quotation marks, a quotation mark is read from two and other characters as they are. -/
theorem readFrom_quoted (value : List Char) :
    readFrom separator .quoted field fields (doubleQuotes value ++ rest) =
      readFrom separator .quoted (value.reverse ++ field) fields rest := by
  induction value generalizing field with
  | nil => rfl
  | cons c cs ih =>
    rw [doubleQuotes, List.reverse_cons, List.append_assoc, List.singleton_append]
    split
    next hquote =>
      rw [List.cons_append, List.cons_append, readFrom, if_pos hquote, readFrom, if_pos hquote, ih]
    next hplain => rw [List.cons_append, readFrom, if_neg hplain, ih]

/-- A field is read up to the separator or the line feed behind it. -/
theorem readFrom_fieldText (hquote : separator ≠ quoteMark) (value : List Char)
    (hend : c = separator ∨ c = '\n') :
    readFrom separator .start [] fields (fieldText separator value ++ c :: rest) =
      readFrom separator .plain value.reverse fields (c :: rest) := by
  have hc : c ≠ quoteMark := by
    rcases hend with rfl | rfl
    · exact hquote
    · decide
  cases hneeds : needsQuotes separator value with
  | false =>
    have hplain : readFrom separator .plain [] fields (value ++ c :: rest) =
        readFrom separator .plain value.reverse fields (c :: rest) := by
      rw [readFrom_plain hneeds, List.append_nil]
    rw [fieldText, hneeds, if_neg Bool.false_ne_true, ← hplain]
    cases value with
    | nil => exact readFrom_start hc
    | cons first more =>
      have hfirst : first ≠ quoteMark := by
        rintro rfl
        simp [needsQuotes] at hneeds
      exact readFrom_start hfirst
  | true =>
    rw [fieldText, hneeds, if_pos rfl, List.append_assoc, List.cons_append, List.singleton_append,
      readFrom_open hquote, readFrom_quoted, List.append_nil, readFrom, if_pos rfl,
      readFrom_afterQuote hc hend]

/-! ## Records and reports -/

/-- The fields of a record are read up to the line feed behind them. -/
theorem readFrom_moreFields (hquote : separator ≠ quoteMark) (hfeed : separator ≠ '\n')
    (first : String) (values : List String) :
    readFrom separator .start [] fields
        (fieldText separator first.toList ++ moreFields separator values ++ '\n' :: rest) =
      (readFrom separator .start [] [] rest).map ((fields ++ first :: values) :: ·) := by
  induction values generalizing first fields with
  | nil =>
    rw [moreFields, List.flatMap_nil, List.append_nil, readFrom_fieldText hquote _ (.inr rfl),
      readFrom_lineFeed hfeed, List.reverse_reverse, String.ofList_toList]
  | cons next values ih =>
    have hcons : moreFields separator (next :: values) =
        separator :: (fieldText separator next.toList ++ moreFields separator values) := by
      rw [moreFields, List.flatMap_cons, List.cons_append]
      rfl
    rw [hcons, List.append_assoc, List.cons_append, readFrom_fieldText hquote _ (.inl rfl),
      readFrom_separator, List.reverse_reverse, String.ofList_toList, ih, List.append_assoc,
      List.singleton_append]

/-- The line of a record is read as the record. -/
theorem readFrom_line (hquote : separator ≠ quoteMark) (hfeed : separator ≠ '\n')
    {values : List String} (hvalues : values ≠ []) :
    readFrom separator .start [] [] ((line separator values).toList ++ rest) =
      (readFrom separator .start [] [] rest).map (values :: ·) := by
  obtain ⟨first, values, rfl⟩ := List.exists_cons_of_ne_nil hvalues
  by_cases hempty : first :: values = [""]
  · rw [hempty, line_empty, List.cons_append, readFrom_open hquote, List.cons_append, readFrom,
      if_pos rfl, List.singleton_append, readFrom_afterQuote (by decide) (.inr rfl),
      readFrom_lineFeed hfeed]
    rfl
  · rw [line_cons separator hempty, List.append_assoc, List.singleton_append,
      readFrom_moreFields hquote hfeed, List.nil_append]

/-- Lines are read as their records. -/
theorem read_join (hquote : separator ≠ quoteMark) (hfeed : separator ≠ '\n')
    {records : List (List String)} (hrecords : ∀ values ∈ records, values ≠ []) :
    read? separator (String.join (records.map (line separator))) = some records := by
  rw [read?]
  induction records with
  | nil => rfl
  | cons values rest ih =>
    obtain ⟨hvalues, hrest⟩ := List.forall_mem_cons.mp hrecords
    rw [List.map_cons, String.join_cons, String.toList_append, readFrom_line hquote hfeed hvalues,
      ih hrest, Option.map_some]

/-- Rows that are added one after the other: what each of them gives, and the report after them. -/
def Report.addRows (report : Report) : List (List String) → List (Except Error Unit) × Report
  | [] => ([], report)
  | values :: rest =>
    let (result, report) := report.row values
    let (results, report) := report.addRows rest
    (result :: results, report)

/-- Rows with as many fields as the header are added to the others. -/
theorem Report.addRows_holding (separator : Char) {header : List String}
    (rows : List (List String)) {more : List (List String)}
    (h : ∀ values ∈ more, values.length = header.length) :
    (Report.holding separator header rows).addRows more =
      (more.map fun _ => .ok (), .holding separator header (rows ++ more)) := by
  induction more generalizing rows with
  | nil => simp [addRows]
  | cons values rest ih =>
    obtain ⟨hvalues, hrest⟩ := List.forall_mem_cons.mp h
    rw [addRows, row_holding separator rows hvalues]
    dsimp only
    rw [ih _ hrest, List.append_assoc, List.singleton_append, List.map_cons]

/-- Two bytes are the numbers of two characters. -/
theorem char_ne_of_byte_ne {byte other : UInt8} (h : byte ≠ other) :
    Char.ofNat byte.toNat ≠ Char.ofNat other.toNat := by
  intro heq
  have hsame := congrArg Char.toNat heq
  rw [Text.toNat_ofNat_toNat, Text.toNat_ofNat_toNat] at hsame
  exact h (UInt8.toNat_inj.mp hsame)

/-- A report with a header that has fields takes every row with as many fields, and counts them. It
is read as its header and these rows, if its separator is neither the quotation mark nor the line
feed; the separator is written as the one byte that was accepted. -/
theorem Report.read_addRows {value : String} {separator : UInt8} {header : List String}
    {rows : List (List String)} (hvalue : parseSeparator value = .ok separator)
    (hquote : separator ≠ 0x22) (hfeed : separator ≠ 0x0A) (hheader : header ≠ [])
    (hrows : ∀ values ∈ rows, values.length = header.length) :
    let divider := Char.ofNat separator.toNat
    ∃ report written,
      (do Report.new (← parseSeparator value) header) = .ok report ∧
      report.addRows rows = (rows.map fun _ => .ok (), written) ∧
      written.rows = rows.length ∧
      (String.singleton divider).toUTF8.toList = [separator] ∧
      read? divider written.text = some (header :: rows) := by
  intro divider
  have hrecords : ∀ values ∈ header :: rows, values ≠ [] := by
    refine List.forall_mem_cons.mpr ⟨hheader, fun values hmem hnil => hheader ?_⟩
    have hlength := hrows values hmem
    rw [hnil] at hlength
    exact List.eq_nil_of_length_eq_zero hlength.symm
  refine ⟨.holding divider header [], .holding divider header rows, ?_,
    Report.addRows_holding divider [] hrows, rfl, toUTF8_of_parseSeparator hvalue, ?_⟩
  · rw [hvalue]
    exact Report.new_eq separator header
  · exact read_join (char_ne_of_byte_ne hquote) (char_ne_of_byte_ne hfeed) hrecords

/-- Fields with the separator, quotation marks and a line end, and empty fields, are read back. -/
theorem Report.read_addRows_of_quoted :
    let rows := [["a;b", "so \"called\"\r\n"], ["", ""]]
    ∃ report written,
      (do Report.new (← parseSeparator ";") ["key", "note"]) = .ok report ∧
      report.addRows rows = ([.ok (), .ok ()], written) ∧ written.rows = 2 ∧
      read? ';' written.text = some (["key", "note"] :: rows) := by
  intro rows
  have hbytes : ";".toUTF8.toList = [0x3B] := by decide +kernel
  have hvalue : parseSeparator ";" = .ok 0x3B := by
    rw [parseSeparator, if_neg (by decide), hbytes]
  obtain ⟨report, written, hreport, hrows, hcount, -, hread⟩ :=
    Report.read_addRows hvalue (by decide) (by decide) (show ["key", "note"] ≠ [] from nofun)
      (show ∀ values ∈ rows, values.length = 2 by decide)
  exact ⟨report, written, hreport, hrows, hcount, hread⟩

end Csv

end BucketCare

import BucketCare.Error

/-!
# Separated values

Reports with one record to a line, fields divided by a separator of one byte. A field is quoted
only when it holds a quotation mark, the separator, a carriage return or a line feed; a quotation
mark inside a quoted field is written twice. A record that would leave its line empty is written
as an empty quoted field.

A record is checked when it ends: it must have as many fields as the first record. The fields of
a refused record stay where they were written, and the next record goes on in the same line.

## Main definitions

* `parseSeparator` — the separator that an option value names
* `Csv.Writer` — a report in writing, with `Csv.Writer.record` and `Csv.Writer.text`
* `Csv.Report` — a report with a header and a count of rows
* `Csv.read?` — the records of a written report
-/

namespace BucketCare

/-- The separator that an option value names: a value of one byte is that byte, and a tabulator
may be spelled out. -/
def parseSeparator (value : String) : Except Error UInt8 :=
  if value = "\\t" ∨ value = "tab" then .ok 9
  else match value.toUTF8.toList with
    | [byte] => .ok byte
    | _ => .error (.usage ("separator must be a single character, got '" ++ value ++ "'"))

namespace Csv

/-- The quotation mark. -/
def quoteMark : Char := '\x22'

/-- A field holds a character that can only stand inside quotation marks. -/
def needsQuotes (separator : Char) (field : List Char) : Bool :=
  field.any fun c => c == quoteMark || c == separator || c == '\r' || c == '\n'

/-- The inside of a quoted field: each quotation mark twice. -/
def doubleQuotes : List Char → List Char
  | [] => []
  | c :: rest => if c = quoteMark then c :: c :: doubleQuotes rest else c :: doubleQuotes rest

/-- A report in writing. -/
structure Writer where
  /-- Divides the fields of a record. -/
  separator : Char
  /-- The text so far, without the closing quotation mark of an open field. -/
  done : String
  /-- The last field was quoted and its closing quotation mark is not yet written. -/
  openQuote : Bool
  /-- The current line has characters. -/
  lineStarted : Bool
  /-- The fields of the current line. -/
  fields : Nat
  /-- The number of fields of the first record. -/
  expected : Option Nat
  deriving DecidableEq, Repr

namespace Writer

/-- An empty report. -/
def new (separator : Char) : Writer := ⟨separator, "", false, false, 0, none⟩

/-- The closing quotation mark of the last field, if it is still to be written. -/
def closing (w : Writer) : List Char := if w.openQuote then [quoteMark] else []

/-- One more field of the current record. -/
def field (w : Writer) (value : List Char) : Writer :=
  let before := if w.fields = 0 then [] else w.closing ++ [w.separator]
  let quoted := needsQuotes w.separator value
  let body := if quoted then quoteMark :: doubleQuotes value else value
  { w with
    done := w.done ++ String.ofList (before ++ body)
    openQuote := quoted
    lineStarted := w.lineStarted || !(before ++ body).isEmpty
    fields := w.fields + 1 }

/-- The end of the current record, refused if its number of fields is not that of the first. -/
def endRecord (w : Writer) : Except Error Unit × Writer :=
  let expected := w.expected.getD w.fields
  if w.fields ≠ expected then
    let text := s!"CSV error: found record with {w.fields} fields, but the previous record " ++
      s!"has {expected} fields"
    (.error (.csv text), w)
  else
    let line := if w.lineStarted then w.closing ++ ['\n'] else [quoteMark, quoteMark, '\n']
    (.ok (),
      { w with
        done := w.done ++ String.ofList line
        openQuote := false
        lineStarted := false
        fields := 0
        expected := some expected })

/-- One more record. -/
def record (w : Writer) (values : List String) : Except Error Unit × Writer :=
  (values.foldl (fun w value => w.field value.toList) w).endRecord

/-- The text written so far. -/
def text (w : Writer) : String := w.done

end Writer

/-- A report with a header, and the number of rows under it. -/
structure Report where
  writer : Writer
  rows : Nat
  deriving DecidableEq, Repr

namespace Report

/-- A report that holds only its header. -/
def new (separator : UInt8) (header : List String) : Except Error Report :=
  let (result, writer) := (Writer.new (Char.ofNat separator.toNat)).record header
  result.map fun _ => ⟨writer, 0⟩

/-- One more row; a refused row is not counted. -/
def row (report : Report) (values : List String) : Except Error Unit × Report :=
  match report.writer.record values with
  | (.ok _, writer) => (.ok (), ⟨writer, report.rows + 1⟩)
  | (.error e, writer) => (.error e, ⟨writer, report.rows⟩)

/-- The text of the report. -/
def text (report : Report) : String := report.writer.text

end Report

/-- Where the reader of a report stands in a field. -/
inductive Place where
  /-- Before the first character of a field. -/
  | start
  /-- In a field without quotation marks. -/
  | plain
  /-- Inside quotation marks. -/
  | quoted
  /-- Behind a quotation mark inside a quoted field: its end, or the first of two. -/
  | afterQuote
  deriving DecidableEq, Repr

/-- The records of a written report, read with the current field in reverse and the fields of the
current record before it. Refused are a quotation mark in a plain field, a character behind a
closing quotation mark, and an end of the text inside a record. -/
def readFrom (separator : Char) (place : Place) (field : List Char) (fields : List String) :
    List Char → Option (List (List String))
  | [] => if place = .start ∧ fields.isEmpty then some [] else none
  | c :: rest =>
    let endField := fields ++ [String.ofList field.reverse]
    match place with
    | .quoted =>
      if c = quoteMark then readFrom separator .afterQuote field fields rest
      else readFrom separator .quoted (c :: field) fields rest
    | .start | .plain =>
      if c = separator then readFrom separator .start [] endField rest
      else if c = '\n' then (readFrom separator .start [] [] rest).map (endField :: ·)
      else if c = quoteMark then
        if place = .start then readFrom separator .quoted [] fields rest else none
      else readFrom separator .plain (c :: field) fields rest
    | .afterQuote =>
      if c = quoteMark then readFrom separator .quoted (c :: field) fields rest
      else if c = separator then readFrom separator .start [] endField rest
      else if c = '\n' then (readFrom separator .start [] [] rest).map (endField :: ·)
      else none

/-- The records of a written report. -/
def read? (separator : Char) (text : String) : Option (List (List String)) :=
  readFrom separator .start [] [] text.toList

end Csv

end BucketCare

import BucketCare.Csv

/-!
# Reports row by row

A report whose rows all have as many fields as its header is the lines of its records, one behind
the other: no row is refused, and what a row adds does not depend on what stands before it.

## Main definitions

* `Csv.line` — a record as a line
* `Csv.Report.holding` — a report that holds some rows under its header

## Main results

* `Csv.Report.new_eq`, `Csv.Report.row_holding` — a new report, and a report with one more row
-/

namespace BucketCare

namespace Csv

/-- A record as a line of a report. -/
def line (separator : Char) (values : List String) : String :=
  ((Writer.new separator).record values).2.text

/-- A report that holds some rows under its header. -/
def Report.holding (separator : Char) (header : List String) (rows : List (List String)) : Report :=
  ⟨⟨separator, String.join ((header :: rows).map (line separator)), false, false, 0,
    some header.length⟩, rows.length⟩

namespace Writer

/-- The same writer behind some text, where a number of fields is expected or not. -/
def behind (text : String) (expected : Option Nat) (w : Writer) : Writer :=
  { w with done := text ++ w.done, expected }

variable (text : String) (expected : Option Nat) (w : Writer)

theorem field_behind (value : List Char) :
    (w.behind text expected).field value = (w.field value).behind text expected := by
  simp only [behind, field, closing, String.append_assoc]
  rfl

theorem foldl_field_behind (values : List String) :
    values.foldl (fun w value => w.field value.toList) (w.behind text expected) =
      (values.foldl (fun w value => w.field value.toList) w).behind text expected := by
  induction values generalizing w with
  | nil => rfl
  | cons value rest ih => rw [List.foldl_cons, field_behind, ih, List.foldl_cons]

theorem foldl_field_keeps (values : List String) :
    let written := values.foldl (fun w value => w.field value.toList) w
    written.separator = w.separator ∧ written.expected = w.expected ∧
      written.fields = w.fields + values.length := by
  induction values generalizing w with
  | nil => exact ⟨rfl, rfl, rfl⟩
  | cons value rest ih =>
    obtain ⟨hseparator, hexpected, hfields⟩ := ih (w.field value.toList)
    refine ⟨hseparator, hexpected, hfields.trans ?_⟩
    rw [List.length_cons, ← Nat.add_assoc, Nat.add_right_comm]
    rfl

theorem endRecord_of_expected (h : w.expected.getD w.fields = w.fields) :
    w.endRecord = (.ok (), ⟨w.separator,
      w.done ++ String.ofList
        (if w.lineStarted then w.closing ++ ['\n'] else [quoteMark, quoteMark, '\n']),
      false, false, 0, some w.fields⟩) := by
  simp [endRecord, h]

theorem endRecord_behind (hnone : w.expected = none) (h : expected.getD w.fields = w.fields) :
    (w.behind text expected).endRecord =
      (.ok (), ⟨w.separator, text ++ w.endRecord.2.text, false, false, 0, some w.fields⟩) := by
  rw [endRecord_of_expected (w.behind text expected) h, endRecord_of_expected w (by simp [hnone]),
    Writer.text, ← String.append_assoc]
  rfl

/-- A record with the fields that are expected adds its line. -/
theorem record_behind (separator : Char) (values : List String)
    (h : expected.getD values.length = values.length) :
    ((new separator).behind text expected).record values =
      (.ok (),
        ⟨separator, text ++ line separator values, false, false, 0, some values.length⟩) := by
  obtain ⟨hseparator, hexpected, hfields⟩ := foldl_field_keeps (new separator) values
  have hcount : (new separator).fields + values.length = values.length := Nat.zero_add _
  rw [hcount] at hfields
  rw [record, foldl_field_behind, endRecord_behind _ _ _ hexpected (hfields.symm ▸ h), hfields,
    hseparator]
  rfl

end Writer

theorem Report.new_eq (separator : UInt8) (header : List String) :
    Report.new separator header = .ok (.holding (Char.ofNat separator.toNat) header []) := by
  have h := Writer.record_behind "" none (Char.ofNat separator.toNat) header rfl
  have hnew : (Writer.new (Char.ofNat separator.toNat)).behind "" none =
      Writer.new (Char.ofNat separator.toNat) := by simp [Writer.behind, Writer.new]
  rw [hnew] at h
  simp [Report.new, h, Except.map, holding]

/-- A row with as many fields as the header is added to the others. -/
theorem Report.row_holding (separator : Char) {header : List String} (rows : List (List String))
    {values : List String} (h : values.length = header.length) :
    (Report.holding separator header rows).row values =
      (.ok (), .holding separator header (rows ++ [values])) := by
  have hrecord := Writer.record_behind (String.join ((header :: rows).map (line separator)))
    (some header.length) separator values h.symm
  have hwriter : (holding separator header rows).writer =
      (Writer.new separator).behind (String.join ((header :: rows).map (line separator)))
        (some header.length) := by
    simp [Writer.behind, Writer.new, holding]
  rw [Report.row, hwriter, hrecord]
  simp [holding, h, String.append_assoc]

end Csv

end BucketCare

/-
# Evaluation reports

A report has one row for each measured or unmeasured precondition, in the order
of the records that it is made from.  For people the rows are grouped under
headings: a heading names a test and its condition, and stands before each row
whose test or condition differs from that of the row before.
-/

import PreconditionMining.Data.Document
import PreconditionMining.Suite.Accuracy
import PreconditionMining.Text.Timestamp

namespace PreconditionMining

/-- What a report says of one precondition.  The accuracies are in percent, and there are none
where nothing was measured. -/
structure ReportRow where
  testName : String
  condition : String
  precondition : String
  rawAccuracy : Option Float
  resultingAccuracy : Option Float
  measured : Bool

/-- A report. -/
structure Report where
  rows : List ReportRow

namespace ReportRow

/-- A share in percent. -/
def percent (share : Float) : Float := share * 100

/-- The row of a record. -/
def ofRecord (r : AccuracyRecord) : ReportRow where
  testName := r.test.name
  condition := r.test.condition.description
  precondition := r.precondition.text
  rawAccuracy := r.measurement.map fun m => percent m.raw.precision
  resultingAccuracy := r.measurement.map fun m => percent m.constrained.precision
  measured := r.isMeasured

/-- What the heading above a row names. -/
def key (r : ReportRow) : String × String := (r.testName, r.condition)

/-- The line of the heading above a row. -/
def heading (r : ReportRow) : String := "[Test] " ++ r.testName ++ " (" ++ r.condition ++ ")\n"

/-- The lines of a row. -/
def entry (r : ReportRow) : String :=
  match r.rawAccuracy, r.resultingAccuracy with
  | some raw, some resulting =>
    "- Found precondition (accuracy " ++ Fixed.ofFloat 1 raw ++ "% -> " ++
      Fixed.ofFloat 1 resulting ++ "%)\n  " ++ r.precondition ++ "\n"
  | _, _ => "- Unmeasured precondition\n  " ++ r.precondition ++ "\n"

/-- The lines of rows below a heading. -/
def entriesUnder (current : Option (String × String)) : List ReportRow → String
  | [] => ""
  | r :: rest =>
    (if current = some r.key then "" else r.heading) ++ r.entry ++ entriesUnder (some r.key) rest

/-- A row as a document. -/
def document (r : ReportRow) : Document :=
  .record [("test_name", .text r.testName), ("condition", .text r.condition),
    ("precondition", .text r.precondition),
    ("raw_accuracy", r.rawAccuracy.elim .null .number),
    ("resulting_accuracy", r.resultingAccuracy.elim .null .number),
    ("measured", .bool r.measured)]

end ReportRow

namespace Report

/-- The report of some records. -/
def ofRecords (records : List AccuracyRecord) : Report := ⟨records.map .ofRecord⟩

/-- How many preconditions were measured. -/
def measured (r : Report) : Nat := r.rows.countP (·.measured)

/-- How many preconditions could not be measured. -/
def unmeasured (r : Report) : Nat := r.rows.length - r.measured

/-- The line below all rows. -/
def totals (r : Report) : String :=
  "Measured " ++ toString r.measured ++ " and could not measure " ++ toString r.unmeasured ++
    " preconditions"

/-- The report for people. -/
def text (r : Report) : String := ReportRow.entriesUnder none r.rows ++ r.totals

/-- The report as a document that says when it was made. -/
def document (r : Report) (generatedAt : Timestamp) : Document :=
  .record [("generated_at", .text generatedAt.text), ("rows", .list (r.rows.map (·.document))),
    ("measured", .natural r.measured), ("unmeasured", .natural r.unmeasured)]

/-- The written document of a report. -/
def json (r : Report) (generatedAt : Timestamp) : String := (r.document generatedAt).write 0

theorem measured_add_unmeasured (r : Report) : r.measured + r.unmeasured = r.rows.length := by
  have : r.measured ≤ r.rows.length := List.countP_le_length
  simp only [unmeasured]
  omega

end Report

end PreconditionMining

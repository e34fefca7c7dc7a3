/-
# What a report says of which precondition

A report is made of the records of an evaluation, which has one for each pair of a test and
a precondition that was learned for it.  `ReportRow.Accounts` says what a row has to say of
such a pair, and `Suite.accounts_of_evaluate` that the rows do so, each for the pair in its
place and for the measurement of that pair.

For people each row is printed as an entry, and `AccuracyRecord.Entry` says what that has
to be for the record that the row is made of (`entry_ofRecord`).  Below all rows there is a
line with the totals, which count the records (`totals_ofRecords`).

The rows are printed under headings, by a loop that remembers the last heading.  What the
loop prints is told by `RowGroup`: rows that follow one another and are about one test and
one of its conditions, printed below a heading that names these.  `groups` divides rows into
such groups so that no two neighbours could be one (`isChain_groups`), and the loop prints
one group after another (`entriesUnder_eq`).  A row is therefore below a heading of its own
test and condition, with nothing but rows of the same group in between.

`Report.accounts_for_each_precondition` puts all this together.
-/

import Mathlib.Data.List.Chain
import PreconditionMining.Proofs.Suite.Evaluation

namespace PreconditionMining

/-- What a row has to say of a precondition of a test, and of its measurement if there is one. -/
structure ReportRow.Accounts (row : ReportRow) (t : ObservedTest) (f : Formula)
    (m : Option Measurement) : Prop where
  testName : row.testName = t.name
  condition : row.condition = t.condition.description
  precondition : row.precondition = f.text
  rawAccuracy : row.rawAccuracy = m.map fun m => m.raw.precision * 100
  resultingAccuracy : row.resultingAccuracy = m.map fun m => m.constrained.precision * 100
  measured : row.measured = m.isSome

theorem ReportRow.accounts_ofRecord (r : AccuracyRecord) :
    (ofRecord r).Accounts r.test r.precondition r.measurement :=
  ⟨rfl, rfl, rfl, rfl, rfl, rfl⟩

/-- A row that accounts for a measurement has both accuracies if it is marked as measured, and
otherwise neither. -/
theorem ReportRow.Accounts.isSome_eq {row : ReportRow} {t : ObservedTest} {f : Formula}
    {m : Option Measurement} (h : row.Accounts t f m) :
    row.rawAccuracy.isSome = row.measured ∧ row.resultingAccuracy.isSome = row.measured := by
  rw [h.rawAccuracy, h.resultingAccuracy, h.measured, Option.isSome_map, Option.isSome_map]
  exact ⟨rfl, rfl⟩

/-- **What is printed for a record:** where there is a measurement, the accuracies of its two
streams in percent, with one digit behind the point, and the precondition below them; and where
there is none, that the precondition is unmeasured. -/
inductive AccuracyRecord.Entry (r : AccuracyRecord) : String → Prop
  | found {m : Measurement} (measured : r.measurement = some m) :
      r.Entry ("- Found precondition (accuracy " ++ Fixed.ofFloat 1 (m.raw.precision * 100) ++
        "% -> " ++ Fixed.ofFloat 1 (m.constrained.precision * 100) ++ "%)\n  " ++
        r.precondition.text ++ "\n")
  | unmeasured (missing : r.measurement = none) :
      r.Entry ("- Unmeasured precondition\n  " ++ r.precondition.text ++ "\n")

/-- **The row of a record is printed as the record demands.** -/
theorem ReportRow.entry_ofRecord (r : AccuracyRecord) : r.Entry (ofRecord r).entry := by
  obtain ⟨t, f, m⟩ := r
  cases m with
  | none => exact .unmeasured rfl
  | some m => exact .found rfl

/-- The rows that could not be measured are those that are not marked. -/
theorem Report.unmeasured_eq (report : Report) :
    report.unmeasured = report.rows.countP (!·.measured) := by
  have split : report.rows.length =
      report.rows.countP (·.measured) + report.rows.countP (!·.measured) := by
    simpa using List.length_eq_countP_add_countP (fun row : ReportRow => row.measured)
  rw [unmeasured, measured, split, Nat.add_sub_cancel_left]

/-- The rows that are marked as measured are those of the records with a measurement. -/
theorem Report.measured_ofRecords (records : List AccuracyRecord) :
    (ofRecords records).measured = records.countP (·.measurement.isSome) :=
  List.countP_map

/-- The other rows are those of the records without one. -/
theorem Report.unmeasured_ofRecords (records : List AccuracyRecord) :
    (ofRecords records).unmeasured = records.countP (!·.measurement.isSome) :=
  (unmeasured_eq _).trans List.countP_map

/-- **The totals of a report count the records** with a measurement and those without. -/
theorem Report.totals_ofRecords (records : List AccuracyRecord) :
    (ofRecords records).totals =
      "Measured " ++ toString (records.countP (·.measurement.isSome)) ++
        " and could not measure " ++ toString (records.countP (!·.measurement.isSome)) ++
        " preconditions" := by
  rw [totals, measured_ofRecords, unmeasured_ofRecords]

/-- Each pair that is measured has a record. -/
theorem Session.pairs_of_measureAll {φ σ κ : Type} {c : Collaborators φ σ κ} {ctx : Context}
    {count : Nat} {pairs : List (ObservedTest × Formula)} {s s' : Session φ κ}
    {records : List AccuracyRecord}
    (done : measureAll c ctx count pairs s = (.ok records, s')) :
    records.map (fun r => (r.test, r.precondition)) = pairs := by
  induction pairs generalizing s records with
  | nil =>
    cases done
    rfl
  | cons pair rest ih =>
    obtain ⟨t, f⟩ := pair
    rw [measureAll] at done
    rcases first : s.measure c ctx count t f with ⟨halt | m, s₁⟩ <;> simp only [first] at done
    · cases done
    rcases later : measureAll c ctx count rest s₁ with ⟨halt | others, s₂⟩ <;>
      simp only [later] at done
    · cases done
    cases done
    rw [List.map_cons, ih later]

/-- **An evaluation that succeeds has a row for each pair,** which accounts for the measurement of
the pair in the session that the pairs before it left. -/
theorem Suite.accounts_of_evaluate {φ σ κ : Type} {c : Collaborators φ σ κ} {suite : Suite}
    {s s' : Session φ κ} {report : Report} (done : suite.evaluate c s = (.ok report, s')) :
    let pairs := TestResult.pairs suite.results
    let count := suite.evaluation.sampleCount
    report.rows.length = pairs.length ∧
      ∀ i row, report.rows[i]? = some row → ∃ t f m, pairs[i]? = some (t, f) ∧
        ((Session.measureAll c suite.context count (pairs.take i) s).2.measure c suite.context
          count t f).1 = .ok m ∧ row.Accounts t f m := by
  rw [evaluate] at done
  rcases found : suite.resultsAccuracy c suite.evaluation.sampleCount s with ⟨halt | records, z⟩ <;>
    simp only [found] at done
  · cases done
  cases done
  have measured := measureAll_of_resultsAccuracy found
  refine ⟨?_, fun i row at_i => ?_⟩
  · rw [← Session.pairs_of_measureAll measured, List.length_map]
    exact List.length_map _
  · have made : (records.map ReportRow.ofRecord)[i]? = some row := at_i
    rw [List.getElem?_map] at made
    obtain ⟨r, stored, rfl⟩ := Option.map_eq_some_iff.1 made
    obtain ⟨pair, measure⟩ := Session.measureAll_getElem? c suite.context _ measured stored
    exact ⟨r.test, r.precondition, r.measurement, pair, measure, ReportRow.accounts_ofRecord r⟩

/-- Rows about one test and one of its conditions. -/
structure RowGroup where
  testName : String
  condition : String
  rows : List ReportRow
  rows_ne_nil : rows ≠ []
  alike : ∀ r ∈ rows, r.testName = testName ∧ r.condition = condition

namespace RowGroup

/-- What the heading of a group names. -/
def key (g : RowGroup) : String × String := (g.testName, g.condition)

/-- The line of the heading. -/
def heading (g : RowGroup) : String := "[Test] " ++ g.testName ++ " (" ++ g.condition ++ ")\n"

/-- The lines of the rows. -/
def entries (g : RowGroup) : String := String.join (g.rows.map (·.entry))

/-- A group as it is printed: the heading, and the entry of each row below it. -/
def text (g : RowGroup) : String := g.heading ++ g.entries

/-- The group of a single row. -/
def single (r : ReportRow) : RowGroup where
  testName := r.testName
  condition := r.condition
  rows := [r]
  rows_ne_nil := List.cons_ne_nil _ _
  alike := List.forall_mem_singleton.2 ⟨rfl, rfl⟩

/-- A group with one more row in front. -/
def push (r : ReportRow) (g : RowGroup) (same : r.key = g.key) : RowGroup where
  testName := g.testName
  condition := g.condition
  rows := r :: g.rows
  rows_ne_nil := List.cons_ne_nil _ _
  alike := List.forall_mem_cons.2 ⟨Prod.mk.inj same, g.alike⟩

/-- Puts a row in front of groups: into the first one if it belongs there. -/
def add (r : ReportRow) : List RowGroup → List RowGroup
  | [] => [single r]
  | g :: later => if same : r.key = g.key then push r g same :: later else single r :: g :: later

/-- The groups of rows. -/
def groups : List ReportRow → List RowGroup
  | [] => []
  | r :: rest => add r (groups rest)

theorem flatMap_rows_add (r : ReportRow) (gs : List RowGroup) :
    (add r gs).flatMap rows = r :: gs.flatMap rows := by
  cases gs with
  | nil => rfl
  | cons g later =>
    rw [add]
    split <;> rfl

/-- **The groups divide the rows.** -/
theorem flatMap_rows_groups (rows : List ReportRow) : (groups rows).flatMap RowGroup.rows = rows := by
  induction rows with
  | nil => rfl
  | cons r rest ih => rw [groups, flatMap_rows_add, ih]

theorem isChain_add (r : ReportRow) {gs : List RowGroup}
    (h : gs.IsChain fun g g' => g.key ≠ g'.key) :
    (add r gs).IsChain fun g g' => g.key ≠ g'.key := by
  cases gs with
  | nil => exact .singleton _
  | cons g later =>
    rw [add]
    split
    · -- a row more does not change what the group is about
      rw [List.isChain_cons] at h ⊢
      exact h
    · next other => exact .cons_cons other h

/-- **Neighbouring groups are about different tests or conditions.** -/
theorem isChain_groups (rows : List ReportRow) :
    (groups rows).IsChain fun g g' => g.key ≠ g'.key := by
  induction rows with
  | nil => exact .nil
  | cons r rest ih => exact isChain_add r ih

/-- What is printed of groups below a heading, which is not repeated for the first one. -/
def textUnder (current : Option (String × String)) : List RowGroup → String
  | [] => ""
  | g :: later =>
    (if current = some g.key then "" else g.heading) ++ g.entries ++ String.join (later.map text)

/-- Where there is no heading yet, each group has its own. -/
theorem textUnder_none (gs : List RowGroup) : textUnder none gs = String.join (gs.map text) := by
  cases gs with
  | nil => simp [textUnder]
  | cons g later => simp [textUnder, text]

theorem entries_single (r : ReportRow) : (single r).entries = r.entry := by
  simp [entries, single]

theorem entries_push (r : ReportRow) (g : RowGroup) (same : r.key = g.key) :
    (push r g same).entries = r.entry ++ g.entries := by
  simp [entries, push]

/-- The heading of a group is that of any of its rows. -/
theorem heading_eq {r : ReportRow} {g : RowGroup} (same : r.key = g.key) :
    g.heading = r.heading := by
  obtain ⟨name, condition⟩ := Prod.mk.inj same
  rw [heading, ReportRow.heading, name, condition]

/-- A row is printed in front of what is printed under its heading. -/
theorem textUnder_add (current : Option (String × String)) (r : ReportRow) (gs : List RowGroup) :
    textUnder current (add r gs) =
      (if current = some r.key then "" else r.heading) ++ r.entry ++ textUnder (some r.key) gs := by
  cases gs with
  | nil =>
    show _ ++ (single r).entries ++ "" = _ ++ ""
    rw [entries_single]
    rfl
  | cons g later =>
    rw [add]
    split
    · next same =>
      show (if current = some g.key then "" else g.heading) ++ (push r g same).entries ++ _ = _
      rw [entries_push, heading_eq same, textUnder, if_pos (congrArg some same), same,
        String.empty_append]
      simp only [String.append_assoc]
    · next other =>
      have apart : some r.key ≠ some g.key := fun same => other (Option.some.inj same)
      show (if current = some r.key then "" else r.heading) ++ (single r).entries ++ _ = _
      rw [entries_single, textUnder, if_neg apart, List.map_cons, String.join_cons, text]

/-- **The loop prints one group after another.** -/
theorem entriesUnder_eq (current : Option (String × String)) (rows : List ReportRow) :
    ReportRow.entriesUnder current rows = textUnder current (groups rows) := by
  induction rows generalizing current with
  | nil => rfl
  | cons r rest ih => rw [ReportRow.entriesUnder, groups, textUnder_add, ih]

end RowGroup

/-- **A report accounts for each precondition under its own heading.**  When the evaluation of a
suite succeeds, whatever results are stored, the report has one row for each pair of a test and one
of its preconditions, in order.  The row accounts for the pair, and for its measurement in the
session that the pairs before it left; it has both accuracies if it is marked as measured, and
otherwise neither.  The rows are those marked as measured and the rest, which are counted as such.

The text of any report that is made of records is that of groups of rows, and then the totals, which
count the records with a measurement and those without.  The groups divide the rows, in their order.
Each is a heading and below it one entry for each of its rows, all of which are about the test and
the condition in the heading; and a group ends only where the next row is about another test or
condition.  The entry of a row is what is to be printed for the record in its place. -/
theorem Report.accounts_for_each_precondition :
    (∀ {φ σ κ : Type} (c : Collaborators φ σ κ) (suite : Suite) (s s' : Session φ κ)
      (report : Report), suite.evaluate c s = (.ok report, s') →
        let pairs := TestResult.pairs suite.results
        let count := suite.evaluation.sampleCount
        report.rows.length = pairs.length ∧
        (∀ i row, report.rows[i]? = some row →
          (∃ t f m, pairs[i]? = some (t, f) ∧
            ((Session.measureAll c suite.context count (pairs.take i) s).2.measure c suite.context
              count t f).1 = .ok m ∧ row.Accounts t f m) ∧
          row.rawAccuracy.isSome = row.measured ∧ row.resultingAccuracy.isSome = row.measured) ∧
        report.measured = report.rows.countP (·.measured) ∧
        report.unmeasured = report.rows.countP (!·.measured) ∧
        report.measured + report.unmeasured = report.rows.length) ∧
    ∀ records, ∃ groups : List RowGroup,
      groups.flatMap RowGroup.rows = (ofRecords records).rows ∧
      (groups.IsChain fun g g' => g.key ≠ g'.key) ∧
      (ofRecords records).text = String.join (groups.map RowGroup.text) ++
        ("Measured " ++ toString (records.countP (·.measurement.isSome)) ++
          " and could not measure " ++ toString (records.countP (!·.measurement.isSome)) ++
          " preconditions") ∧
      List.Forall₂
        (fun r row => r.Entry row.entry ∧ row.Accounts r.test r.precondition r.measurement)
        records (ofRecords records).rows := by
  refine ⟨fun c suite s s' report done => ?_, fun records => ?_⟩
  · obtain ⟨length, each⟩ := Suite.accounts_of_evaluate done
    refine ⟨length, fun i row at_i => ?_, rfl, report.unmeasured_eq,
      report.measured_add_unmeasured⟩
    obtain ⟨t, f, m, pair, measured, accounts⟩ := each i row at_i
    exact ⟨⟨t, f, m, pair, measured, accounts⟩, accounts.isSome_eq⟩
  · refine ⟨RowGroup.groups _, RowGroup.flatMap_rows_groups _, RowGroup.isChain_groups _, ?_, ?_⟩
    · rw [text, RowGroup.entriesUnder_eq, RowGroup.textUnder_none, totals_ofRecords]
    · rw [ofRecords, List.forall₂_map_right_iff, List.forall₂_same]
      exact fun r _ => ⟨ReportRow.entry_ofRecord r, ReportRow.accounts_ofRecord r⟩

/-- A suite with two preconditions gets a report with two rows, which are printed as they have to
be. -/
theorem Report.accounts_for_each_precondition_letters :
    ∃ records s',
      vowelSuite.evaluate vowelsInTurn (turnSession [0, 1, 0]) = (.ok (ofRecords records), s') ∧
      (ofRecords records).rows.length = 2 ∧
      (ofRecords records).measured + (ofRecords records).unmeasured = 2 ∧
      List.Forall₂ (fun r row => r.Entry row.entry) records (ofRecords records).rows ∧
      ∃ printed, (ofRecords records).text = printed ++
        ("Measured " ++ toString (records.countP (·.measurement.isSome)) ++
          " and could not measure " ++ toString (records.countP (!·.measurement.isSome)) ++
          " preconditions") := by
  have free : ∀ result ∈ vowelSuite.results, result.test.Free (turnSession [0, 1, 0]).world :=
    fun _ _ _ _ => rfl
  have positive : 1 ≤ vowelSuite.evaluation.sampleCount := by decide
  have room : vowelSuite.evaluation.sampleCount ≤ streamCapacity := by decide
  obtain ⟨records, s', measured, -⟩ :=
    Suite.resultsAccuracy_of_free vowelsInTurn _ positive room free
  have done : vowelSuite.evaluate vowelsInTurn (turnSession [0, 1, 0]) =
      (.ok (.ofRecords records), s') := by
    rw [Suite.evaluate, measured]
    rfl
  obtain ⟨evaluated, printed⟩ := accounts_for_each_precondition
  obtain ⟨length, -, -, -, total⟩ := evaluated _ _ _ _ _ done
  obtain ⟨groups, -, -, text, entries⟩ := printed records
  exact ⟨records, s', done, length, total.trans length, entries.imp fun _ _ => And.left, _, text⟩

end PreconditionMining

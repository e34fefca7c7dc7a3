/-
# The records of what settings are read from

Settings files and environments may write the fields of a record in any order and
more than once.  What is read from them is in order all the same: the last of several
fields with one name counts, and the records have their fields in increasing order of
the names (`Value.Ordered`).  This holds of a settings file (`ordered_fileLayer`), of
an environment, whose variables are merged one after another (`ordered_settings`), and
of the defaults (`ordered_encode_default`).  So all that is merged for a configuration
can be followed at the ends of ways.
-/

import PreconditionMining.Config.Layers
import PreconditionMining.Proofs.Data.Ways

namespace PreconditionMining

namespace Yaml

/-- A word without quotes is a leaf. -/
theorem isLeaf_plainValue (text : String) : (plainValue text).IsLeaf := by
  unfold plainValue
  split
  · next v found =>
    have fixed : ∀ e ∈ fixedWords, e.2.IsLeaf := by simp [fixedWords, Value.IsLeaf]
    obtain ⟨before, after, among, _⟩ := Dictionary.lookup_eq_some_iff.1 found
    exact fixed (text, v) (by simp [among])
  · trivial
  · cases decimal? text.toList <;> trivial

mutual

/-- What is written in a document is in order. -/
theorem Node.ordered_value : ∀ n : Node, n.value.Ordered
  | .plain text => .leaf (isLeaf_plainValue text)
  | .quoted _ => .leaf trivial
  | .list _ => .leaf trivial
  | .map entries => Value.ordered_ofDictionary (Node.ordered_fieldValues entries)

theorem Node.ordered_fieldValues : ∀ entries : List (String × Node),
    ∀ e ∈ Node.fieldValues entries, e.2.Ordered
  | [] => by simp [Node.fieldValues]
  | (_, n) :: rest => List.forall_mem_cons.2 ⟨n.ordered_value, Node.ordered_fieldValues rest⟩

end

theorem ordered_settings? {text : String} {v : Value} (read : settings? text = some v) :
    v.Ordered := by
  unfold settings? at read
  split at read
  · cases read
    exact .record .nil (by simp)
  · cases read
    exact .record .nil (by simp)
  · split at read
    · cases read
      exact Node.ordered_value _
    · cases read
  · cases read

end Yaml

/-- **A settings file is in order.** -/
theorem ordered_fileLayer {text : Option String} {v : Value} (read : fileLayer text = .ok v) :
    v.Ordered := by
  cases text with
  | none =>
    cases read
    exact .record .nil (by simp)
  | some text =>
    rw [fileLayer] at read
    split at read
    · cases read
    · next found =>
      cases read
      exact Yaml.ordered_settings? found

namespace Environment

theorem isLeaf_wordValue (word : List Char) : (wordValue word).IsLeaf := by
  unfold wordValue
  split
  · trivial
  · split <;> trivial

mutual

/-- What is read as a value is in order. -/
theorem ordered_value? : ∀ {steps : Nat} {cs rest : List Char} {v : Value},
    value? steps cs = some (v, rest) → v.Ordered
  | steps + 1, cs, rest, v, h => by
    rw [value?] at h
    obtain ⟨⟨w, more⟩, read, same⟩ := Option.map_eq_some_iff.1 h
    cases same
    split at read
    · cases read
      exact .leaf trivial
    · split at read
      · cases read
        exact .leaf trivial
      · split at read
        · -- a map in braces
          obtain ⟨⟨fields, _⟩, inner, same⟩ := Option.map_eq_some_iff.1 read
          cases same
          exact Value.ordered_ofDictionary (ordered_fieldsRest? inner)
        · obtain ⟨_, _, same⟩ := Option.map_eq_some_iff.1 read
          cases same
          exact .leaf trivial
        · obtain ⟨_, _, same⟩ := Option.map_eq_some_iff.1 read
          cases same
          exact .leaf trivial
        · cases read
          exact .leaf trivial
        · cases read
        · cases read
          exact .leaf (isLeaf_wordValue _)

theorem ordered_fieldsRest? : ∀ {steps : Nat} {cs rest : List Char}
    {fields : List (String × Value)}, fieldsRest? steps cs = some (fields, rest) →
      ∀ e ∈ fields, e.2.Ordered
  | steps + 1, cs, rest, fields, h => by
    rw [fieldsRest?] at h
    split at h
    · cases h
      simp
    · split at h
      · cases h
      · split at h
        · split at h
          · next inner =>
            obtain ⟨⟨others, _⟩, further, same⟩ := Option.map_eq_some_iff.1 h
            cases same
            exact List.forall_mem_cons.2 ⟨ordered_value? inner, ordered_fieldsRest? further⟩
          · next inner =>
            cases h
            exact List.forall_mem_singleton.2 (ordered_value? inner)
          · cases h
        · cases h

end

/-- The value of a variable is in order. -/
theorem ordered_value (text : String) : (value text).Ordered := by
  simp only [value]
  split
  · next read => exact ordered_value? read
  · exact .leaf trivial

theorem ordered_nested (path : List String) {v : Value} (h : v.Ordered) : (nested path v).Ordered := by
  induction path with
  | nil => exact h
  | cons name path ih => exact Value.ordered_singleton ih

/-- **The settings in an environment are in order.** -/
theorem ordered_settings (entries : List (String × String)) : (settings entries).Ordered := by
  refine Value.ordered_merged (.record .nil (by simp)) fun s mem => ?_
  obtain ⟨entry, _, made⟩ := List.mem_filterMap.1 mem
  obtain ⟨path, _, rfl⟩ := Option.map_eq_some_iff.1 made
  exact ordered_nested path (ordered_value entry.2)

end Environment

/-- A record is in order if its names and its fields are. -/
theorem Value.ordered_of_names {names : List String} {fields : List (String × Value)}
    (sorted : names.Pairwise (· < ·)) (same : fields.map (·.1) = names)
    (each : fields.Forall fun e => e.2.Ordered) : (record fields).Ordered :=
  .record (List.pairwise_map.1 (same ▸ sorted)) (List.forall_iff_forall_mem.1 each)

/-- **The defaults are in order.** -/
theorem HarnessConfig.ordered_encode_default : (HarnessConfig.encode {}).Ordered := by
  have leaf {v : Value} (h : v.IsLeaf) : v.Ordered := .leaf h
  have solver : (SolverOptions.encode {}).Ordered :=
    Value.ordered_of_names (by decide) rfl
      ⟨leaf trivial, Value.ordered_record_iff.2 ⟨.nil, fun _ mem => by cases mem⟩, leaf trivial, leaf trivial,
        leaf trivial, leaf trivial⟩
  have suite : (SuiteSettings.encode {}).Ordered :=
    Value.ordered_of_names (by decide) rfl
      ⟨leaf trivial, leaf trivial, solver, leaf trivial, leaf trivial⟩
  have evaluation : (EvaluationSettings.encode {}).Ordered :=
    Value.ordered_of_names (by decide) rfl (leaf trivial)
  have logging : (LogSettings.encode {}).Ordered :=
    Value.ordered_of_names (by decide) rfl
      ⟨leaf trivial, leaf trivial, leaf trivial, leaf trivial, leaf trivial⟩
  exact Value.ordered_of_names (by decide) rfl ⟨evaluation, logging, suite⟩

end PreconditionMining

/-
# Ways into data

A datum is a tree of records, and a way leads into it by the names of fields
(`Value.at?`).  Here merging, which goes field by field, is described at the ends of
ways: there the later datum wins where it has anything, and otherwise the first one
stays (`at?_merge`).  So of many data that are merged one after another the last one
that has anything at the end of a way counts (`at?_merged`), however long the way is.

This needs two things of the data.  What lies on the way has to be a record in each of
them, since anything else takes the place of whole records (`Leads`), and the records
name each field once, as those do that are kept in the order of the names (`Ordered`).
-/

import Mathlib.Data.List.Basic
import Mathlib.Data.List.Induction
import PreconditionMining.Data.Merge

namespace PreconditionMining

namespace Value

/-- A named field of a datum, if it is a record that has the field. -/
def part? (name : String) : Value → Option Value
  | record fields => field? name fields
  | _ => none

/-- The datum at the end of a way, which leads through records by the names of their fields. -/
def at? : List String → Value → Option Value
  | [], v => some v
  | name :: way, v => (part? name v).bind (at? way)

/-- A datum into which no way leads. -/
def IsLeaf : Value → Prop
  | record _ => False
  | _ => True

theorem not_isLeaf_iff {v : Value} : ¬ v.IsLeaf ↔ ∃ fields, v = record fields := by
  cases v <;> simp [IsLeaf]

/-- Whatever lies on a way, short of its end, is a record. -/
def Leads : List String → Value → Prop
  | [], _ => True
  | name :: way, v => ¬ v.IsLeaf ∧ ∀ inner, part? name v = some inner → Leads way inner

/-- No way leads on from a leaf. -/
theorem IsLeaf.way_eq_nil {v w : Value} (leaf : v.IsLeaf) {way : List String}
    (h : v.at? way = some w) : way = [] := by
  cases way with
  | nil => rfl
  | cons name way =>
    cases v with
    | record fields => exact leaf.elim
    | _ => cases h

/-- What holds of the ways to the leaves of each field holds of the ways to all leaves of a
record. -/
theorem forall_leaf_record {p : List String → Prop} {fields : List (String × Value)}
    (each : fields.Forall fun e => ∀ way v, e.2.at? way = some v → v.IsLeaf → p (e.1 :: way))
    (way : List String) (v : Value) (h : (record fields).at? way = some v) (leaf : v.IsLeaf) :
    p way := by
  cases way with
  | nil =>
    cases h
    exact leaf.elim
  | cons name way =>
    obtain ⟨u, found, below⟩ := Option.bind_eq_some_iff.1 h
    obtain ⟨before, after, among, _⟩ := Dictionary.lookup_eq_some_iff.1 found
    exact List.forall_iff_forall_mem.1 each (name, u) (by simp [among]) way v below leaf

theorem IsLeaf.forall_leaf {p : List String → Prop} {name : String} {v : Value} (leaf : v.IsLeaf)
    (here : p [name]) (way : List String) (w : Value) (h : v.at? way = some w) (_ : w.IsLeaf) :
    p (name :: way) := by
  rw [leaf.way_eq_nil h]
  exact here

/-- A way to a field leads through every record. -/
theorem leads_singleton {v : Value} (record : ¬ v.IsLeaf) {name : String} : v.Leads [name] :=
  ⟨record, fun _ _ => trivial⟩

/-- Every way leads through a record without fields. -/
theorem leads_empty (way : List String) : (record []).Leads way := by
  cases way with
  | nil => trivial
  | cons name way => exact ⟨id, fun _ found => by cases found⟩

/-- A datum whose records have their fields in increasing order of the names. -/
inductive Ordered : Value → Prop
  | leaf {v : Value} (leaf : v.IsLeaf) : Ordered v
  | record {fields : List (String × Value)} (sorted : fields.Pairwise fun a b => a.1 < b.1)
      (each : ∀ e ∈ fields, Ordered e.2) : Ordered (.record fields)

theorem ordered_record_iff {fields : List (String × Value)} :
    (record fields).Ordered ↔
      (fields.Pairwise fun a b => a.1 < b.1) ∧ ∀ e ∈ fields, e.2.Ordered := by
  refine ⟨fun h => ?_, fun h => .record h.1 h.2⟩
  cases h with
  | leaf leaf => exact leaf.elim
  | record sorted each => exact ⟨sorted, each⟩

theorem ordered_singleton {name : String} {v : Value} (h : v.Ordered) :
    (record [(name, v)]).Ordered :=
  .record (List.pairwise_singleton _ _) (List.forall_mem_singleton.2 h)

/-- A field of ordered data is ordered. -/
theorem Ordered.part {v inner : Value} (h : v.Ordered) {name : String}
    (found : v.part? name = some inner) : inner.Ordered := by
  cases v with
  | record fields =>
    obtain ⟨sorted, each⟩ := ordered_record_iff.1 h
    exact each _ ((Dictionary.lookup_eq_some_iff_mem sorted).1 found)
  | _ => cases found

/-- The record with the entries of a dictionary is ordered if the entries are. -/
theorem ordered_ofDictionary {pairs : List (String × Value)} (each : ∀ e ∈ pairs, e.2.Ordered) :
    (ofDictionary (.ofList pairs)).Ordered := by
  refine .record (Dictionary.ofList pairs).sorted fun e mem => ?_
  rcases Dictionary.mem_entries_insertAll mem with mem | mem
  · exact each e mem
  · cases mem

mutual

/-- **Merging keeps data ordered.** -/
theorem ordered_merge : ∀ {base later : Value}, base.Ordered → later.Ordered →
    (merge base later).Ordered
  | base, record later, hb, hl => by
    obtain ⟨_, each⟩ := ordered_record_iff.1 hl
    cases base with
    | record fields =>
      obtain ⟨sorted, hb⟩ := ordered_record_iff.1 hb
      exact ordered_record_iff.2 (ordered_mergeFields sorted hb each)
    | _ => exact hl
  | _, null, _, hl | _, bool _, _, hl | _, integer _, _, hl | _, number _, _, hl
  | _, character _, _, hl | _, text _, _, hl | _, list _, _, hl => hl

theorem ordered_mergeFields : ∀ {fields later : List (String × Value)},
    (fields.Pairwise fun a b => a.1 < b.1) → (∀ e ∈ fields, e.2.Ordered) →
      (∀ e ∈ later, e.2.Ordered) →
        ((mergeFields fields later).Pairwise fun a b => a.1 < b.1) ∧
          ∀ e ∈ mergeFields fields later, e.2.Ordered
  | fields, [], sorted, each, _ => ⟨sorted, each⟩
  | fields, (name, v) :: rest, sorted, each, others => by
    obtain ⟨first, others⟩ := List.forall_mem_cons.1 others
    rw [mergeFields]
    refine ordered_mergeFields (Dictionary.put_sorted _ _ sorted) (fun e mem => ?_) others
    rcases Dictionary.mem_put mem with rfl | mem
    · cases found : Dictionary.lookup name fields with
      | none => exact first
      | some base =>
        exact ordered_merge (each _ ((Dictionary.lookup_eq_some_iff_mem sorted).1 found)) first
    · exact each e mem

end

/-- Data that are merged one after another stay ordered. -/
theorem ordered_merged {base : Value} {layers : List Value} (hb : base.Ordered)
    (hl : ∀ s ∈ layers, s.Ordered) : (layers.foldl merge base).Ordered := by
  induction layers generalizing base with
  | nil => exact hb
  | cons layer rest ih =>
    obtain ⟨first, others⟩ := List.forall_mem_cons.1 hl
    exact ih (ordered_merge hb first) others

@[simp] theorem mergeField_none (later : Option Value) : mergeField none later = later := by
  cases later <;> rfl

@[simp] theorem mergeField_right_none (base : Option Value) : mergeField base none = base := by
  cases base <;> rfl

/-- A leaf takes the place of whatever there is. -/
theorem mergeField_leaf (base : Option Value) {v : Value} (leaf : v.IsLeaf) :
    mergeField base (some v) = some v := by
  cases base with
  | none => rfl
  | some b =>
    cases v with
    | record fields => exact leaf.elim
    | _ => rfl

/-- **A field of merged records is merged from the fields of both,** and so is one of a record that
takes the place of something else. -/
theorem part?_merge {base later : Value} (ordered : later.Ordered) (leads : ¬ later.IsLeaf)
    (name : String) :
    (merge base later).part? name = mergeField (base.part? name) (later.part? name) := by
  obtain ⟨fields, rfl⟩ := not_isLeaf_iff.1 leads
  have distinct : fields.Pairwise fun a b => a.1 ≠ b.1 :=
    (ordered_record_iff.1 ordered).1.imp String.ne_of_lt
  cases base with
  | record first => exact lookup_mergeFields name first fields distinct
  | _ => exact (mergeField_none _).symm

theorem not_isLeaf_merge {base later : Value} (leads : ¬ later.IsLeaf) :
    ¬ (merge base later).IsLeaf := by
  obtain ⟨fields, rfl⟩ := not_isLeaf_iff.1 leads
  cases base <;> exact id

/-- **At the end of a way data are merged as they are as a whole,** if the way leads to its end in
the later one. -/
theorem at?_merge {way : List String} {base later : Value} (ordered : later.Ordered)
    (leads : later.Leads way) :
    (merge base later).at? way = mergeField (base.at? way) (later.at? way) := by
  induction way generalizing base later with
  | nil => rfl
  | cons name way ih =>
    obtain ⟨record, onward⟩ := leads
    simp only [at?, part?_merge ordered record]
    cases below : later.part? name with
    | none => simp
    | some v =>
      cases base.part? name with
      | none => exact (mergeField_none _).symm
      | some b => exact ih (ordered.part below) (onward v below)

theorem leads_merge {way : List String} {base later : Value} (ordered : later.Ordered)
    (hb : base.Leads way) (hl : later.Leads way) : (merge base later).Leads way := by
  induction way generalizing base later with
  | nil => trivial
  | cons name way ih =>
    refine ⟨not_isLeaf_merge hl.1, fun inner found => ?_⟩
    rw [part?_merge ordered hl.1] at found
    cases first : base.part? name with
    | none =>
      rw [first, mergeField_none] at found
      exact hl.2 inner found
    | some b =>
      cases below : later.part? name with
      | none =>
        rw [below, mergeField_right_none] at found
        exact hb.2 inner found
      | some v =>
        rw [first, below] at found
        cases found
        exact ih (ordered.part below) (hb.2 b first) (hl.2 v below)

/-- What the last of some data that has anything at the end of a way has there. -/
def last? (way : List String) (sources : List Value) : Option Value :=
  sources.reverse.findSome? (at? way)

theorem last?_append_singleton (way : List String) (sources : List Value) (v : Value) :
    last? way (sources ++ [v]) = (v.at? way).or (last? way sources) := by
  simp only [last?, List.reverse_append, List.reverse_singleton, List.singleton_append,
    List.findSome?_cons]
  cases v.at? way <;> rfl

section Merged

variable {way : List String} {base : Value} {layers : List Value}
  (ordered : ∀ s ∈ layers, s.Ordered) (leads : ∀ s ∈ base :: layers, s.Leads way)
include ordered leads

theorem leads_merged : (layers.foldl merge base).Leads way := by
  induction layers generalizing base with
  | nil => exact leads base List.mem_cons_self
  | cons layer rest ih =>
    obtain ⟨first, rest⟩ := List.forall_mem_cons.1 ordered
    obtain ⟨hb, others⟩ := List.forall_mem_cons.1 leads
    obtain ⟨hl, others⟩ := List.forall_mem_cons.1 others
    exact ih rest (List.forall_mem_cons.2 ⟨leads_merge first hb hl, others⟩)

/-- **Of data that are merged one after another the last one counts that has anything at the end of
a way,** where that is a leaf. -/
theorem at?_merged (leaf : ∀ v, last? way (base :: layers) = some v → v.IsLeaf) :
    (layers.foldl merge base).at? way = last? way (base :: layers) := by
  induction layers using List.reverseRecOn with
  | nil => simp [last?]
  | append_singleton layers layer ih =>
    have among : ∀ s ∈ base :: layers, s ∈ base :: (layers ++ [layer]) := by simp +contextual
    have here : last? way (base :: (layers ++ [layer])) =
        (layer.at? way).or (last? way (base :: layers)) :=
      last?_append_singleton way (base :: layers) layer
    rw [here] at leaf ⊢
    rw [List.foldl_append, List.foldl_cons, List.foldl_nil,
      at?_merge (ordered layer (by simp)) (leads layer (by simp))]
    cases last : layer.at? way with
    | some v => exact mergeField_leaf _ (leaf v (by rw [last]; rfl))
    | none =>
      rw [last, Option.none_or] at leaf
      rw [mergeField_right_none, Option.none_or]
      exact ih (fun s mem => ordered s (by simp [mem])) (fun s mem => leads s (among s mem)) leaf

end Merged

end Value

end PreconditionMining

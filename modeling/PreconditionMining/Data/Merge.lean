/-
# Merging data

Two data are merged so that the second one wins: two records are merged field by
field, and in every other case the second datum takes the place of the first.

`lookup_mergeFields` says what a field of merged records is: merged where both
records have it, and otherwise what the one that has it gives.
-/

import PreconditionMining.Data.Value

namespace PreconditionMining
namespace Value

mutual

/-- The first datum with what the second one says. -/
def merge (base : Value) : Value → Value
  | record later =>
    match base with
    | record fields => record (mergeFields fields later)
    | _ => record later
  | null => null
  | bool b => bool b
  | integer n => integer n
  | number x => number x
  | character c => character c
  | text s => text s
  | list items => list items

/-- The first fields with what the second ones say. -/
def mergeFields (fields : List (String × Value)) :
    List (String × Value) → List (String × Value)
  | [] => fields
  | (name, v) :: rest =>
    let merged :=
      match Dictionary.lookup name fields with
      | some base => merge base v
      | none => v
    mergeFields (Dictionary.put name merged fields) rest

end

/-- A field that is merged from what may be on both sides. -/
def mergeField : Option Value → Option Value → Option Value
  | base, none => base
  | none, some v => some v
  | some base, some v => some (merge base v)

/-- **A field of merged records is merged from the fields of both.** -/
theorem lookup_mergeFields (name : String) (fields later : List (String × Value))
    (distinct : later.Pairwise fun a b => a.1 ≠ b.1) :
    Dictionary.lookup name (mergeFields fields later) =
      mergeField (Dictionary.lookup name fields) (Dictionary.lookup name later) := by
  induction later generalizing fields with
  | nil => simp [mergeFields, Dictionary.lookup, mergeField]
  | cons e rest ih =>
    obtain ⟨key, v⟩ := e
    obtain ⟨first, tail⟩ := List.pairwise_cons.1 distinct
    have absent : Dictionary.lookup key rest = none := by
      clear ih distinct tail
      induction rest with
      | nil => rfl
      | cons e more ih =>
        have ne : key ≠ e.1 := first e (by simp)
        simpa [Dictionary.lookup, ne] using ih fun a ha => first a (by simp [ha])
    simp only [mergeFields]
    rw [ih _ tail, Dictionary.lookup_put]
    by_cases here : name = key
    · subst here
      cases h : Dictionary.lookup name fields <;> simp [Dictionary.lookup, absent, mergeField]
    · simp [Dictionary.lookup, here]

end Value
end PreconditionMining
